import AccessLog.Proofs.Json.Number

/-!
# Reading strings and words

A string ends at its closing quote and is not touched by what stands behind it (`string?_append`),
and the bound on the characters that are read is never reached if it lies beyond the text
(`string?_of_length_lt`). So a scalar is read in front of other text as it is read alone, if that
text does not go on with a number (`scalar?_append`).
-/

set_option autoImplicit false

namespace AccessLog.Json.Reader

variable {cs rest : List Char}

/-! ## Escapes -/

theorem hexUnit?_append {unit : Nat} (h : hexUnit? cs = some (unit, rest)) (more : List Char) :
    hexUnit? (cs ++ more) = some (unit, rest ++ more) ∧ rest.length < cs.length := by
  unfold hexUnit? at h
  split at h
  · obtain ⟨n, hn, heq⟩ := Option.map_eq_some_iff.mp h
    cases heq
    exact ⟨by simp [hexUnit?, hn], by simp; omega⟩
  · cases h

theorem escapedUnit?_append {c : Char} (h : escapedUnit? cs = some (c, rest)) (more : List Char) :
    escapedUnit? (cs ++ more) = some (c, rest ++ more) ∧ rest.length < cs.length := by
  unfold escapedUnit? at h ⊢
  obtain ⟨⟨unit, behind⟩, hunit, h⟩ := Option.bind_eq_some_iff.mp h
  obtain ⟨happend, hlength⟩ := hexUnit?_append hunit more
  simp only at h
  simp only [happend, Option.bind_eq_bind, Option.bind_some]
  split
  · rename_i hlow
    rw [if_pos hlow] at h
    cases h
  · rename_i hlow
    rw [if_neg hlow] at h
    -- the first half of a pair is read together with the second
    by_cases hhigh : 0xD800 ≤ unit ∧ unit ≤ 0xDBFF
    · rw [if_pos hhigh] at h ⊢
      split at h
      · obtain ⟨⟨second, behind₂⟩, hsecond, h⟩ := Option.bind_eq_some_iff.mp h
        obtain ⟨happend₂, hlength₂⟩ := hexUnit?_append hsecond more
        simp only at h
        simp only [List.cons_append, happend₂, Option.bind_some]
        split at h
        · rename_i hpair
          rw [if_pos hpair]
          obtain ⟨rfl, rfl⟩ := Prod.mk.inj (Option.some.inj h)
          simp only [List.length_cons] at hlength
          exact ⟨rfl, by omega⟩
        · cases h
      · cases h
    · rw [if_neg hhigh] at h ⊢
      cases h
      exact ⟨rfl, hlength⟩

theorem escaped?_append {c : Char} (h : escaped? cs = some (c, rest)) (more : List Char) :
    escaped? (cs ++ more) = some (c, rest ++ more) ∧ rest.length < cs.length := by
  unfold escaped? at h
  split at h
  case h_9 rest' =>
    obtain ⟨happend, hlength⟩ := escapedUnit?_append h more
    exact ⟨happend, by simp only [List.length_cons]; omega⟩
  case h_10 => cases h
  all_goals
    cases h
    exact ⟨rfl, Nat.lt_succ_self _⟩

/-! ## Strings -/

/-- Reads one character of a string. -/
def char? : List Char → Option (Char × List Char)
  | [] => none
  | '\\' :: rest => escaped? rest
  | c :: rest => if c = '"' ∨ c.toNat < 0x20 then none else some (c, rest)

theorem char?_append {c : Char} (h : char? cs = some (c, rest)) (more : List Char) :
    char? (cs ++ more) = some (c, rest ++ more) ∧ rest.length < cs.length := by
  unfold char? at h
  split at h
  · cases h
  · obtain ⟨happend, hlength⟩ := escaped?_append h more
    exact ⟨happend, by simp only [List.length_cons]; omega⟩
  · rename_i c' rest' hne
    split at h
    · cases h
    · rename_i hplain
      cases h
      refine ⟨?_, Nat.lt_succ_self _⟩
      rw [List.cons_append, char?, if_neg hplain]
      exact hne

theorem string?_of_ne_quote (bound : Nat) (h : cs.head? ≠ some '"') :
    string? (bound + 1) cs = (char? cs).bind fun front =>
      (string? bound front.2).map fun back => (front.1 :: back.1, back.2) := by
  cases cs with
  | nil => rfl
  | cons c cs =>
    have hquote : c ≠ '"' := by simpa using h
    by_cases hslash : c = '\\'
    · subst hslash
      simp only [string?, char?]
      cases escaped? cs with
      | none => rfl
      | some front => cases hback : string? bound front.2 <;> simp [hback]
    · by_cases hlow : c.toNat < 0x20
      · simp [string?, char?, hlow]
      · simp only [string?, char?, hlow, hquote, or_self, if_false]
        cases hback : string? bound cs <;> simp [hback]

/-- A string is either at its end, or it goes on with a character. -/
theorem string?_succ_eq_some_iff {bound : Nat} {s : List Char} :
    string? (bound + 1) cs = some (s, rest) ↔ (cs = '"' :: rest ∧ s = []) ∨
      ∃ c behind s', char? cs = some (c, behind) ∧ string? bound behind = some (s', rest) ∧
        s = c :: s' := by
  by_cases hquote : cs.head? = some '"'
  · obtain ⟨tail, rfl⟩ := List.head?_eq_some_iff.mp hquote
    simp [string?, char?, eq_comm, and_comm]
  · have hne : ¬ (cs = '"' :: rest ∧ s = []) := by
      rintro ⟨rfl, -⟩
      exact hquote rfl
    rw [string?_of_ne_quote bound hquote]
    simp only [Option.bind_eq_some_iff, Option.map_eq_some_iff, Prod.exists, Prod.mk.injEq, hne,
      false_or]
    constructor
    · rintro ⟨c, behind, hc, s', _, hs, rfl, rfl⟩
      exact ⟨c, behind, s', hc, hs, rfl⟩
    · rintro ⟨c, behind, s', hc, hs, rfl⟩
      exact ⟨c, behind, hc, s', rest, hs, rfl, rfl⟩

theorem string?_of_length_lt {bound bound' : Nat} {s : List Char}
    (h : string? bound cs = some (s, rest)) (hbound : cs.length < bound') :
    string? bound' cs = some (s, rest) := by
  induction bound generalizing cs s bound' with
  | zero => cases h
  | succ bound ih =>
    cases bound' with
    | zero => omega
    | succ bound' =>
      rw [string?_succ_eq_some_iff] at h ⊢
      rcases h with h | ⟨c, behind, s', hc, hs, rfl⟩
      · exact .inl h
      · have hlength := (char?_append hc []).2
        exact .inr ⟨c, behind, s', hc, ih hs (by omega), rfl⟩

theorem length_of_string? {bound : Nat} {s : List Char} (h : string? bound cs = some (s, rest)) :
    rest.length < cs.length := by
  induction bound generalizing cs s with
  | zero => cases h
  | succ bound ih =>
    rw [string?_succ_eq_some_iff] at h
    rcases h with ⟨rfl, -⟩ | ⟨c, behind, s', hc, hs, rfl⟩
    · exact Nat.lt_succ_self _
    · exact Nat.lt_trans (ih hs) (char?_append hc []).2

theorem string?_append {bound : Nat} {s : List Char} (h : string? bound cs = some (s, rest))
    (more : List Char) : string? bound (cs ++ more) = some (s, rest ++ more) := by
  induction bound generalizing cs s with
  | zero => cases h
  | succ bound ih =>
    rw [string?_succ_eq_some_iff] at h ⊢
    rcases h with ⟨rfl, rfl⟩ | ⟨c, behind, s', hc, hs, rfl⟩
    · exact .inl ⟨rfl, rfl⟩
    · exact .inr ⟨c, behind ++ more, s', (char?_append hc more).1, ih hs, rfl⟩

/-! ## Scalars -/

theorem word?_append {word : String} (h : word? word cs = some rest) (more : List Char) :
    word? word (cs ++ more) = some (rest ++ more) := by
  unfold word? at h ⊢
  split at h
  · rename_i hfront
    obtain ⟨tail, rfl⟩ := List.isPrefixOf_iff_prefix.mp hfront
    cases h
    have hfront' : word.toList.isPrefixOf (word.toList ++ tail ++ more) = true :=
      List.isPrefixOf_iff_prefix.mpr ⟨tail ++ more, by simp⟩
    rw [if_pos hfront']
    simp
  · cases h

/-- The words that are values. -/
def words : List (String × Tree) :=
  [("null", .null), ("true", .bool true), ("false", .bool false)]

theorem number?_eq_none {c : Char} (hdigit : c.isDigit = false) (hsign : c ≠ '-') :
    number? (c :: cs) = none := by
  have hplain : sign (c :: cs) = (false, c :: cs) := sign_eq_iff.mpr ⟨rfl, by simpa using hsign⟩
  rw [number?_eq, hplain]
  simp [unsigned?, hdigit]

/-- A scalar is a string, a word or a number, and its first character says which. -/
theorem scalar?_eq_some_iff {t : Tree} :
    scalar? cs = some (t, rest) ↔
      (∃ text bound s, cs = '"' :: text ∧ string? bound text = some (s, rest) ∧
        t = .string (String.ofList s)) ∨
      (∃ word, (word, t) ∈ words ∧ word? word cs = some rest) ∨
      ∃ x, number? cs = some (x, rest) ∧ t = .number x := by
  constructor
  · intro h
    unfold scalar? at h
    split at h
    · obtain ⟨⟨s, behind⟩, hs, heq⟩ := Option.map_eq_some_iff.mp h
      cases heq
      exact .inl ⟨_, _, s, rfl, hs, rfl⟩
    · obtain ⟨behind, hword, heq⟩ := Option.map_eq_some_iff.mp h
      cases heq
      exact .inr (.inl ⟨"null", by simp [words], hword⟩)
    · obtain ⟨behind, hword, heq⟩ := Option.map_eq_some_iff.mp h
      cases heq
      exact .inr (.inl ⟨"true", by simp [words], hword⟩)
    · obtain ⟨behind, hword, heq⟩ := Option.map_eq_some_iff.mp h
      cases heq
      exact .inr (.inl ⟨"false", by simp [words], hword⟩)
    · obtain ⟨⟨x, behind⟩, hx, heq⟩ := Option.map_eq_some_iff.mp h
      cases heq
      exact .inr (.inr ⟨x, hx, rfl⟩)
  · rintro (⟨text, bound, s, rfl, hs, rfl⟩ | ⟨word, hmem, hword⟩ | ⟨x, hx, rfl⟩)
    · simp only [scalar?]
      rw [string?_of_length_lt hs (by simp)]
      rfl
    · have hfront := hword
      unfold word? at hfront
      split at hfront
      · rename_i hprefix
        obtain ⟨tail, rfl⟩ := List.isPrefixOf_iff_prefix.mp hprefix
        simp only [words, List.mem_cons, List.not_mem_nil, or_false, Prod.mk.injEq] at hmem
        rcases hmem with ⟨rfl, rfl⟩ | ⟨rfl, rfl⟩ | ⟨rfl, rfl⟩
        all_goals exact Option.map_eq_some_iff.mpr ⟨rest, hword, rfl⟩
      · cases hfront
    · -- what opens a string or a word opens no number
      unfold scalar?
      split
      case h_5 => exact Option.map_eq_some_iff.mpr ⟨_, hx, rfl⟩
      all_goals
        rw [number?_eq_none rfl (by decide)] at hx
        cases hx

/-- **A scalar is read in front of other text as it is read alone.** -/
theorem scalar?_append {more : List Char} (hmore : EndsNumeral more) {t : Tree}
    (h : scalar? cs = some (t, rest)) : scalar? (cs ++ more) = some (t, rest ++ more) := by
  rw [scalar?_eq_some_iff] at h ⊢
  rcases h with ⟨text, bound, s, rfl, hs, rfl⟩ | ⟨word, hmem, hword⟩ | ⟨x, hx, rfl⟩
  · exact .inl ⟨text ++ more, bound, s, rfl, string?_append hs more, rfl⟩
  · exact .inr (.inl ⟨word, hmem, word?_append hword more⟩)
  · exact .inr (.inr ⟨x, number?_append hmore hx, rfl⟩)

theorem length_of_scalar? {t : Tree} (h : scalar? cs = some (t, rest)) :
    rest.length ≤ cs.length := by
  rw [scalar?_eq_some_iff] at h
  rcases h with ⟨text, bound, s, rfl, hs, rfl⟩ | ⟨word, hmem, hword⟩ | ⟨x, hx, rfl⟩
  · exact Nat.le_succ_of_le (length_of_string? hs).le
  · unfold word? at hword
    split at hword
    · cases hword
      simp
    · cases hword
  · exact length_of_number? hx

end AccessLog.Json.Reader
