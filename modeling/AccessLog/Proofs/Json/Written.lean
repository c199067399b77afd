import AccessLog.Json.Writer
import AccessLog.Proofs.Json.Parse
import Mathlib.Tactic.IntervalCases

/-!
# What is written is read

The compact text of a tree begins with that tree (`parses_compactChars`), and so **a document that
is written is read as the tree that was written** (`read_compact`). Three things are asked of the
tree: that it is whole, that its numbers are integers of 64 bits, and that it is not too deep.
-/

set_option autoImplicit false

namespace AccessLog.Json

open Reader

variable {cs rest : List Char}

/-! ## Strings -/

/-- The characters that have an escape of their own. -/
def shortEscapes : List Char := ['"', '\\', '\x08', '\x0c', '\n', '\r', '\t']

/-- A character below the blank is read from its two hexadecimal digits. -/
theorem escapedUnit?_lowHex {c : Char} (h : c.toNat < 0x20) (rest : List Char) :
    escapedUnit? ('0' :: '0' :: Nat.digitChar (c.toNat / 16) :: Nat.digitChar (c.toNat % 16) :: rest)
      = some (c, rest) := by
  have hchar : Char.ofNat c.toNat = c := Char.ofNat_toNat c
  revert hchar
  generalize c.toNat = n at h
  rintro rfl
  interval_cases n <;> rfl

/-- A character is read from its escape. -/
theorem char?_escapeChar (c : Char) (rest : List Char) :
    char? (escapeChar c ++ rest) = some (c, rest) := by
  -- a character has an escape of its own, or a hexadecimal one, or stands for itself
  by_cases hshort : c ∈ shortEscapes
  · simp only [shortEscapes, List.mem_cons, List.not_mem_nil, or_false] at hshort
    rcases hshort with rfl | rfl | rfl | rfl | rfl | rfl | rfl <;> rfl
  · simp only [shortEscapes, List.mem_cons, List.not_mem_nil, or_false, not_or] at hshort
    obtain ⟨hquote, hslash, hback, hfeed, hline, hreturn, htab⟩ := hshort
    simp only [escapeChar, hquote, hslash, hback, hfeed, hline, hreturn, htab, if_false]
    split
    · rename_i hlow
      exact escapedUnit?_lowHex hlow rest
    · rename_i hhigh
      rw [List.singleton_append, char?, if_neg (by simp [hquote, hhigh])]
      exact hslash

theorem string?_flatMap_escapeChar {bound : Nat} {s : List Char} (hbound : s.length < bound) :
    string? bound (s.flatMap escapeChar ++ '"' :: rest) = some (s, rest) := by
  induction s generalizing bound with
  | nil =>
    cases bound with
    | zero => omega
    | succ bound => rfl
  | cons c s ih =>
    cases bound with
    | zero => omega
    | succ bound =>
      rw [List.flatMap_cons, List.append_assoc]
      refine string?_succ_eq_some_iff.mpr (.inr ⟨c, _, s, char?_escapeChar c _, ih ?_, rfl⟩)
      simpa using hbound

theorem scalar?_quote (s : String) (rest : List Char) :
    scalar? (quote s ++ rest) = some (.string s, rest) := by
  refine scalar?_eq_some_iff.mpr (.inl ⟨s.toList.flatMap escapeChar ++ '"' :: rest, _, s.toList, ?_,
    string?_flatMap_escapeChar (Nat.lt_succ_self _), ?_⟩)
  · simp [quote]
  · rw [String.ofList_toList]

/-! ## Numbers and words -/

theorem scalar?_signedDecimal {n : Int} (hn : InRange n) (hrest : EndsNumeral rest) :
    scalar? ((Text.signedDecimal n).toList ++ rest) = some (.number (.int n), rest) :=
  scalar?_eq_some_iff.mpr (.inr (.inr ⟨_, number?_eq_int_iff.mpr ⟨rfl, hrest, hn⟩, rfl⟩))

theorem skip_cons {c : Char} (h : isBlank c = false) (tail : List Char) :
    skip (c :: tail) = c :: tail :=
  List.dropWhile_cons_of_neg (by simp [h])

theorem not_isBlank_of_isDigit {c : Char} (h : c.isDigit = true) : isBlank c = false := by
  rw [Bool.eq_false_iff]
  intro hblank
  simp only [isBlank, Bool.or_eq_true, beq_iff_eq] at hblank
  rcases hblank with ((rfl | rfl) | rfl) | rfl <;> cases h

/-- A numeral begins with no blank. -/
theorem skip_signedDecimal (n : Int) (rest : List Char) :
    skip ((Text.signedDecimal n).toList ++ rest) = (Text.signedDecimal n).toList ++ rest := by
  rw [toList_signedDecimal]
  split
  · exact skip_cons rfl _
  · have hdigits := Text.isDigit_toDigits n.natAbs
    cases hlist : Nat.toDigits 10 n.natAbs with
    | nil => exact absurd hlist Nat.toDigits_ne_nil
    | cons d ds =>
      rw [hlist] at hdigits
      exact skip_cons (not_isBlank_of_isDigit (hdigits d List.mem_cons_self)) _

/-! ## Trees -/

namespace Tree

/-- Whether a part of a tree can be written so that it is read again: it is there, it is closed, and
a number is an integer of 64 bits. -/
def writable : Tree → Bool
  | .number (.int n) => decide (InRange n)
  | .number (.float _) | .broken => false
  | .array _ closed | .object _ closed => closed
  | .null | .bool _ | .string _ => true

theorem parses_compactItems {room : Nat} {items : List Tree} (hne : items ≠ [])
    (h : ∀ item ∈ items, ∀ {more}, EndsNumeral more →
      Parses room (compactChars item ++ more) (.value item) more) :
    Parses room (compactItems items ++ ']' :: rest) (.items items) rest := by
  induction items with
  | nil => exact absurd rfl hne
  | cons item items ih =>
    obtain ⟨hitem, hitems⟩ := List.forall_mem_cons.mp h
    cases items with
    | nil =>
      rw [compactItems]
      exact .lastItem (hitem (endsNumeral_of_not_digit (.inr (.inl rfl)) rest)) rfl
    | cons next items =>
      rw [compactItems, List.append_assoc, List.cons_append]
      · exact .nextItem (hitem (endsNumeral_of_not_digit (.inl rfl) _)) rfl
          (ih (List.cons_ne_nil _ _) hitems)
      · exact List.cons_ne_nil _ _

theorem skip_quote (name : String) (tail : List Char) :
    skip (quote name ++ tail) = '"' :: (name.toList.flatMap escapeChar ++ '"' :: tail) := by
  simp only [quote, List.cons_append, List.append_assoc, List.nil_append]
  exact skip_cons rfl _

/-- A member that is the last one, under its name between quotes. -/
theorem parses_quote_last {room : Nat} {name : String} {value behind : List Char} {t : Tree}
    (hvalue : Parses room value (.value t) behind) (hclose : skip behind = '}' :: rest) :
    Parses room (quote name ++ ':' :: value) (.members [(name, t)]) rest := by
  have hmember := Parses.lastMember (skip_quote name (':' :: value))
    (string?_flatMap_escapeChar (Nat.lt_succ_self _)) rfl hvalue hclose
  rwa [String.ofList_toList] at hmember

/-- A member that others follow, under its name between quotes. -/
theorem parses_quote_next {room : Nat} {name : String} {value behind more : List Char} {t : Tree}
    {members : List (String × Tree)} (hvalue : Parses room value (.value t) behind)
    (hcomma : skip behind = ',' :: more) (hmembers : Parses room more (.members members) rest) :
    Parses room (quote name ++ ':' :: value) (.members ((name, t) :: members)) rest := by
  have hmember := Parses.nextMember (skip_quote name (':' :: value))
    (string?_flatMap_escapeChar (Nat.lt_succ_self _)) rfl hvalue hcomma hmembers
  rwa [String.ofList_toList] at hmember

theorem parses_compactMembers {room : Nat} {members : List (String × Tree)} (hne : members ≠ [])
    (h : ∀ m ∈ members, ∀ {more}, EndsNumeral more →
      Parses room (compactChars m.2 ++ more) (.value m.2) more) :
    Parses room (compactMembers members ++ '}' :: rest) (.members members) rest := by
  induction members with
  | nil => exact absurd rfl hne
  | cons m members ih =>
    obtain ⟨name, member⟩ := m
    obtain ⟨hmember, hmembers⟩ := List.forall_mem_cons.mp h
    cases members with
    | nil =>
      rw [compactMembers, List.append_assoc, List.cons_append]
      exact parses_quote_last (hmember (endsNumeral_of_not_digit (.inr (.inr rfl)) rest)) rfl
    | cons next members =>
      rw [compactMembers, List.append_assoc, List.append_assoc, List.cons_append, List.cons_append]
      · exact parses_quote_next (hmember (endsNumeral_of_not_digit (.inl rfl) _)) rfl
          (ih (List.cons_ne_nil _ _) hmembers)
      · exact List.cons_ne_nil _ _

/-- **The compact text of a tree begins with the tree.** -/
theorem parses_compactChars {t : Tree} (h : t.every writable = true) {room : Nat}
    (hdepth : t.depth ≤ room) (hrest : EndsNumeral rest) :
    Parses room (t.compactChars ++ rest) (.value t) rest := by
  induction t generalizing room rest with
  | null => exact .scalar (scalar?_eq_some_iff.mpr (.inr (.inl ⟨"null", by simp [words], rfl⟩)))
  | bool b =>
    cases b with
    | true => exact .scalar (scalar?_eq_some_iff.mpr (.inr (.inl ⟨"true", by simp [words], rfl⟩)))
    | false => exact .scalar (scalar?_eq_some_iff.mpr (.inr (.inl ⟨"false", by simp [words], rfl⟩)))
  | number n =>
    cases n with
    | float x => cases h
    | int n =>
      refine .scalar ?_
      have hn : InRange n := of_decide_eq_true h
      rw [compactChars, Number.text, skip_signedDecimal]
      exact scalar?_signedDecimal hn hrest
  | string s => exact .scalar (scalar?_quote s rest)
  | broken => cases h
  | array items closed ih =>
    obtain ⟨hclosed, hitems⟩ := every_array.mp h
    obtain rfl : closed = true := hclosed
    cases room with
    | zero => cases hdepth
    | succ room =>
      have hdepths := depth_array_le.mp hdepth
      cases items with
      | nil => exact .emptyArray rfl rfl
      | cons item items =>
        have hparses : Parses room (compactItems (item :: items) ++ ']' :: rest)
            (.items (item :: items)) rest :=
          parses_compactItems (List.cons_ne_nil _ _) fun t ht => ih t ht (hitems t ht) (hdepths t ht)
        have htext : compactChars (.array (item :: items) true) ++ rest
            = '[' :: (compactItems (item :: items) ++ ']' :: rest) := by
          simp [compactChars]
        rw [htext]
        exact .array rfl hparses.trimmed
  | object members closed ih =>
    obtain ⟨hclosed, hmembers⟩ := every_object.mp h
    obtain rfl : closed = true := hclosed
    cases room with
    | zero => cases hdepth
    | succ room =>
      have hdepths := depth_object_le.mp hdepth
      cases members with
      | nil => exact .emptyObject rfl rfl
      | cons m members =>
        have hparses : Parses room (compactMembers (m :: members) ++ '}' :: rest)
            (.members (m :: members)) rest :=
          parses_compactMembers (List.cons_ne_nil _ _) fun e he =>
            ih e he (hmembers e he) (hdepths e he)
        have htext : compactChars (.object (m :: members) true) ++ rest
            = '{' :: (compactMembers (m :: members) ++ '}' :: rest) := by
          simp [compactChars]
        rw [htext]
        exact .object rfl hparses.trimmed

/-- **A document that is written is read as the tree that was written.** -/
theorem read_compact {t : Tree} (h : t.every writable = true) (hdepth : t.depth ≤ maxDepth) :
    Document.read t.compact = ⟨t, true⟩ := by
  have hends : EndsNumeral [] := by simp [EndsNumeral]
  have hparses := parses_compactChars h hdepth hends
  rw [List.append_nil] at hparses
  refine Document.read_eq_iff.mpr ⟨[], ?_, rfl⟩
  rw [compact, String.toList_ofList]
  exact hparses

end Tree

end AccessLog.Json
