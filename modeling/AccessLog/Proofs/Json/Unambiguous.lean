import AccessLog.Proofs.Json.Written

/-!
# What is written stands for one tree

A tree is read back from its text (`read_compact`), but the reader takes no integer of more than 64
bits for an integer, and no document that is too deep. Neither is needed to tell two texts apart.
Here nothing is read: **where the text of a tree stands in front of something, it is seen from the
text which tree it is and where it ends** (`told_compactChars`).

The first character says of what kind a tree is. Words end by themselves, a string at its quote, a
numeral at the first character that is no digit, and a container at its bracket: behind each of its
parts there stands a comma or that bracket, and no part goes on with either.
-/

set_option autoImplicit false

namespace AccessLog.Json

open Reader

/-- What is behind a part of a document does not go on with a numeral. -/
def Ends (rest : List Char) : Prop := ∀ c ∈ rest.head?, c.isDigit = false

variable {rest rest' : List Char}

theorem ends_nil : Ends [] := by simp [Ends]

theorem ends_cons {c : Char} (h : c.isDigit = false) (cs : List Char) : Ends (c :: cs) := by
  simpa [Ends] using h

/-! ## Scalars -/

theorem quote_append_inj {s s' : String} (h : quote s ++ rest = quote s' ++ rest') :
    s = s' ∧ rest = rest' := by
  simp only [quote, List.cons_append, List.append_assoc, List.nil_append, List.cons.injEq,
    true_and] at h
  -- both are read back, with room for the longer one
  have hread : string? _ (s.toList.flatMap escapeChar ++ '"' :: rest) = some (s.toList, rest) :=
    string?_flatMap_escapeChar (Nat.lt_succ_of_le (Nat.le_max_left _ s'.toList.length))
  rw [h, string?_flatMap_escapeChar (Nat.lt_succ_of_le (Nat.le_max_right _ _))] at hread
  simp only [Option.some.injEq, Prod.mk.injEq] at hread
  exact ⟨String.toList_inj.mp hread.1.symm, hread.2.symm⟩

theorem toDigits_append_inj {n m : Nat} (hrest : Ends rest) (hrest' : Ends rest')
    (h : Nat.toDigits 10 n ++ rest = Nat.toDigits 10 m ++ rest') : n = m ∧ rest = rest' := by
  have hdigits : Nat.toDigits 10 n = Nat.toDigits 10 m := by
    have htake := congrArg (List.takeWhile Char.isDigit) h
    rwa [takeWhile_append (Text.isDigit_toDigits n) hrest,
      takeWhile_append (Text.isDigit_toDigits m) hrest'] at htake
  constructor
  · rw [← Nat.ofDigitChars_ten_toDigits (n := n), hdigits, Nat.ofDigitChars_ten_toDigits]
  · rw [hdigits] at h
    exact List.append_cancel_left h

/-- A sign is no digit, and a numeral begins with one. -/
theorem minus_ne_toDigits_append {n : Nat} {cs : List Char} :
    '-' :: cs ≠ Nat.toDigits 10 n ++ rest := by
  intro h
  have hhead := congrArg List.head? h
  rw [List.head?_append_of_ne_nil _ Nat.toDigits_ne_nil] at hhead
  have hdigit := Text.isDigit_toDigits n '-' (List.mem_of_head? hhead.symm)
  cases hdigit

theorem signedDecimal_append_inj {n m : Int} (hrest : Ends rest) (hrest' : Ends rest')
    (h : (Text.signedDecimal n).toList ++ rest = (Text.signedDecimal m).toList ++ rest') :
    n = m ∧ rest = rest' := by
  rw [toList_signedDecimal, toList_signedDecimal] at h
  by_cases hn : n < 0
  · by_cases hm : m < 0
    · rw [if_pos hn, if_pos hm, List.cons_append, List.cons_append] at h
      obtain ⟨habs, heq⟩ := toDigits_append_inj hrest hrest' (List.cons.inj h).2
      exact ⟨by omega, heq⟩
    · rw [if_pos hn, if_neg hm] at h
      exact absurd h minus_ne_toDigits_append
  · by_cases hm : m < 0
    · rw [if_neg hn, if_pos hm] at h
      exact absurd h.symm minus_ne_toDigits_append
    · rw [if_neg hn, if_neg hm] at h
      obtain ⟨habs, heq⟩ := toDigits_append_inj hrest hrest' h
      exact ⟨by omega, heq⟩

/-! ## Rows of parts -/

section

variable {α : Type} (f : α → List Char)

/-- The texts of two things tell them apart and show where they end, whatever stands behind them. -/
def Told (a b : α) : Prop :=
  ∀ ⦃rest rest' : List Char⦄, Ends rest → Ends rest' → f a ++ rest = f b ++ rest' →
    a = b ∧ rest = rest'

/-- Parts with commas between them. -/
def rowChars : List α → List Char
  | [] => []
  | a :: as => f a ++ as.flatMap fun b => ',' :: f b

variable {f} {close : Char}

/-- Behind the first part there stands a comma or the bracket. -/
theorem ends_parts (hclose : close.isDigit = false) (as : List α) (rest : List Char) :
    Ends (as.flatMap (fun a => ',' :: f a) ++ close :: rest) := by
  cases as with
  | nil => exact ends_cons hclose rest
  | cons a as => exact ends_cons rfl _

theorem parts_append_inj (hcomma : close ≠ ',') (hclose : close.isDigit = false) {as bs : List α}
    (hpart : ∀ a ∈ as, ∀ b ∈ bs, Told f a b)
    (h : as.flatMap (fun a => ',' :: f a) ++ close :: rest
      = bs.flatMap (fun b => ',' :: f b) ++ close :: rest') : as = bs ∧ rest = rest' := by
  induction as generalizing bs with
  | nil =>
    cases bs with
    | nil => exact ⟨rfl, (List.cons.inj h).2⟩
    | cons b bs => exact absurd (List.cons.inj h).1 hcomma
  | cons a as ih =>
    cases bs with
    | nil => exact absurd (List.cons.inj h).1.symm hcomma
    | cons b bs =>
      simp only [List.flatMap_cons, List.cons_append, List.append_assoc, List.cons.injEq,
        true_and] at h
      obtain ⟨rfl, hparts⟩ := hpart a List.mem_cons_self b List.mem_cons_self
        (ends_parts hclose as _) (ends_parts hclose bs _) h
      obtain ⟨rfl, heq⟩ := ih (fun a ha b hb => hpart a (List.mem_cons_of_mem _ ha) b
        (List.mem_cons_of_mem _ hb)) hparts
      exact ⟨rfl, heq⟩

/-- A row ends at its bracket, if no part begins with it. -/
theorem rowChars_append_inj (hcomma : close ≠ ',') (hclose : close.isDigit = false)
    {as bs : List α} (hfirst : ∀ a ∈ as ++ bs, ∀ more, close ∉ (f a ++ more).head?)
    (hpart : ∀ a ∈ as, ∀ b ∈ bs, Told f a b)
    (h : rowChars f as ++ close :: rest = rowChars f bs ++ close :: rest') :
    as = bs ∧ rest = rest' := by
  cases as with
  | nil =>
    cases bs with
    | nil => exact ⟨rfl, (List.cons.inj h).2⟩
    | cons b bs =>
      simp only [rowChars, List.nil_append, List.append_assoc] at h
      have hhead := hfirst b (by simp) (bs.flatMap (fun b => ',' :: f b) ++ close :: rest')
      rw [← h] at hhead
      exact absurd rfl hhead
  | cons a as =>
    cases bs with
    | nil =>
      simp only [rowChars, List.nil_append, List.append_assoc] at h
      have hhead := hfirst a (by simp) (as.flatMap (fun a => ',' :: f a) ++ close :: rest)
      rw [h] at hhead
      exact absurd rfl hhead
    | cons b bs =>
      rw [rowChars, rowChars, List.append_assoc, List.append_assoc] at h
      obtain ⟨rfl, hparts⟩ := hpart a List.mem_cons_self b List.mem_cons_self
        (ends_parts hclose as _) (ends_parts hclose bs _) h
      obtain ⟨rfl, heq⟩ := parts_append_inj hcomma hclose (fun a ha b hb =>
        hpart a (List.mem_cons_of_mem _ ha) b (List.mem_cons_of_mem _ hb)) hparts
      exact ⟨rfl, heq⟩

end

namespace Tree

theorem compactItems_eq (items : List Tree) : compactItems items = rowChars compactChars items := by
  induction items with
  | nil => rfl
  | cons item items ih =>
    cases items with
    | nil => simp [compactItems, rowChars]
    | cons next items => simp [compactItems, ih, rowChars]

/-- A member as it is written. -/
def memberChars (m : String × Tree) : List Char := quote m.1 ++ ':' :: compactChars m.2

/-- A member begins with the quote of its name, and its name ends at a quote. -/
theorem told_memberChars {m n : String × Tree} (h : Told compactChars m.2 n.2) :
    Told memberChars m n := by
  intro rest rest' hrest hrest' heq
  simp only [memberChars, List.append_assoc, List.cons_append] at heq
  obtain ⟨hname, heq⟩ := quote_append_inj heq
  obtain ⟨hvalue, hend⟩ := h hrest hrest' (List.cons.inj heq).2
  exact ⟨Prod.ext hname hvalue, hend⟩

theorem compactMembers_eq (members : List (String × Tree)) :
    compactMembers members = rowChars memberChars members := by
  induction members with
  | nil => rfl
  | cons m members ih =>
    cases members with
    | nil => simp [compactMembers, rowChars, memberChars]
    | cons next members => simp [compactMembers, ih, rowChars, memberChars]

/-! ## Kinds -/

/-- What the first character of a text tells of its tree. -/
inductive Kind where
  | null
  | bool (b : Bool)
  | number
  | string
  | array
  | object
  deriving DecidableEq

/-- The kind of a tree; there is none where nothing can be read. -/
def kind? : Tree → Option Kind
  | .null => some .null
  | .bool b => some (.bool b)
  | .number _ => some .number
  | .string _ => some .string
  | .array .. => some .array
  | .object .. => some .object
  | .broken => none

/-- The kind of the trees whose text begins with a character. -/
def kindOf? (c : Char) : Option Kind :=
  if c.isDigit then some .number
  else if c = '-' then some .number
  else if c = 'n' then some .null
  else if c = 't' then some (.bool true)
  else if c = 'f' then some (.bool false)
  else if c = '"' then some .string
  else if c = '[' then some .array
  else if c = '{' then some .object
  else none

/-- Whether a part of a tree is all there, and no double. -/
def whole : Tree → Bool
  | .number (.float _) | .broken => false
  | .array _ closed | .object _ closed => closed
  | .null | .bool _ | .number (.int _) | .string _ => true

theorem exists_kindOf? {t : Tree} (h : t.every whole = true) :
    ∃ c tail kind, t.compactChars = c :: tail ∧ kindOf? c = some kind ∧ t.kind? = some kind := by
  cases t with
  | null => exact ⟨'n', _, _, rfl, rfl, rfl⟩
  | bool b =>
    cases b with
    | true => exact ⟨'t', _, _, rfl, rfl, rfl⟩
    | false => exact ⟨'f', _, _, rfl, rfl, rfl⟩
  | number n =>
    cases n with
    | float x => cases h
    | int n =>
      rw [compactChars, Number.text, toList_signedDecimal]
      split
      · exact ⟨'-', _, _, rfl, rfl, rfl⟩
      · cases hdigits : Nat.toDigits 10 n.natAbs with
        | nil => exact absurd hdigits Nat.toDigits_ne_nil
        | cons d ds =>
          have hd := Text.isDigit_toDigits n.natAbs d (hdigits ▸ List.mem_cons_self)
          exact ⟨d, ds, _, rfl, if_pos hd, rfl⟩
  | string s => exact ⟨'"', _, _, rfl, rfl, rfl⟩
  | array items closed => exact ⟨'[', _, _, rfl, rfl, rfl⟩
  | object members closed => exact ⟨'{', _, _, rfl, rfl, rfl⟩
  | broken => cases h

/-- No tree begins with a character that begins none, such as a bracket that ends a row. -/
theorem not_mem_head? {t : Tree} (h : t.every whole = true) {c : Char} (hc : kindOf? c = none)
    (more : List Char) : c ∉ (t.compactChars ++ more).head? := by
  obtain ⟨d, tail, kind, htext, hkind, -⟩ := exists_kindOf? h
  rw [htext]
  rintro ⟨⟩
  rw [hc] at hkind
  cases hkind

theorem kind?_eq_of_append {t u : Tree} (ht : t.every whole = true) (hu : u.every whole = true)
    (h : t.compactChars ++ rest = u.compactChars ++ rest') : t.kind? = u.kind? := by
  obtain ⟨c, tail, kind, htext, hkind, heq⟩ := exists_kindOf? ht
  obtain ⟨d, tail', kind', htext', hkind', heq'⟩ := exists_kindOf? hu
  rw [htext, htext', List.cons_append, List.cons_append] at h
  rw [heq, heq', ← hkind, ← hkind', (List.cons.inj h).1]

/-! ## Trees -/

/-- **The text of a tree tells the tree and its own end**, whatever stands behind it, as long as
that is no digit. -/
theorem told_compactChars {t u : Tree} (ht : t.every whole = true) (hu : u.every whole = true) :
    Told compactChars t u := by
  intro rest rest' hrest hrest' h
  have hkind := kind?_eq_of_append ht hu h
  induction t generalizing u rest rest' with
  | null =>
    cases u with
    | null => exact ⟨rfl, List.append_cancel_left h⟩
    | _ => cases hkind
  | bool b =>
    cases u with
    | bool c =>
      cases hkind
      exact ⟨rfl, List.append_cancel_left h⟩
    | _ => cases hkind
  | number n =>
    cases u with
    | number m =>
      cases n with
      | float x => cases ht
      | int n =>
        cases m with
        | float x => cases hu
        | int m =>
          obtain ⟨rfl, heq⟩ := signedDecimal_append_inj hrest hrest' h
          exact ⟨rfl, heq⟩
    | _ => cases hkind
  | string s =>
    cases u with
    | string s' =>
      obtain ⟨rfl, heq⟩ := quote_append_inj h
      exact ⟨rfl, heq⟩
    | _ => cases hkind
  | broken => cases ht
  | array items closed ih =>
    cases u with
    | array items' closed' =>
      obtain ⟨hclosed, hitems⟩ := every_array.mp ht
      obtain ⟨hclosed', hitems'⟩ := every_array.mp hu
      obtain rfl : closed = true := hclosed
      obtain rfl : closed' = true := hclosed'
      simp only [compactChars, compactItems_eq, if_true, List.cons_append, List.append_assoc,
        List.nil_append, List.cons.injEq, true_and] at h
      have hitem : ∀ a ∈ items, ∀ b ∈ items', Told compactChars a b :=
        fun a ha b hb _ _ hmore hmore' hab => ih a ha (hitems a ha) (hitems' b hb) hmore hmore' hab
          (kind?_eq_of_append (hitems a ha) (hitems' b hb) hab)
      obtain ⟨rfl, heq⟩ := rowChars_append_inj (by decide) rfl
        (fun a ha => not_mem_head? ((List.mem_append.mp ha).elim (hitems a) (hitems' a)) rfl) hitem h
      exact ⟨rfl, heq⟩
    | _ => cases hkind
  | object members closed ih =>
    cases u with
    | object members' closed' =>
      obtain ⟨hclosed, hmembers⟩ := every_object.mp ht
      obtain ⟨hclosed', hmembers'⟩ := every_object.mp hu
      obtain rfl : closed = true := hclosed
      obtain rfl : closed' = true := hclosed'
      simp only [compactChars, compactMembers_eq, if_true, List.cons_append, List.append_assoc,
        List.nil_append, List.cons.injEq, true_and] at h
      have hmember : ∀ m ∈ members, ∀ n ∈ members', Told memberChars m n :=
        fun m hm n hn => told_memberChars fun _ _ hmore hmore' hmn =>
          ih m hm (hmembers m hm) (hmembers' n hn) hmore hmore' hmn
            (kind?_eq_of_append (hmembers m hm) (hmembers' n hn) hmn)
      obtain ⟨rfl, heq⟩ := rowChars_append_inj (by decide) rfl
        (fun m _ more => by simp [memberChars, quote]) hmember h
      exact ⟨rfl, heq⟩
    | _ => cases hkind

/-- **No two trees share a text.** -/
theorem compact_inj {t u : Tree} (ht : t.every whole = true) (hu : u.every whole = true) :
    t.compact = u.compact ↔ t = u := by
  constructor
  · intro h
    have hchars : t.compactChars = u.compactChars := String.ofList_inj.mp h
    exact (told_compactChars ht hu ends_nil ends_nil (congrArg (· ++ []) hchars)).1
  · rintro rfl
    rfl

end Tree

end AccessLog.Json
