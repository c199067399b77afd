import AccessLog.Json.Reader
import AccessLog.Proofs.Numeral

/-!
# Which numbers are integers

A number of a document is kept as an integer only if it is written as one. `number?_eq_int_iff`
says it as an equivalence with the text: **what is read as an integer is the numeral of that
integer, of 64 bits and not followed by anything that belongs to a number**. So a fraction or an
exponent makes a double, whatever the value, and so does the sign of `-0`, which is no numeral of
zero.

A number that is followed by something else is read like the number alone (`number?_append`).
-/

set_option autoImplicit false

namespace AccessLog.Json.Reader

/-- What may stand behind a numeral: nothing that could belong to it. -/
def EndsNumeral (rest : List Char) : Prop :=
  ∀ c ∈ rest.head?, c.isDigit = false ∧ c ≠ '.' ∧ c ≠ 'e' ∧ c ≠ 'E'

/-- The integers that are kept as they are. -/
def InRange (n : Int) : Prop := -2 ^ 63 ≤ n ∧ n < 2 ^ 64

instance (n : Int) : Decidable (InRange n) := inferInstanceAs (Decidable (_ ∧ _))

theorem EndsNumeral.not_digit {rest : List Char} (h : EndsNumeral rest) :
    ∀ c ∈ rest.head?, c.isDigit = false := fun c hc => (h c hc).1

/-! ## The parts of a number -/

/-- Reads a number without its sign. -/
def unsigned? (negative : Bool) (cs : List Char) : Option (Number × List Char) := do
  let whole := cs.takeWhile Char.isDigit
  let rest := cs.dropWhile Char.isDigit
  if whole.isEmpty || (whole.head? == some '0' && 1 < whole.length) then none
  else
    let (fraction, rest) ← fraction? rest
    match rest with
    | 'e' :: rest | 'E' :: rest =>
      let (exponent, rest) ← exponent? rest
      return (← float? negative whole fraction exponent, rest)
    | _ =>
      if fraction.isEmpty then return (← integer? negative whole, rest)
      else return (← float? negative whole fraction 0, rest)

/-- Whether a number is negative, and what follows its sign. -/
def sign : List Char → Bool × List Char
  | '-' :: rest => (true, rest)
  | cs => (false, cs)

theorem number?_eq (cs : List Char) : number? cs = unsigned? (sign cs).1 (sign cs).2 := by
  have hsign : sign cs = match cs with
      | '-' :: rest => (true, rest)
      | _ => (false, cs) := by
    unfold sign
    split <;> rfl
  rw [hsign]
  rfl

theorem sign_append {cs : List Char} (h : cs ≠ []) (more : List Char) :
    sign (cs ++ more) = ((sign cs).1, (sign cs).2 ++ more) := by
  cases cs with
  | nil => exact absurd rfl h
  | cons c cs =>
    rw [List.cons_append]
    unfold sign
    split <;> split <;> simp_all

/-- Whether an exponent is negative, and what follows its sign. -/
def exponentSign : List Char → Bool × List Char
  | '-' :: rest => (true, rest)
  | '+' :: rest => (false, rest)
  | cs => (false, cs)

/-- Reads the digits of an exponent. -/
def power? (negative : Bool) (cs : List Char) : Option (Int × List Char) :=
  let digits := cs.takeWhile Char.isDigit
  let size : Int := Nat.ofDigitChars 10 digits 0
  if digits.isEmpty then none
  else some (if negative then -size else size, cs.dropWhile Char.isDigit)

theorem exponent?_eq (cs : List Char) :
    exponent? cs = power? (exponentSign cs).1 (exponentSign cs).2 := by
  have hsign : exponentSign cs = match cs with
      | '-' :: rest => (true, rest)
      | '+' :: rest => (false, rest)
      | _ => (false, cs) := by
    unfold exponentSign
    split <;> rfl
  rw [hsign]
  rfl

theorem exponentSign_append {cs : List Char} (h : cs ≠ []) (more : List Char) :
    exponentSign (cs ++ more) = ((exponentSign cs).1, (exponentSign cs).2 ++ more) := by
  cases cs with
  | nil => exact absurd rfl h
  | cons c cs =>
    rw [List.cons_append]
    unfold exponentSign
    split <;> split <;> simp_all

/-- The digits in front of the point: at least one, and no zero in front of others. -/
def Whole (whole : List Char) : Prop := whole ≠ [] ∧ (whole.head? = some '0' → whole.length = 1)

theorem malformed_eq_false_iff (whole : List Char) :
    (whole.isEmpty || (whole.head? == some '0' && 1 < whole.length)) = false ↔ Whole whole := by
  cases whole with
  | nil => simp [Whole]
  | cons c cs => simp [Whole]

/-- The two forms of a number without its sign: with an exponent, which makes it a double, and
without one, which makes it an integer if it has no fraction either. -/
theorem unsigned?_eq_some_iff {negative : Bool} {cs rest : List Char} {x : Number} :
    unsigned? negative cs = some (x, rest) ↔
      Whole (cs.takeWhile Char.isDigit) ∧ ∃ fraction behind,
        fraction? (cs.dropWhile Char.isDigit) = some (fraction, behind) ∧
        ((∃ e exponent power, behind = e :: exponent ∧ (e = 'e' ∨ e = 'E') ∧
            exponent? exponent = some (power, rest) ∧
            float? negative (cs.takeWhile Char.isDigit) fraction power = some x) ∨
          ((∀ c ∈ behind.head?, c ≠ 'e' ∧ c ≠ 'E') ∧ rest = behind ∧
            if fraction = [] then integer? negative (cs.takeWhile Char.isDigit) = some x
            else float? negative (cs.takeWhile Char.isDigit) fraction 0 = some x)) := by
  -- from here on nothing is known of the digits in front, nor of what follows them
  unfold unsigned?
  generalize cs.takeWhile Char.isDigit = whole
  generalize cs.dropWhile Char.isDigit = front
  by_cases hcase : Whole whole
  · simp only [(malformed_eq_false_iff whole).mpr hcase, Bool.false_eq_true, if_false, Option.bind_eq_bind,
      Option.pure_def, Option.bind_eq_some_iff, Prod.exists, hcase, true_and]
    refine exists_congr fun fraction => exists_congr fun behind => and_congr_right fun _ => ?_
    constructor
    · intro h
      split at h
      · obtain ⟨power, rest', hpower, x', hx, heq⟩ := by
          simpa only [Option.bind_eq_some_iff, Prod.exists, Option.some.injEq] using h
        obtain ⟨rfl, rfl⟩ := Prod.mk.inj heq
        exact .inl ⟨_, _, power, rfl, .inl rfl, hpower, hx⟩
      · obtain ⟨power, rest', hpower, x', hx, heq⟩ := by
          simpa only [Option.bind_eq_some_iff, Prod.exists, Option.some.injEq] using h
        obtain ⟨rfl, rfl⟩ := Prod.mk.inj heq
        exact .inl ⟨_, _, power, rfl, .inr rfl, hpower, hx⟩
      · rename_i hlower hupper
        refine .inr ⟨?_, ?_⟩
        · intro c hc
          obtain ⟨tail, rfl⟩ := List.head?_eq_some_iff.mp hc
          exact ⟨fun heq => hlower tail (heq ▸ rfl), fun heq => hupper tail (heq ▸ rfl)⟩
        · cases fraction with
          | nil =>
            obtain ⟨hx, rfl⟩ : integer? negative whole = some x ∧ behind = rest := by
              simpa [Option.bind_eq_some_iff] using h
            exact ⟨rfl, hx⟩
          | cons c cs =>
            obtain ⟨hx, rfl⟩ : float? negative whole (c :: cs) 0 = some x ∧ behind = rest := by
              simpa [Option.bind_eq_some_iff] using h
            exact ⟨rfl, hx⟩
    · rintro (⟨e, exponent, power, rfl, he, hpower, hx⟩ | ⟨hends, rfl, hx⟩)
      · rcases he with rfl | rfl <;> simp [hpower, hx]
      · split
        · exact absurd rfl (hends _ rfl).1
        · exact absurd rfl (hends _ rfl).2
        · cases fraction with
          | nil => simpa [Option.bind_eq_some_iff] using hx
          | cons c cs => simpa [Option.bind_eq_some_iff] using hx
  · have htrue := Bool.eq_true_of_not_eq_false fun h => hcase ((malformed_eq_false_iff whole).mp h)
    simp [htrue, hcase]

/-! ## Integers -/

theorem float?_ne_int {negative : Bool} {whole fraction : List Char} {exponent n : Int} :
    float? negative whole fraction exponent ≠ some (.int n) := by
  simp [float?]

theorem integer?_toDigits_eq_int_iff {negative : Bool} {m : Nat} {n : Int} :
    integer? negative (Nat.toDigits 10 m) = some (.int n) ↔
      if negative then 0 < m ∧ m ≤ 2 ^ 63 ∧ n = -m else m < 2 ^ 64 ∧ n = m := by
  unfold integer?
  rw [Nat.ofDigitChars_ten_toDigits]
  cases negative with
  | true =>
    simp only [if_true, Bool.and_eq_true, decide_eq_true_eq]
    split
    · rename_i hm
      have hbound : m ≤ 2 ^ 63 := hm.2
      simp only [hm.1, hbound, Option.some.injEq, Number.int.injEq, true_and, eq_comm]
    · rename_i hm
      have hbound : ¬ (0 < m ∧ m ≤ 2 ^ 63) := hm
      simp only [float?_ne_int, false_iff]
      exact fun h => hbound ⟨h.1, h.2.1⟩
  | false =>
    simp only [Bool.false_eq_true, if_false]
    split
    · rename_i hm
      have hbound : m < 2 ^ 64 := hm
      simp only [hbound, Option.some.injEq, Number.int.injEq, true_and, eq_comm]
    · rename_i hm
      have hbound : ¬ m < 2 ^ 64 := hm
      simp only [float?_ne_int, false_iff]
      exact fun h => hbound h.1

theorem fraction?_eq_nil_iff {cs behind : List Char} :
    fraction? cs = some ([], behind) ↔ behind = cs ∧ ∀ c ∈ cs.head?, c ≠ '.' := by
  unfold fraction?
  split
  · rename_i rest
    simp only [List.isEmpty_iff]
    split
    · simp
    · rename_i hne
      simp [hne]
  · rename_i hpoint
    cases cs with
    | nil => simp [eq_comm]
    | cons c cs =>
      have hc : c ≠ '.' := fun heq => hpoint cs (heq ▸ rfl)
      simp [hc, eq_comm]

theorem whole_toDigits (m : Nat) : Whole (Nat.toDigits 10 m) := by
  refine ⟨Nat.toDigits_ne_nil, fun h => ?_⟩
  rw [Text.eq_zero_of_head?_toDigits h]
  rfl

/-- What is read as an integer is a numeral and no more. -/
theorem unsigned?_eq_int_iff {negative : Bool} {cs rest : List Char} {n : Int} :
    unsigned? negative cs = some (.int n, rest) ↔ ∃ m : Nat, cs = Nat.toDigits 10 m ++ rest ∧
      EndsNumeral rest ∧ integer? negative (Nat.toDigits 10 m) = some (.int n) := by
  rw [unsigned?_eq_some_iff]
  constructor
  · rintro ⟨hwhole, fraction, behind, hfraction, h⟩
    rcases h with ⟨_, _, _, -, -, -, hfloat⟩ | ⟨hexponent, rfl, hx⟩
    · exact absurd hfloat float?_ne_int
    · split at hx
      · rename_i hnil
        subst hnil
        obtain ⟨rfl, hpoint⟩ := fraction?_eq_nil_iff.mp hfraction
        have hdigits : ∀ c ∈ cs.takeWhile Char.isDigit, c.isDigit = true := fun c hc =>
          List.mem_takeWhile_imp hc
        refine ⟨Nat.ofDigitChars 10 (cs.takeWhile Char.isDigit) 0, ?_, ?_, ?_⟩
        · rw [Text.toDigits_ofDigitChars hdigits hwhole.1 hwhole.2, List.takeWhile_append_dropWhile]
        · intro c hc
          exact ⟨head?_dropWhile _ _ c hc, hpoint c hc, hexponent c hc⟩
        · rw [Text.toDigits_ofDigitChars hdigits hwhole.1 hwhole.2]
          exact hx
      · exact absurd hx float?_ne_int
  · rintro ⟨m, rfl, hends, hinteger⟩
    have hdigits := Text.isDigit_toDigits m
    rw [takeWhile_append hdigits hends.not_digit, dropWhile_append hdigits hends.not_digit]
    refine ⟨whole_toDigits m, [], rest, fraction?_eq_nil_iff.mpr ⟨rfl, fun c hc => (hends c hc).2.1⟩,
      .inr ⟨fun c hc => (hends c hc).2.2, rfl, ?_⟩⟩
    rw [if_pos rfl]
    exact hinteger

theorem toList_decimal (m : Nat) : (Text.decimal m).toList = Nat.toDigits 10 m :=
  String.toList_ofList

theorem toList_signedDecimal (n : Int) :
    (Text.signedDecimal n).toList
      = if n < 0 then '-' :: Nat.toDigits 10 n.natAbs else Nat.toDigits 10 n.natAbs := by
  cases n with
  | ofNat m => simp [Text.signedDecimal, toList_decimal]
  | negSucc m =>
    rw [if_pos (Int.negSucc_lt_zero m), Text.signedDecimal, String.toList_append, toList_decimal]
    rfl

theorem sign_eq_iff {cs tail : List Char} {negative : Bool} :
    sign cs = (negative, tail) ↔
      if negative then cs = '-' :: tail else cs = tail ∧ cs.head? ≠ some '-' := by
  unfold sign
  split
  · cases negative <;> simp [eq_comm]
  · rename_i hsign
    cases cs with
    | nil => cases negative <;> simp [eq_comm]
    | cons c cs =>
      have hc : c ≠ '-' := fun heq => hsign cs (heq ▸ rfl)
      cases negative <;> simp [hc]

theorem head?_toDigits_append (m : Nat) (rest : List Char) :
    (Nat.toDigits 10 m ++ rest).head? ≠ some '-' := by
  intro h
  cases hdigits : Nat.toDigits 10 m with
  | nil => exact Nat.toDigits_ne_nil hdigits
  | cons d ds =>
    rw [hdigits, List.cons_append, List.head?_cons, Option.some.injEq] at h
    have hdigit := Text.isDigit_toDigits m d (hdigits ▸ List.mem_cons_self)
    rw [h] at hdigit
    cases hdigit

/-- **A number is an integer if and only if its text is the numeral of that integer.** -/
theorem number?_eq_int_iff {cs rest : List Char} {n : Int} :
    number? cs = some (.int n, rest) ↔
      cs = (Text.signedDecimal n).toList ++ rest ∧ EndsNumeral rest ∧ InRange n := by
  rw [number?_eq, unsigned?_eq_int_iff, toList_signedDecimal]
  simp only [integer?_toDigits_eq_int_iff]
  constructor
  · rintro ⟨m, hcs, hends, hn⟩
    obtain ⟨negative, tail, hsign⟩ : ∃ negative tail, sign cs = (negative, tail) := ⟨_, _, rfl⟩
    rw [hsign] at hcs hn
    -- the sign decides on which side of zero the digits have to fit
    have hcs' := sign_eq_iff.mp hsign
    simp only at hcs
    cases negative with
    | true =>
      obtain ⟨hpos, hbound, rfl⟩ := hn
      rw [if_pos (by omega), Int.natAbs_neg, Int.natAbs_natCast]
      rw [if_pos rfl, hcs] at hcs'
      exact ⟨hcs', hends, by unfold InRange; omega⟩
    | false =>
      obtain ⟨hbound, rfl⟩ := hn
      rw [if_neg (by omega), Int.natAbs_natCast]
      obtain ⟨rfl, -⟩ := hcs'
      exact ⟨hcs, hends, by unfold InRange; omega⟩
  · rintro ⟨rfl, hends, hlow, hhigh⟩
    by_cases hn : n < 0
    · have hsign : sign ('-' :: Nat.toDigits 10 n.natAbs ++ rest)
          = (true, Nat.toDigits 10 n.natAbs ++ rest) := rfl
      rw [if_pos hn, hsign]
      exact ⟨n.natAbs, rfl, hends, by omega, by omega, by omega⟩
    · have hsign : sign (Nat.toDigits 10 n.natAbs ++ rest)
          = (false, Nat.toDigits 10 n.natAbs ++ rest) :=
        sign_eq_iff.mpr ⟨rfl, head?_toDigits_append _ _⟩
      rw [if_neg hn, hsign]
      exact ⟨n.natAbs, rfl, hends, by omega, by omega⟩

/-! ## What stands behind a number -/

theorem length_of_number? {cs rest : List Char} {x : Number} (h : number? cs = some (x, rest)) :
    rest.length ≤ cs.length := by
  have hsign : (sign cs).2.length ≤ cs.length := by
    unfold sign
    split <;> simp
  have hdigits (l : List Char) : (l.dropWhile Char.isDigit).length ≤ l.length :=
    (List.dropWhile_sublist _).length_le
  rw [number?_eq, unsigned?_eq_some_iff] at h
  obtain ⟨-, fraction, behind, hfraction, h⟩ := h
  have hbehind : behind.length ≤ ((sign cs).2.dropWhile Char.isDigit).length := by
    generalize (sign cs).2.dropWhile Char.isDigit = front at hfraction
    unfold fraction? at hfraction
    split at hfraction
    · rename_i tail
      simp only at hfraction
      split at hfraction
      · cases hfraction
      · cases hfraction
        exact Nat.le_succ_of_le (hdigits tail)
    · cases hfraction
      exact Nat.le_refl _
  have hfront := Nat.le_trans hbehind (Nat.le_trans (hdigits _) hsign)
  rcases h with ⟨e, exponent, power, rfl, -, hpower, -⟩ | ⟨-, rfl, -⟩
  · have hexponent : (exponentSign exponent).2.length ≤ exponent.length := by
      unfold exponentSign
      split <;> simp
    rw [exponent?_eq, power?] at hpower
    split at hpower
    · cases hpower
    · cases hpower
      have hrest := Nat.le_trans (hdigits _) hexponent
      simp only [List.length_cons] at hfront
      omega
  · exact hfront

section

variable {more : List Char}

theorem fraction?_append (hmore : EndsNumeral more) {cs fraction behind : List Char}
    (h : fraction? cs = some (fraction, behind)) :
    fraction? (cs ++ more) = some (fraction, behind ++ more) := by
  cases cs with
  | nil =>
    cases h
    exact fraction?_eq_nil_iff.mpr ⟨rfl, fun c hc => (hmore c hc).2.1⟩
  | cons c cs =>
    by_cases hc : c = '.'
    · subst hc
      obtain ⟨htake, hdrop⟩ := takeWhile_append_stop hmore.not_digit cs
      simp only [fraction?, List.cons_append, htake, hdrop] at h ⊢
      split at h
      · cases h
      · rename_i hne
        rw [if_neg hne]
        cases h
        rfl
    · have hpoint : ∀ c' ∈ (c :: cs).head?, c' ≠ '.' := by simp [hc]
      rw [fraction?_eq_nil_iff.mpr ⟨rfl, hpoint⟩] at h
      cases h
      exact fraction?_eq_nil_iff.mpr ⟨rfl, by simp [hc]⟩

theorem power?_append (hmore : EndsNumeral more) {negative : Bool} {cs rest : List Char} {power : Int}
    (h : power? negative cs = some (power, rest)) :
    power? negative (cs ++ more) = some (power, rest ++ more) := by
  obtain ⟨htake, hdrop⟩ := takeWhile_append_stop hmore.not_digit cs
  simp only [power?, htake, hdrop] at h ⊢
  split at h
  · cases h
  · rename_i hne
    rw [if_neg hne]
    cases h
    rfl

theorem exponent?_append (hmore : EndsNumeral more) {cs rest : List Char} {power : Int}
    (h : exponent? cs = some (power, rest)) :
    exponent? (cs ++ more) = some (power, rest ++ more) := by
  rw [exponent?_eq] at h ⊢
  have hne : cs ≠ [] := by
    rintro rfl
    cases h
  rw [exponentSign_append hne]
  exact power?_append hmore h

theorem unsigned?_append (hmore : EndsNumeral more) {negative : Bool} {cs rest : List Char}
    {x : Number} (h : unsigned? negative cs = some (x, rest)) :
    unsigned? negative (cs ++ more) = some (x, rest ++ more) := by
  obtain ⟨htake, hdrop⟩ := takeWhile_append_stop hmore.not_digit cs
  rw [unsigned?_eq_some_iff] at h ⊢
  rw [htake, hdrop]
  obtain ⟨hwhole, fraction, behind, hfraction, h⟩ := h
  refine ⟨hwhole, fraction, behind ++ more, fraction?_append hmore hfraction, ?_⟩
  rcases h with ⟨e, exponent, power, rfl, he, hpower, hx⟩ | ⟨hends, rfl, hx⟩
  · exact .inl ⟨e, exponent ++ more, power, rfl, he, exponent?_append hmore hpower, hx⟩
  · refine .inr ⟨?_, rfl, hx⟩
    intro c hc
    rw [List.head?_append, Option.mem_def, Option.or_eq_some_iff] at hc
    rcases hc with hc | ⟨-, hc⟩
    · exact hends c hc
    · exact (hmore c hc).2.2

/-- **A number is read in front of other text as it is read alone.** -/
theorem number?_append (hmore : EndsNumeral more) {cs rest : List Char} {x : Number}
    (h : number? cs = some (x, rest)) : number? (cs ++ more) = some (x, rest ++ more) := by
  rw [number?_eq] at h ⊢
  have hne : cs ≠ [] := by
    rintro rfl
    cases h
  rw [sign_append hne]
  exact unsigned?_append hmore h

end

end AccessLog.Json.Reader
