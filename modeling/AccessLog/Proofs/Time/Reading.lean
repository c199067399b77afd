import AccessLog.Proofs.Numeral
import AccessLog.Proofs.Outcome
import AccessLog.Proofs.Time.Days
import AccessLog.Time.Reader

/-!
# A point in time is read from what is written for it

What is read is an instant of a certain kind (`Instant.Sound`): its second is one of the day, and a
leap second stands at the end of a minute, since offsets from UTC are whole minutes and so keep the
seconds of the minute. That is all that is needed for the way back: **what was read from any text
is read again from its own text** (`read_rfc3339`).
-/

set_option autoImplicit false

namespace AccessLog.Time

namespace Reader

/-! ## Steps -/

namespace Scan

variable {α β : Type} {cs rest : List Char}

/-- A scan takes something from the front of a text and leaves the rest. -/
def Takes (scan : Scan α) (cs : List Char) (a : α) (rest : List Char) : Prop :=
  scan.run cs = .ok (a, rest)

theorem takes_pure {a b : α} : Takes (pure a) cs b rest ↔ a = b ∧ cs = rest := by
  simp [Takes, pure_eq_ok_iff]

theorem takes_bind {scan : Scan α} {next : α → Scan β} {b : β} :
    Takes (scan >>= next) cs b rest ↔ ∃ a mid, Takes scan cs a mid ∧ Takes (next a) mid b rest := by
  simp [Takes, bind_eq_ok_iff]

theorem not_takes_throw {e : ReadError} {a : α} : ¬ Takes (throw e) cs a rest := by
  intro h
  cases h

theorem takes_get {found : List Char} : Takes get cs found rest ↔ cs = found ∧ cs = rest := by
  simp [Takes, pure_eq_ok_iff]

theorem takes_set {new : List Char} {u : Unit} : Takes (set new) cs u rest ↔ new = rest := by
  simp [Takes, pure_eq_ok_iff]

theorem takes_modify {f : List Char → List Char} {u : Unit} :
    Takes (modify f) cs u rest ↔ f cs = rest := by
  simp [Takes, pure_eq_ok_iff]

end Scan

open Scan

variable {cs rest : List Char}

/-! ## What is read -/

/-- The digits in front of a text, at most as many as the width. -/
def frontDigits (width : Option Nat) (cs : List Char) : List Char :=
  match width with
  | some n => (cs.takeWhile Char.isDigit).take n
  | none => cs.takeWhile Char.isDigit

theorem takes_digits_iff {width : Option Nat} {taken : List Char} :
    Takes (digits width) cs taken rest ↔
      frontDigits width cs = taken ∧ taken ≠ [] ∧ Nat.ofDigitChars 10 taken 0 < numeralBound ∧
        cs.drop taken.length = rest := by
  have hdef : (digits width).run cs = if (frontDigits width cs).isEmpty then
      .error (if cs.isEmpty then .tooShort else .invalid)
      else if numeralBound ≤ Nat.ofDigitChars 10 (frontDigits width cs) 0 then .error .outOfRange
      else .ok (frontDigits width cs, cs.drop (frontDigits width cs).length) := by
    cases cs with
    | nil => rcases width with _ | _ | n <;> rfl
    | cons c cs => cases width <;> rfl
  unfold Takes
  rw [hdef]
  by_cases hempty : frontDigits width cs = []
  · simp only [hempty, List.isEmpty_nil, if_true]
    constructor
    · intro h
      cases h
    · rintro ⟨rfl, hne, -⟩
      exact absurd rfl hne
  · simp only [List.isEmpty_iff, hempty, if_false]
    by_cases hlarge : numeralBound ≤ Nat.ofDigitChars 10 (frontDigits width cs) 0
    · rw [if_pos hlarge]
      constructor
      · intro h
        cases h
      · rintro ⟨rfl, -, hlt, -⟩
        exact absurd hlarge (Nat.not_le.mpr hlt)
    · rw [if_neg hlarge]
      simp only [Except.ok.injEq, Prod.mk.injEq]
      constructor
      · rintro ⟨rfl, rfl⟩
        exact ⟨rfl, hempty, Nat.not_le.mp hlarge, rfl⟩
      · rintro ⟨rfl, -, -, rfl⟩
        exact ⟨rfl, rfl⟩

theorem isDigit_frontDigits {width : Option Nat} : ∀ c ∈ frontDigits width cs, c.isDigit = true := by
  intro c hc
  cases width with
  | none => exact List.mem_takeWhile_imp hc
  | some n => exact List.mem_takeWhile_imp (List.mem_of_mem_take hc)

theorem takes_number {low high n : Nat} (h : Takes (number low high) cs n rest) :
    low ≤ n ∧ n ≤ high := by
  simp only [number, takes_bind] at h
  obtain ⟨-, mid, -, taken, behind, -, h⟩ := h
  split at h
  · rename_i hrange
    obtain ⟨rfl, -⟩ := takes_pure.mp h
    exact hrange
  · exact absurd h not_takes_throw

theorem takes_fraction {n : Nat} (h : Takes fraction cs n rest) : n < nanosPerSecond := by
  simp only [fraction, takes_bind] at h
  obtain ⟨found, mid, -, h⟩ := h
  split at h
  · rename_i tail
    simp only [takes_bind, takes_pure, takes_digits_iff] at h
    obtain ⟨-, behind, -, taken, -, ⟨rfl, -⟩, -, -, -, rfl, -⟩ := h
    have hdigits : ∀ c ∈ frontDigits (some 9) behind, c.isDigit = true := isDigit_frontDigits
    have hvalue := Text.ofDigitChars_lt hdigits
    have hlength : (frontDigits (some 9) behind).length ≤ 9 := by simp [frontDigits]
    -- fewer digits than nine stand for as many zeros behind them
    generalize frontDigits (some 9) behind = taken at hvalue hlength
    have hpower : 10 ^ taken.length * 10 ^ (9 - taken.length) = nanosPerSecond := by
      rw [← Nat.pow_add, Nat.add_sub_cancel' hlength]
      rfl
    rw [← hpower]
    exact Nat.mul_lt_mul_of_pos_right hvalue (Nat.pow_pos (by decide))
  · obtain ⟨rfl, -⟩ := takes_pure.mp h
    decide

theorem takes_clock {second nano : Nat} (h : Takes clock cs (second, nano) rest) :
    second < secondsPerDay ∧ nano < 2 * nanosPerSecond ∧
      (nanosPerSecond ≤ nano → second % 60 = 59) := by
  simp only [clock, takes_bind] at h
  obtain ⟨hour, mid₁, hhour, -, mid₂, -, minute, mid₃, hminute, -, mid₄, -, last, mid₅, hlast, passed,
    mid₆, hpassed, h⟩ := h
  have hhour := takes_number hhour
  have hminute := takes_number hminute
  have hlast := takes_number hlast
  have hpassed := takes_fraction hpassed
  simp only [secondsPerDay, nanosPerSecond] at *
  split at h
  · obtain ⟨heq, -⟩ := takes_pure.mp h
    obtain ⟨rfl, rfl⟩ := Prod.mk.inj heq
    omega
  · obtain ⟨heq, -⟩ := takes_pure.mp h
    obtain ⟨rfl, rfl⟩ := Prod.mk.inj heq
    omega

/-- Offsets are whole minutes. -/
theorem takes_offset {n : Int} (h : Takes offset cs n rest) : n % 60 = 0 := by
  simp only [offset, takes_bind] at h
  obtain ⟨found, mid, -, h⟩ := h
  split at h
  · simp only [takes_bind, takes_pure] at h
    obtain ⟨-, -, -, rfl, -⟩ := h
    rfl
  · simp only [takes_bind, takes_pure] at h
    obtain ⟨-, -, -, rfl, -⟩ := h
    rfl
  · exact absurd h not_takes_throw
  · split at h
    · simp only [takes_bind] at h
      obtain ⟨_, _, -, hours, _, -, _, _, -, minutes, _, -, h⟩ := h
      split at h
      · obtain ⟨_, _, hthrow, -⟩ := takes_bind.mp h
        exact absurd hthrow not_takes_throw
      · obtain ⟨rfl, -⟩ := takes_pure.mp h
        split <;> omega
    · obtain ⟨_, _, hthrow, -⟩ := takes_bind.mp h
      exact absurd hthrow not_takes_throw

theorem takes_zone {n : Int} (h : Takes zone cs n rest) : n % 60 = 0 := by
  simp only [zone, takes_bind] at h
  obtain ⟨-, -, -, found, mid, -, h⟩ := h
  split at h
  · simp only [takes_bind, takes_pure] at h
    obtain ⟨-, -, -, rfl, -⟩ := h
    rfl
  · exact takes_offset h

end Reader

open Reader Scan

namespace Instant

variable {α : Type}

theorem unless_eq_ok_iff {c : Prop} [Decidable c] {e : ReadError} {x : Except ReadError α} {a : α} :
    (if c then x else (throw e : Except ReadError PUnit) >>= fun _ => x) = .ok a ↔
      c ∧ x = .ok a := by
  split
  · rename_i h
    exact (and_iff_right h).symm
  · rename_i h
    constructor
    · intro hok
      cases hok
    · exact fun hok => absurd hok.1 h

/-- What is read: a second of the day, a leap second only at the end of a minute, and a day whose year
can be written. -/
structure Sound (t : Instant) : Prop where
  second : t.second < secondsPerDay
  nano : t.nano < 2 * nanosPerSecond
  leap : nanosPerSecond ≤ t.nano → t.second % 60 = 59
  year : minYear ≤ t.date.year ∧ t.date.year ≤ maxYear

theorem ofLocal_eq_ok_iff {date : Date} {second nano : Nat} {offset : Int} {t : Instant} :
    ofLocal date second nano offset = .ok t ↔
      (date.isValid = true ∧ minYear ≤ date.year ∧ date.year ≤ maxYear) ∧
        offset.natAbs < secondsPerDay ∧
        (minYear ≤ t.date.year ∧ t.date.year ≤ maxYear) ∧
        t = ⟨date.number + ((second : Int) - offset) / secondsPerDay,
          (((second : Int) - offset) % secondsPerDay).toNat, nano⟩ := by
  unfold ofLocal
  simp only [unless_eq_ok_iff, pure_eq_ok_iff]
  constructor
  · rintro ⟨hdate, hoffset, hyear, rfl⟩
    exact ⟨hdate, hoffset, hyear, rfl⟩
  · rintro ⟨hdate, hoffset, hyear, rfl⟩
    exact ⟨hdate, hoffset, hyear, rfl⟩

theorem read_eq_ok_iff {source : String} {t : Instant} :
    Instant.read source = .ok t ↔ ∃ date second nano offset mid₁ mid₂ mid₃ mid₄,
      Takes Reader.date source.toList date mid₁ ∧ Takes dateEnd mid₁ () mid₂ ∧
        Takes Reader.clock mid₂ (second, nano) mid₃ ∧ Takes zone mid₃ offset mid₄ ∧
        Takes blanks mid₄ () [] ∧ ofLocal date second nano offset = .ok t := by
  unfold Instant.read
  simp only [bind_eq_ok_iff, unless_eq_ok_iff, List.isEmpty_iff]
  constructor
  · rintro ⟨⟨⟨date, ⟨second, nano⟩, offset⟩, rest⟩, hscan, rfl, hlocal⟩
    have htakes : Takes _ source.toList (date, (second, nano), offset) [] := hscan
    simp only [takes_bind, takes_pure, Prod.mk.injEq] at htakes
    obtain ⟨_, mid₁, hdate, _, mid₂, hend, _, mid₃, hclock, _, mid₄, hzone, _, _, hblanks,
      ⟨rfl, rfl, rfl⟩, rfl⟩ := htakes
    exact ⟨_, _, _, _, mid₁, mid₂, mid₃, mid₄, hdate, hend, hclock, hzone, hblanks, hlocal⟩
  · rintro ⟨date, second, nano, offset, mid₁, mid₂, mid₃, mid₄, hdate, hend, hclock, hzone, hblanks,
      hlocal⟩
    refine ⟨((date, (second, nano), offset), []), ?_, rfl, hlocal⟩
    exact takes_bind.mpr ⟨_, _, hdate, takes_bind.mpr ⟨_, _, hend, takes_bind.mpr ⟨_, _, hclock,
      takes_bind.mpr ⟨_, _, hzone, takes_bind.mpr ⟨_, _, hblanks, takes_pure.mpr ⟨rfl, rfl⟩⟩⟩⟩⟩⟩

/-- **What is read is sound.** -/
theorem sound_of_read {source : String} {t : Instant} (h : Instant.read source = .ok t) :
    t.Sound := by
  obtain ⟨date, second, nano, offset, mid₁, mid₂, mid₃, mid₄, -, -, hclock, hzone, -, hlocal⟩ :=
    read_eq_ok_iff.mp h
  obtain ⟨hsecond, hnano, hleap⟩ := takes_clock hclock
  have hminutes := takes_zone hzone
  obtain ⟨-, -, hyear, rfl⟩ := ofLocal_eq_ok_iff.mp hlocal
  -- an offset of whole minutes moves the second of the day but not the one of the minute
  refine ⟨?_, hnano, fun hle => ?_, hyear⟩
  · simp only [secondsPerDay]
    omega
  · have hlast := hleap hle
    simp only [secondsPerDay]
    omega

end Instant

/-! ## What is written -/

section

variable {width n : Nat} {cs rest : List Char}

theorem toList_zeros (width n : Nat) :
    (zeros width n).toList
      = List.replicate (width - (Nat.toDigits 10 n).length) '0' ++ Nat.toDigits 10 n := by
  simp [zeros, Text.padLeft, Text.decimal, String.toList_append]

theorem isDigit_zeros : ∀ c ∈ (zeros width n).toList, c.isDigit = true := by
  intro c hc
  rw [toList_zeros] at hc
  rcases List.mem_append.mp hc with hc | hc
  · rw [List.eq_of_mem_replicate hc]
    rfl
  · exact Text.isDigit_toDigits n c hc

theorem ofDigitChars_zeros : Nat.ofDigitChars 10 (zeros width n).toList 0 = n := by
  rw [toList_zeros, Nat.ofDigitChars_append, Nat.ofDigitChars_replicate_zero, Nat.mul_zero,
    Nat.ofDigitChars_ten_toDigits]

theorem zeros_ne_nil : (zeros width n).toList ≠ [] := by
  rw [toList_zeros]
  simp [Nat.toDigits_ne_nil]

/-- A number that is not too large has the width exactly. -/
theorem length_zeros (hwidth : 0 < width) (h : n < 10 ^ width) :
    (zeros width n).toList.length = width := by
  have hle := (Nat.length_toDigits_le_iff (b := 10) (by decide) hwidth).mpr h
  rw [toList_zeros, List.length_append, List.length_replicate]
  omega

theorem head?_zeros_append (width n : Nat) (rest : List Char) :
    ∃ c tail, (zeros width n).toList ++ rest = c :: tail ∧ c.isDigit = true := by
  cases hzeros : (zeros width n).toList with
  | nil => exact absurd hzeros zeros_ne_nil
  | cons c tail => exact ⟨c, tail ++ rest, rfl, isDigit_zeros c (hzeros ▸ List.mem_cons_self)⟩

/-- Digits in front are taken as far as the width goes. -/
theorem takes_digits_zeros (hwidth : 0 < width) (h : n < 10 ^ width) (hbound : n < numeralBound) :
    Takes (digits (some width)) ((zeros width n).toList ++ rest) (zeros width n).toList rest := by
  refine takes_digits_iff.mpr ⟨?_, zeros_ne_nil, by rwa [ofDigitChars_zeros], ?_⟩
  · rw [frontDigits, List.takeWhile_append_of_pos isDigit_zeros]
    exact List.take_left' (length_zeros hwidth h)
  · exact List.drop_left

/-- Digits in front are taken to the last one. -/
theorem takes_digits_none (hrest : ∀ c ∈ rest.head?, c.isDigit = false) (hbound : n < numeralBound) :
    Takes (digits none) ((zeros width n).toList ++ rest) (zeros width n).toList rest := by
  refine takes_digits_iff.mpr ⟨?_, zeros_ne_nil, by rwa [ofDigitChars_zeros], ?_⟩
  · exact takeWhile_append isDigit_zeros hrest
  · exact List.drop_left

theorem takes_blanks (h : ∀ c ∈ cs.head?, Text.isBlank c = false) : Takes blanks cs () cs := by
  refine takes_modify.mpr ?_
  exact dropWhile_append (List.forall_mem_nil _) h

theorem isBlank_of_isDigit {c : Char} (h : c.isDigit = true) : Text.isBlank c = false := by
  obtain ⟨hlow, hhigh⟩ := Char.isDigit_iff_toNat.mp h
  change 48 ≤ c.toNat at hlow
  change c.toNat ≤ 57 at hhigh
  simp only [Text.isBlank, Bool.or_eq_false_iff, Bool.and_eq_false_iff, decide_eq_false_iff_not,
    beq_eq_false_iff_ne]
  omega

theorem takes_blanks_zeros :
    Takes blanks ((zeros width n).toList ++ rest) () ((zeros width n).toList ++ rest) := by
  obtain ⟨c, tail, htext, hdigit⟩ := head?_zeros_append width n rest
  rw [htext]
  exact takes_blanks (by simpa using isBlank_of_isDigit hdigit)

theorem takes_number_zeros {low high : Nat} (hrange : low ≤ n ∧ n ≤ high) (h : n < 100) :
    Takes (number low high) ((zeros 2 n).toList ++ rest) n rest := by
  refine takes_bind.mpr ⟨(), _, takes_blanks_zeros, takes_bind.mpr ⟨_, _,
    takes_digits_zeros (by decide) h (Nat.lt_trans h (by decide)), ?_⟩⟩
  rw [ofDigitChars_zeros, if_pos hrange]
  exact takes_pure.mpr ⟨rfl, rfl⟩

theorem takes_separator {c : Char} (h : Text.isBlank c = false) :
    Takes (separator c) (c :: rest) () rest := by
  refine takes_bind.mpr ⟨(), _, takes_blanks (by simpa using h), ?_⟩
  exact if_pos rfl

theorem takes_signed_minus {taken : List Char} (h : Takes (digits none) cs taken rest) :
    Takes signed ('-' :: cs) (-(Nat.ofDigitChars 10 taken 0 : Nat)) rest :=
  takes_bind.mpr ⟨_, _, takes_get.mpr ⟨rfl, rfl⟩, takes_bind.mpr ⟨(), _, takes_set.mpr rfl,
    takes_bind.mpr ⟨_, _, h, takes_pure.mpr ⟨rfl, rfl⟩⟩⟩⟩

theorem takes_signed_plus {taken : List Char} (h : Takes (digits none) cs taken rest) :
    Takes signed ('+' :: cs) (Nat.ofDigitChars 10 taken 0 : Nat) rest :=
  takes_bind.mpr ⟨_, _, takes_get.mpr ⟨rfl, rfl⟩, takes_bind.mpr ⟨(), _, takes_set.mpr rfl,
    takes_bind.mpr ⟨_, _, h, takes_pure.mpr ⟨rfl, rfl⟩⟩⟩⟩

theorem takes_signed_digit {c : Char} (hc : c.isDigit = true) {taken : List Char}
    (h : Takes (digits (some 4)) (c :: cs) taken rest) :
    Takes signed (c :: cs) (Nat.ofDigitChars 10 taken 0 : Nat) rest := by
  refine takes_bind.mpr ⟨_, _, takes_get.mpr ⟨rfl, rfl⟩, ?_⟩
  split
  · rename_i heq
    cases (List.cons.inj heq).1
    cases hc
  · rename_i heq
    cases (List.cons.inj heq).1
    cases hc
  · exact takes_bind.mpr ⟨_, _, h, takes_pure.mpr ⟨rfl, rfl⟩⟩

/-- A year of four digits, or one with its sign. -/
theorem toList_yearText (y : Int) :
    (0 ≤ y ∧ y ≤ 9999 ∧ (yearText y).toList = (zeros 4 y.toNat).toList) ∨
      (y < 0 ∧ (yearText y).toList = '-' :: (zeros 4 y.natAbs).toList) ∨
      (9999 < y ∧ (yearText y).toList = '+' :: (zeros 4 y.natAbs).toList) := by
  unfold yearText
  by_cases hneg : y < 0
  · have hlong : ¬ (0 ≤ y ∧ y ≤ 9999) := by omega
    rw [if_neg hlong, if_pos hneg, String.toList_append]
    exact .inr (.inl ⟨hneg, rfl⟩)
  · by_cases hshort : y ≤ 9999
    · rw [if_pos ⟨Int.not_lt.mp hneg, hshort⟩]
      exact .inl ⟨Int.not_lt.mp hneg, hshort, rfl⟩
    · have hlong : ¬ (0 ≤ y ∧ y ≤ 9999) := by omega
      rw [if_neg hlong, if_neg hneg, String.toList_append]
      exact .inr (.inr ⟨Int.not_le.mp hshort, rfl⟩)

theorem takes_signed {y : Int} (h : y.natAbs < numeralBound) :
    Takes signed ((yearText y).toList ++ '-' :: rest) y ('-' :: rest) := by
  have hrest : ∀ c ∈ ('-' :: rest).head?, c.isDigit = false := by simp
  have htakes : Takes (digits none) ((zeros 4 y.natAbs).toList ++ '-' :: rest)
      (zeros 4 y.natAbs).toList ('-' :: rest) := takes_digits_none hrest h
  rcases toList_yearText y with ⟨hlow, hhigh, htext⟩ | ⟨hneg, htext⟩ | ⟨hlarge, htext⟩
  · have hfour : Takes (digits (some 4)) ((zeros 4 y.toNat).toList ++ '-' :: rest)
        (zeros 4 y.toNat).toList ('-' :: rest) :=
      takes_digits_zeros (by decide) (by omega) (Nat.lt_of_le_of_lt (by omega) h)
    obtain ⟨c, tail, hzeros, hdigit⟩ := head?_zeros_append 4 y.toNat ('-' :: rest)
    have hsigned := takes_signed_digit hdigit (hzeros ▸ hfour)
    rw [ofDigitChars_zeros, Int.toNat_of_nonneg hlow] at hsigned
    rw [htext, hzeros]
    exact hsigned
  · have hsigned := takes_signed_minus htakes
    rw [ofDigitChars_zeros, Int.ofNat_natAbs_of_nonpos hneg.le, Int.neg_neg] at hsigned
    rw [htext]
    exact hsigned
  · have hsigned := takes_signed_plus htakes
    rw [ofDigitChars_zeros, Int.natAbs_of_nonneg (by omega)] at hsigned
    rw [htext]
    exact hsigned

theorem head?_yearText_append {y : Int} :
    ∀ c ∈ ((yearText y).toList ++ rest).head?, Text.isBlank c = false := by
  rcases toList_yearText y with ⟨-, -, htext⟩ | ⟨-, htext⟩ | ⟨-, htext⟩
  · obtain ⟨c, tail, hzeros, hdigit⟩ := head?_zeros_append 4 y.toNat rest
    rw [htext, hzeros]
    simpa using isBlank_of_isDigit hdigit
  · rw [htext]
    simp [Text.isBlank]
  · rw [htext]
    simp [Text.isBlank]

theorem takes_year {y : Int} (h : minYear ≤ y ∧ y ≤ maxYear) :
    Takes year ((yearText y).toList ++ '-' :: rest) y ('-' :: rest) := by
  have hsize : Int32.minValue.toInt ≤ y ∧ y ≤ Int32.maxValue.toInt := by
    have hlow : Int32.minValue.toInt ≤ minYear := by decide
    have hhigh : maxYear ≤ Int32.maxValue.toInt := by decide
    omega
  have hbound : y.natAbs < numeralBound := by
    have hlarge : numeralBound = 2 ^ 63 := rfl
    simp only [minYear, maxYear] at h
    omega
  refine takes_bind.mpr ⟨(), _, takes_blanks head?_yearText_append, takes_bind.mpr ⟨_, _,
    takes_signed hbound, ?_⟩⟩
  rw [if_pos hsize]
  exact takes_pure.mpr ⟨rfl, rfl⟩

theorem takes_date {y : Int} {m d : Nat} (hy : minYear ≤ y ∧ y ≤ maxYear) (hm : 1 ≤ m ∧ m ≤ 12)
    (hd : 1 ≤ d ∧ d ≤ 31) :
    Takes Reader.date ((yearText y).toList
      ++ '-' :: ((zeros 2 m).toList ++ '-' :: ((zeros 2 d).toList ++ rest))) ⟨y, m, d⟩ rest := by
  have hdash : Text.isBlank '-' = false := rfl
  exact takes_bind.mpr ⟨_, _, takes_year hy, takes_bind.mpr ⟨_, _, takes_separator hdash,
    takes_bind.mpr ⟨_, _, takes_number_zeros hm (by omega), takes_bind.mpr ⟨_, _,
      takes_separator hdash, takes_bind.mpr ⟨_, _, takes_number_zeros hd (by omega),
        takes_pure.mpr ⟨rfl, rfl⟩⟩⟩⟩⟩⟩

/-- A fraction of nine digits at most is filled up with zeros. -/
theorem takes_fraction_zeros {places m : Nat} (hplaces : 0 < places ∧ places ≤ 9)
    (h : n < 10 ^ places) (hm : n * 10 ^ (9 - places) = m)
    (hrest : ∀ c ∈ rest.head?, c.isDigit = false) :
    Takes fraction (("." ++ zeros places n).toList ++ rest) m rest := by
  have hlength := length_zeros hplaces.1 h
  have hsmall : n < numeralBound := by
    have hlarge : 10 ^ 9 < numeralBound := by decide
    exact Nat.lt_trans h (Nat.lt_of_le_of_lt (Nat.pow_le_pow_right (by decide) hplaces.2) hlarge)
  have hdigits : Takes (digits (some 9)) ((zeros places n).toList ++ rest)
      (zeros places n).toList rest := by
    refine takes_digits_iff.mpr ⟨?_, zeros_ne_nil, by rwa [ofDigitChars_zeros], List.drop_left⟩
    rw [frontDigits, takeWhile_append isDigit_zeros hrest]
    exact List.take_of_length_le (hlength.le.trans hplaces.2)
  rw [String.toList_append]
  refine takes_bind.mpr ⟨_, _, takes_get.mpr ⟨rfl, rfl⟩, takes_bind.mpr ⟨(), _, takes_set.mpr rfl,
    takes_bind.mpr ⟨_, _, hdigits, takes_bind.mpr ⟨(), _, takes_modify.mpr rfl,
      takes_pure.mpr ⟨?_, ?_⟩⟩⟩⟩⟩
  · rw [ofDigitChars_zeros, hlength]
    exact hm
  · exact dropWhile_append (List.forall_mem_nil _) hrest

/-- The digits of a fraction are as many as it needs, in groups of three. -/
theorem takes_shortFraction (t : Instant) :
    Takes fraction (t.shortFraction.toList ++ 'Z' :: rest) t.fraction ('Z' :: rest) := by
  have hlt : t.fraction < 1000000000 := Nat.mod_lt _ (by decide)
  have hrest : ∀ c ∈ ('Z' :: rest).head?, c.isDigit = false := by simp
  unfold Instant.shortFraction
  generalize t.fraction = n at hlt
  simp only
  split
  · rename_i hzero
    subst hzero
    exact takes_bind.mpr ⟨_, _, takes_get.mpr ⟨rfl, rfl⟩, takes_pure.mpr ⟨rfl, rfl⟩⟩
  · split
    · exact takes_fraction_zeros (by decide) (by omega) (by omega) hrest
    · split
      · exact takes_fraction_zeros (by decide) (by omega) (by omega) hrest
      · exact takes_fraction_zeros (by decide) hlt (Nat.mul_one n) hrest

/-- A time of day whose second is at most 60: that one is the one before it with a billion nanoseconds
more. -/
theorem takes_clock_zeros {hour minute second passed : Nat} (hhour : hour ≤ 23)
    (hminute : minute ≤ 59) (hsecond : second ≤ 60) (hpassed : Takes fraction cs passed rest) :
    Takes Reader.clock ((zeros 2 hour).toList ++ ':' :: ((zeros 2 minute).toList
        ++ ':' :: ((zeros 2 second).toList ++ cs)))
      (3600 * hour + 60 * minute + min second 59,
        if second = 60 then passed + nanosPerSecond else passed) rest := by
  have hcolon : Text.isBlank ':' = false := rfl
  refine takes_bind.mpr ⟨_, _, takes_number_zeros ⟨Nat.zero_le _, hhour⟩ (by omega),
    takes_bind.mpr ⟨_, _, takes_separator hcolon,
      takes_bind.mpr ⟨_, _, takes_number_zeros ⟨Nat.zero_le _, hminute⟩ (by omega),
        takes_bind.mpr ⟨_, _, takes_separator hcolon,
          takes_bind.mpr ⟨_, _, takes_number_zeros ⟨Nat.zero_le _, hsecond⟩ (by omega),
            takes_bind.mpr ⟨_, _, hpassed, ?_⟩⟩⟩⟩⟩⟩
  split
  · rename_i hleap
    subst hleap
    exact takes_pure.mpr ⟨rfl, rfl⟩
  · rename_i hplain
    rw [Nat.min_eq_left (by omega)]
    exact takes_pure.mpr ⟨rfl, rfl⟩

theorem takes_clockText {t : Instant} (h : t.Sound) :
    Takes Reader.clock (t.clock.toList ++ (t.shortFraction.toList ++ 'Z' :: rest)) (t.second, t.nano)
      ('Z' :: rest) := by
  have hsecond := h.second
  have hnano := h.nano
  have hleap := h.leap
  simp only [secondsPerDay, nanosPerSecond] at hsecond hnano hleap
  have htext : t.clock.toList ++ (t.shortFraction.toList ++ 'Z' :: rest)
      = (zeros 2 t.hour).toList ++ ':' :: ((zeros 2 t.minute).toList
        ++ ':' :: ((zeros 2 t.shownSecond).toList ++ (t.shortFraction.toList ++ 'Z' :: rest))) := by
    simp [Instant.clock, String.toList_append]
  have hclock : 3600 * t.hour + 60 * t.minute + min t.shownSecond 59 = t.second ∧
      (if t.shownSecond = 60 then t.fraction + nanosPerSecond else t.fraction) = t.nano := by
    by_cases hshown : t.shownSecond = 60
    all_goals
      simp only [hshown, if_true, if_false, Instant.hour, Instant.minute, Instant.fraction,
        nanosPerSecond]
      simp only [Instant.shownSecond, nanosPerSecond] at hshown ⊢
      omega
  rw [htext, ← hclock.1, ← hclock.2]
  apply takes_clock_zeros
  · simp only [Instant.hour]
    omega
  · simp only [Instant.minute]
    omega
  · simp only [Instant.shownSecond, nanosPerSecond]
    omega
  · exact takes_shortFraction t

theorem takes_dateEnd : Takes dateEnd ('T' :: rest) () rest := rfl

theorem takes_zone_utc : Takes zone ['Z'] 0 [] := rfl

end

/-- **What was read from any text is read again from what is written for it.** -/
theorem Instant.read_rfc3339 {t : Instant} (h : t.Sound) : Instant.read t.rfc3339 = .ok t := by
  have hcalendar : t.date.InCalendar := Date.inCalendar_ofNumber t.day
  have htext : t.rfc3339.toList = (yearText t.date.year).toList
      ++ '-' :: ((zeros 2 t.date.month).toList ++ '-' :: ((zeros 2 t.date.day).toList
        ++ 'T' :: (t.clock.toList ++ (t.shortFraction.toList ++ ['Z'])))) := by
    simp [Instant.rfc3339, Instant.dateAndClock, String.toList_append]
  have hlocal : Instant.ofLocal t.date t.second t.nano 0 = .ok t := by
    have hsecond : t.second < 86400 := h.second
    have hnumber : t.date.number = t.day := Date.number_ofNumber t.day
    refine Instant.ofLocal_eq_ok_iff.mpr ⟨⟨Date.isValid_iff.mpr hcalendar, h.year⟩,
      by decide, h.year, ?_⟩
    have hday : t.date.number + ((t.second : Int) - 0) / secondsPerDay = t.day := by
      simp only [secondsPerDay]
      omega
    have hrest : (((t.second : Int) - 0) % secondsPerDay).toNat = t.second := by
      simp only [secondsPerDay]
      omega
    rw [hday, hrest]
  rw [Instant.read_eq_ok_iff, htext]
  exact ⟨t.date, t.second, t.nano, 0, _, _, _, _, takes_date h.year hcalendar.month
    hcalendar.day_range, takes_dateEnd, takes_clockText h, takes_zone_utc, takes_blanks (by simp),
    hlocal⟩

end AccessLog.Time
