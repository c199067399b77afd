/-!
# Text: letter case, byte counts, decimal numerals

Templates, names and values are `String`s; the rules that take them apart are stated on
their lists of characters. This module holds what several of those rules share.

Letter case is ASCII case throughout: names are compared letter by letter, and a character
outside ASCII is equal to itself only. Offsets that are shown to a reader count the bytes of
the UTF-8 form, while limits on values count characters, so both measures are here.
-/

set_option autoImplicit false

namespace AccessLog.Text

/-! ## Letter case -/

/-- Writes the ASCII letters of a text in lower case and leaves all else alone. -/
def lower (s : String) : String := String.ofList (s.toList.map Char.toLower)

/-- Writes the ASCII letters of a text in upper case and leaves all else alone. -/
def upper (s : String) : String := String.ofList (s.toList.map Char.toUpper)

/-- Two names are the same up to the case of their ASCII letters. -/
def sameUpToCase (a b : String) : Bool := lower a == lower b

/-! ## Byte counts -/

/-- The number of bytes in the UTF-8 form of a list of characters. -/
def byteSize : List Char → Nat
  | [] => 0
  | c :: cs => c.utf8Size + byteSize cs

/-- Cuts a list of characters after its first `n` bytes. There is no such cut when `n` falls
inside a character or beyond the end. -/
def splitAtByte : Nat → List Char → Option (List Char × List Char)
  | 0, cs => some ([], cs)
  | _ + 1, [] => none
  | n + 1, c :: cs =>
    if c.utf8Size ≤ n + 1 then
      (splitAtByte (n + 1 - c.utf8Size) cs).map fun (front, back) => (c :: front, back)
    else none
termination_by _ cs => cs.length

@[simp] theorem byteSize_nil : byteSize [] = 0 := rfl

@[simp] theorem byteSize_cons (c : Char) (cs : List Char) :
    byteSize (c :: cs) = c.utf8Size + byteSize cs := rfl

@[simp] theorem byteSize_append (xs ys : List Char) :
    byteSize (xs ++ ys) = byteSize xs + byteSize ys := by
  induction xs with
  | nil => simp
  | cons c cs ih => simp [ih, Nat.add_assoc]

/-- The bytes of a text are those of its characters. -/
theorem byteSize_toList (s : String) : byteSize s.toList = s.utf8ByteSize := by
  have hlist : ∀ cs : List Char, byteSize cs = (String.ofList cs).utf8ByteSize := by
    intro cs
    induction cs with
    | nil => rfl
    | cons c cs ih =>
      rw [byteSize_cons, ih, ← String.utf8ByteSize_singleton, ← String.utf8ByteSize_append,
        String.singleton_eq_ofList, ← String.ofList_append]
      rfl
  rw [hlist, String.ofList_toList]

/-- Cutting after the bytes of a front part gives back the two parts. -/
theorem splitAtByte_append (xs ys : List Char) :
    splitAtByte (byteSize xs) (xs ++ ys) = some (xs, ys) := by
  induction xs with
  | nil => simp [splitAtByte]
  | cons c cs ih =>
    have hc : 0 < c.utf8Size := Char.utf8Size_pos c
    obtain ⟨n, hn⟩ : ∃ n, byteSize (c :: cs) = n + 1 :=
      ⟨byteSize (c :: cs) - 1, by simp only [byteSize_cons]; omega⟩
    have hle : c.utf8Size ≤ n + 1 := by rw [← hn]; simp
    have hrest : n + 1 - c.utf8Size = byteSize cs := by rw [← hn]; simp
    rw [hn, List.cons_append, splitAtByte, if_pos hle, hrest, ih]
    rfl

/-! ## Decimal numerals -/

/-- The decimal numeral of a natural number, without leading zeros. -/
def decimal (n : Nat) : String := String.ofList (Nat.toDigits 10 n)

/-- The decimal numeral of an integer; only negative ones carry a sign. -/
def signedDecimal : Int → String
  | .ofNat n => decimal n
  | .negSucc n => "-" ++ decimal (n + 1)

/-- The numeral of an integer is its usual one, in base ten and with its sign. -/
theorem signedDecimal_eq_toString (n : Int) : signedDecimal n = toString n := by
  cases n with
  | ofNat n => rfl
  | negSucc n => rfl

/-- The value of one or more ASCII digits, leading zeros allowed; nothing else is a numeral. -/
def natural? (cs : List Char) : Option Nat :=
  if !cs.isEmpty && cs.all Char.isDigit then some (Nat.ofDigitChars 10 cs 0) else none

/-- Reading a numeral gives back the number it was written for. -/
theorem natural?_toDigits (n : Nat) : natural? (Nat.toDigits 10 n) = some n := by
  have hdigits : (Nat.toDigits 10 n).all Char.isDigit = true := by
    rw [List.all_eq_true]
    intro c hc
    exact Nat.isDigit_of_mem_toDigits (by decide) (by decide) hc
  have hne : (Nat.toDigits 10 n).isEmpty = false := by
    simp [Nat.toDigits_ne_nil]
  simp [natural?, hdigits, hne, Nat.ofDigitChars_toDigits]

/-- The value of a hexadecimal digit of either case. -/
def hexDigit? (c : Char) : Option Nat :=
  if c.isDigit then some (c.toNat - '0'.toNat)
  else if 'a' ≤ c ∧ c ≤ 'f' then some (c.toNat - 'a'.toNat + 10)
  else if 'A' ≤ c ∧ c ≤ 'F' then some (c.toNat - 'A'.toNat + 10)
  else none

/-- The value of a list of hexadecimal digits. -/
def hexNumber? (cs : List Char) : Option Nat :=
  cs.foldlM (fun n c => (hexDigit? c).map (16 * n + ·)) 0

/-! ## Columns -/

/-- Fills a text on the left with `fill` up to a width; a wider text stays whole. -/
def padLeft (width : Nat) (fill : Char) (s : String) : String :=
  String.ofList (List.replicate (width - s.toList.length) fill) ++ s

/-- Fills a text on the right with blanks up to a width; a wider text stays whole. -/
def padRight (width : Nat) (s : String) : String :=
  s ++ String.ofList (List.replicate (width - s.toList.length) ' ')

/-! ## Blanks -/

/-- The characters Unicode counts as white space. -/
def isBlank (c : Char) : Bool :=
  let n := c.toNat
  (0x9 ≤ n && n ≤ 0xD) || n == 0x20 || n == 0x85 || n == 0xA0 || n == 0x1680
    || (0x2000 ≤ n && n ≤ 0x200A) || n == 0x2028 || n == 0x2029 || n == 0x202F
    || n == 0x205F || n == 0x3000

end AccessLog.Text
