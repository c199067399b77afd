import AccessLog.Proofs.Numeral
import AccessLog.Text.Quoted

/-!
# Quoted texts are told apart

A quoted text says where it ends and what it stands for, whatever is written behind it
(`quoted_append_inj`). It takes one character at a time to see that: **a character is read back from
its quoted form** (`quotedChar?_quoteChar`), be it written as it is, with a backslash, or by its
number, and none is written with a bare quote in front. Which characters are hidden plays no part.

Nor does a quoted text hold an end of a line, so it stays on the line it is written on.
-/

set_option autoImplicit false

namespace AccessLog.Text

/-! ## Hexadecimal numerals -/

theorem hexDigit?_digitChar {d : Nat} (h : d < 16) : hexDigit? (Nat.digitChar d) = some d := by
  interval_cases d <;> rfl

/-- Reading a hexadecimal numeral gives back the number it was written for. -/
theorem hexNumber?_toDigits (n : Nat) : hexNumber? (Nat.toDigits 16 n) = some n := by
  induction n using Nat.strongRecOn with
  | ind n ih =>
    rw [Nat.toDigits_eq_if (by decide)]
    split
    · rename_i hlt
      simp [hexNumber?, hexDigit?_digitChar hlt]
    · rename_i hge
      have hlast : n % 16 < 16 := Nat.mod_lt _ (by decide)
      have hfront : hexNumber? (Nat.toDigits 16 (n / 16)) = some (n / 16) :=
        ih (n / 16) (Nat.div_lt_self (by omega) (by decide))
      rw [hexNumber?] at hfront ⊢
      rw [List.foldlM_append, hfront]
      simp [hexDigit?_digitChar hlast, Nat.div_add_mod]

/-- What stands in a hexadecimal numeral are digits. -/
theorem exists_hexDigit? {n : Nat} {c : Char} (h : c ∈ Nat.toDigits 16 n) :
    ∃ d, hexDigit? c = some d := by
  induction n using Nat.strongRecOn with
  | ind n ih =>
    rw [Nat.toDigits_eq_if (by decide)] at h
    split at h
    · rename_i hlt
      obtain rfl := List.mem_singleton.mp h
      exact ⟨n, hexDigit?_digitChar hlt⟩
    · rename_i hge
      rcases List.mem_append.mp h with hfront | hlast
      · exact ih (n / 16) (Nat.div_lt_self (by omega) (by decide)) hfront
      · obtain rfl := List.mem_singleton.mp hlast
        exact ⟨n % 16, hexDigit?_digitChar (Nat.mod_lt _ (by decide))⟩

/-! ## Characters -/

/-- The character that a text between quotes begins with, and what follows its quoted form. -/
def quotedChar? : List Char → Option (Char × List Char)
  | '\\' :: 'u' :: '{' :: cs =>
    (hexNumber? (cs.takeWhile (· != '}'))).map fun n =>
      (Char.ofNat n, (cs.dropWhile (· != '}')).drop 1)
  | '\\' :: '0' :: cs => some ('\x00', cs)
  | '\\' :: 't' :: cs => some ('\t', cs)
  | '\\' :: 'n' :: cs => some ('\n', cs)
  | '\\' :: 'r' :: cs => some ('\r', cs)
  | '\\' :: '"' :: cs => some ('"', cs)
  | '\\' :: '\\' :: cs => some ('\\', cs)
  | '\\' :: _ => none
  | '"' :: _ => none
  | c :: cs => some (c, cs)
  | [] => none

theorem quotedChar?_number (c : Char) (rest : List Char) :
    quotedChar? ('\\' :: 'u' :: '{' :: (Nat.toDigits 16 c.toNat ++ '}' :: rest))
      = some (c, rest) := by
  have hdigits : ∀ d ∈ Nat.toDigits 16 c.toNat, (d != '}') = true := by
    intro d hd
    obtain ⟨m, hm⟩ := exists_hexDigit? hd
    rw [bne_iff_ne]
    rintro rfl
    cases hm
  have hbrace : ∀ d ∈ ('}' :: rest).head?, (d != '}') = false := by simp
  rw [quotedChar?, takeWhile_append hdigits hbrace, dropWhile_append hdigits hbrace,
    hexNumber?_toDigits, Option.map_some, Char.ofNat_toNat]
  rfl

/-- The characters that are quoted by a backslash and a letter or a mark. -/
def shortQuotes : List Char := ['\x00', '\t', '\n', '\r', '"', '\\']

/-- Every other character is given by its number or stands for itself. -/
theorem quoteChar_of_not_short {c : Char} (h : c ∉ shortQuotes) :
    quoteChar c = '\\' :: 'u' :: '{' :: (Nat.toDigits 16 c.toNat ++ ['}']) ∨ quoteChar c = [c] := by
  simp only [shortQuotes, List.mem_cons, List.not_mem_nil, or_false, not_or] at h
  obtain ⟨hzero, htab, hline, hreturn, hquote, hslash⟩ := h
  simp only [quoteChar, hzero, htab, hline, hreturn, hquote, hslash, if_false]
  split
  · exact .inl rfl
  · exact .inr rfl

/-- **A character is read back from its quoted form.** -/
theorem quotedChar?_quoteChar (c : Char) (rest : List Char) :
    quotedChar? (quoteChar c ++ rest) = some (c, rest) := by
  by_cases hshort : c ∈ shortQuotes
  · simp only [shortQuotes, List.mem_cons, List.not_mem_nil, or_false] at hshort
    rcases hshort with rfl | rfl | rfl | rfl | rfl | rfl <;> rfl
  · rcases quoteChar_of_not_short hshort with hnumber | hself
    · rw [hnumber]
      simpa using quotedChar?_number c rest
    · have hquote : c ≠ '"' := fun heq => hshort (heq ▸ by decide)
      have hslash : c ≠ '\\' := fun heq => hshort (heq ▸ by decide)
      rw [hself, List.singleton_append]
      simp [quotedChar?, hslash]

/-- No character has a quoted form with a line feed in it. -/
theorem no_line_feed_quoteChar (c : Char) : '\n' ∉ quoteChar c := by
  by_cases hshort : c ∈ shortQuotes
  · simp only [shortQuotes, List.mem_cons, List.not_mem_nil, or_false] at hshort
    rcases hshort with rfl | rfl | rfl | rfl | rfl | rfl <;> decide
  · rcases quoteChar_of_not_short hshort with hnumber | hself
    · have hdigits : '\n' ∉ Nat.toDigits 16 c.toNat := by
        intro hmem
        obtain ⟨d, hd⟩ := exists_hexDigit? hmem
        cases hd
      simp [hnumber, hdigits]
    · rw [hself, List.mem_singleton]
      rintro rfl
      exact hshort (by decide)

/-! ## Texts -/

theorem flatMap_quoteChar_inj {cs ds rest rest' : List Char}
    (h : cs.flatMap quoteChar ++ '"' :: rest = ds.flatMap quoteChar ++ '"' :: rest') :
    cs = ds ∧ rest = rest' := by
  -- the next character is read from both sides; at the quote that ends a text there is none
  have hnext := congrArg quotedChar? h
  induction cs generalizing ds with
  | nil =>
    cases ds with
    | nil => exact ⟨rfl, (List.cons.inj h).2⟩
    | cons d ds =>
      rw [List.flatMap_cons, List.append_assoc, quotedChar?_quoteChar] at hnext
      cases hnext
  | cons c cs ih =>
    rw [List.flatMap_cons, List.append_assoc, quotedChar?_quoteChar] at hnext
    cases ds with
    | nil => cases hnext
    | cons d ds =>
      rw [List.flatMap_cons, List.append_assoc, quotedChar?_quoteChar] at hnext
      obtain ⟨rfl, hmore⟩ := Prod.mk.inj (Option.some.inj hnext)
      obtain ⟨rfl, heq⟩ := ih hmore (congrArg quotedChar? hmore)
      exact ⟨rfl, heq⟩

/-- **A quoted text tells what it stands for and where it ends.** -/
theorem quoted_append_inj {s t : String} {rest rest' : List Char}
    (h : (quoted s).toList ++ rest = (quoted t).toList ++ rest') : s = t ∧ rest = rest' := by
  simp only [quoted, String.toList_ofList, List.cons_append, List.append_assoc, List.nil_append,
    List.cons.injEq, true_and] at h
  obtain ⟨hchars, heq⟩ := flatMap_quoteChar_inj h
  exact ⟨String.toList_inj.mp hchars, heq⟩

theorem no_line_feed_quoted (s : String) : '\n' ∉ (quoted s).toList := by
  simp [quoted, no_line_feed_quoteChar]

end AccessLog.Text
