import AccessLog.Json.Writer
import AccessLog.Proofs.Json.Tree

/-!
# Compact JSON

What a value looks like in compact JSON, by the rules of the notation: one constructor for each kind
of value, one for each way to write a character, and rows of elements and members with commas
between them and nothing else. There is one compact text of a value, **and it is the one that is
written** (`Value.compact_iff`).

The numerals of doubles are not a matter of JSON and are taken from the double (`Binary64.text`).
-/

set_option autoImplicit false

namespace AccessLog.Json

variable {v : Value} {text : List Char}

/-! ## Strings -/

/-- The digits of base sixteen. -/
def hexDigits : List Char := "0123456789abcdef".toList

/-- A character as it stands in a string. -/
inductive Escaped : Char → List Char → Prop where
  | plain {c : Char} (hquote : c ≠ '"') (hslash : c ≠ '\\') (hhigh : 0x20 ≤ c.toNat) : Escaped c [c]
  | quote : Escaped '"' ['\\', '"']
  | backslash : Escaped '\\' ['\\', '\\']
  | backspace : Escaped '\x08' ['\\', 'b']
  | formFeed : Escaped '\x0c' ['\\', 'f']
  | newLine : Escaped '\n' ['\\', 'n']
  | carriageReturn : Escaped '\r' ['\\', 'r']
  | tab : Escaped '\t' ['\\', 't']
  /-- A control character without an escape of its own, by its number. -/
  | control {c high low : Char} (hlow : c.toNat < 0x20)
    (hother : c ∉ ['\x08', '\x0c', '\n', '\r', '\t'])
    (hfirst : hexDigits[c.toNat / 16]? = some high)
    (hsecond : hexDigits[c.toNat % 16]? = some low) : Escaped c ['\\', 'u', '0', '0', high, low]

/-- The characters of a string, one after the other. -/
inductive EscapedAll : List Char → List Char → Prop where
  | nil : EscapedAll [] []
  | cons {c : Char} {cs front rest : List Char} (h : Escaped c front) (hrest : EscapedAll cs rest) :
    EscapedAll (c :: cs) (front ++ rest)

/-- A string between quotes. -/
inductive Quoted : String → List Char → Prop where
  | mk {s : String} {text : List Char} (h : EscapedAll s.toList text) :
    Quoted s ('"' :: (text ++ ['"']))

/-! ## Values -/

mutual

/-- The compact text of a value. -/
inductive Value.Compact : Value → List Char → Prop where
  | null : Compact .null ['n', 'u', 'l', 'l']
  | true : Compact (.bool true) ['t', 'r', 'u', 'e']
  | false : Compact (.bool false) ['f', 'a', 'l', 's', 'e']
  | integer (n : Int) : Compact (.number (.int n)) (toString n).toList
  | double (x : Binary64) : Compact (.number (.float x)) x.text.toList
  | string {s : String} {text : List Char} (h : Quoted s text) : Compact (.string s) text
  | array {items : List Value} {text : List Char} (h : CompactItems items text) :
    Compact (.array items) ('[' :: (text ++ [']']))
  | object {members : List (String × Value)} {text : List Char} (h : CompactMembers members text) :
    Compact (.object members) ('{' :: (text ++ ['}']))

/-- The elements of an array with commas between them. -/
inductive Value.CompactItems : List Value → List Char → Prop where
  | none : CompactItems [] []
  | last {item : Value} {text : List Char} (h : Value.Compact item text) : CompactItems [item] text
  | next {item other : Value} {items : List Value} {text more : List Char}
    (h : Value.Compact item text) (hmore : CompactItems (other :: items) more) :
    CompactItems (item :: other :: items) (text ++ ',' :: more)

/-- The members of an object with commas between them, each under its name. -/
inductive Value.CompactMembers : List (String × Value) → List Char → Prop where
  | none : CompactMembers [] []
  | last {name : String} {member : Value} {quoted text : List Char} (hname : Quoted name quoted)
    (h : Value.Compact member text) : CompactMembers [(name, member)] (quoted ++ ':' :: text)
  | next {name : String} {member : Value} {other : String × Value} {members : List (String × Value)}
    {quoted text more : List Char} (hname : Quoted name quoted) (h : Value.Compact member text)
    (hmore : CompactMembers (other :: members) more) :
    CompactMembers ((name, member) :: other :: members) (quoted ++ ':' :: text ++ ',' :: more)

end

/-! ## What is written -/

theorem hexDigits_getElem? {d : Nat} (h : d < 16) : hexDigits[d]? = some d.digitChar := by
  revert d
  decide

theorem escapeChar_of_high {c : Char} (hquote : c ≠ '"') (hslash : c ≠ '\\')
    (hhigh : 0x20 ≤ c.toNat) : escapeChar c = [c] := by
  have hother : ∀ d : Char, d.toNat < 0x20 → c ≠ d := fun d hd heq => by
    subst heq
    omega
  simp only [escapeChar, hquote, hslash, if_false, if_neg (hother '\x08' (by decide)),
    if_neg (hother '\x0c' (by decide)), if_neg (hother '\n' (by decide)),
    if_neg (hother '\r' (by decide)), if_neg (hother '\t' (by decide)),
    if_neg (Nat.not_lt.mpr hhigh)]

theorem escapeChar_of_low {c : Char} (hlow : c.toNat < 0x20)
    (hother : c ∉ ['\x08', '\x0c', '\n', '\r', '\t']) : escapeChar c
      = ['\\', 'u', '0', '0', Nat.digitChar (c.toNat / 16), Nat.digitChar (c.toNat % 16)] := by
  have hhigh : ∀ d : Char, 0x20 ≤ d.toNat → c ≠ d := fun d hd heq => by
    subst heq
    omega
  simp only [List.mem_cons, List.not_mem_nil, or_false, not_or] at hother
  obtain ⟨hback, hfeed, hline, hreturn, htab⟩ := hother
  simp only [escapeChar, if_neg (hhigh '"' (by decide)), if_neg (hhigh '\\' (by decide)), hback,
    hfeed, hline, hreturn, htab, if_false, if_pos hlow]

/-- Every character is written in the one way there is. -/
theorem escaped_iff {c : Char} : Escaped c text ↔ text = escapeChar c := by
  constructor
  · intro h
    cases h with
    | plain hquote hslash hhigh => exact (escapeChar_of_high hquote hslash hhigh).symm
    | control hlow hother hfirst hsecond =>
      rw [hexDigits_getElem? (by omega), Option.some.injEq] at hfirst hsecond
      rw [escapeChar_of_low hlow hother, hfirst, hsecond]
    | quote | backslash | backspace | formFeed | newLine | carriageReturn | tab => rfl
  · rintro rfl
    by_cases hquote : c = '"'
    · subst hquote
      exact .quote
    by_cases hslash : c = '\\'
    · subst hslash
      exact .backslash
    rcases Nat.lt_or_ge c.toNat 0x20 with hlow | hhigh
    · by_cases hother : c ∈ ['\x08', '\x0c', '\n', '\r', '\t']
      · simp only [List.mem_cons, List.not_mem_nil, or_false] at hother
        rcases hother with rfl | rfl | rfl | rfl | rfl
        · exact .backspace
        · exact .formFeed
        · exact .newLine
        · exact .carriageReturn
        · exact .tab
      · rw [escapeChar_of_low hlow hother]
        exact .control hlow hother (hexDigits_getElem? (by omega)) (hexDigits_getElem? (by omega))
    · rw [escapeChar_of_high hquote hslash hhigh]
      exact .plain hquote hslash hhigh

theorem escapedAll_flatMap (cs : List Char) : EscapedAll cs (cs.flatMap escapeChar) := by
  induction cs with
  | nil => exact .nil
  | cons c cs ih => exact .cons (escaped_iff.mpr rfl) ih

theorem EscapedAll.eq_flatMap {cs : List Char} (h : EscapedAll cs text) :
    text = cs.flatMap escapeChar := by
  induction h with
  | nil => rfl
  | cons h _ ih => rw [escaped_iff.mp h, ih, List.flatMap_cons]

theorem quoted_quote (s : String) : Quoted s (quote s) := .mk (escapedAll_flatMap s.toList)

theorem Quoted.eq_quote {s : String} (h : Quoted s text) : text = quote s := by
  cases h with
  | mk h => rw [h.eq_flatMap, quote, List.cons_append]

namespace Value

open Json.Tree (ofValue ofItems ofMembers compactChars)

/-- Whether what is written for a value is a compact text of it. -/
abbrev IsWritten (v : Value) : Prop := Compact v (compactChars (ofValue v))

theorem compactItems_written {items : List Value} (h : ∀ item ∈ items, item.IsWritten) :
    CompactItems items (Tree.compactItems (ofItems items)) := by
  induction items with
  | nil => exact .none
  | cons item items ih =>
    obtain ⟨hitem, hitems⟩ := List.forall_mem_cons.mp h
    cases items with
    | nil => exact .last hitem
    | cons other items => exact .next hitem (ih hitems)

theorem compactMembers_written {members : List (String × Value)}
    (h : ∀ m ∈ members, m.2.IsWritten) :
    CompactMembers members (Tree.compactMembers (ofMembers members)) := by
  induction members with
  | nil => exact .none
  | cons m members ih =>
    obtain ⟨hmember, hmembers⟩ := List.forall_mem_cons.mp h
    cases members with
    | nil => exact .last (quoted_quote m.1) hmember
    | cons other members => exact .next (quoted_quote m.1) hmember (ih hmembers)

theorem compact_written (v : Value) : v.IsWritten := by
  induction v with
  | null => exact .null
  | bool b =>
    cases b with
    | true => exact .true
    | false => exact .false
  | number n =>
    cases n with
    | int n =>
      have hinteger := Compact.integer n
      rwa [← Text.signedDecimal_eq_toString] at hinteger
    | float x => exact .double x
  | string s => exact .string (quoted_quote s)
  | array items ih => exact .array (compactItems_written ih)
  | object members ih => exact .object (compactMembers_written ih)

/-- Whether a value has no other compact text. -/
abbrev OnlyWritten (v : Value) : Prop := ∀ ⦃text⦄, Compact v text → text = compactChars (ofValue v)

theorem CompactItems.eq_written {items : List Value} (h : CompactItems items text)
    (hall : ∀ item ∈ items, item.OnlyWritten) : text = Tree.compactItems (ofItems items) := by
  induction items generalizing text with
  | nil =>
    cases h
    rfl
  | cons item items ih =>
    obtain ⟨hitem, hitems⟩ := List.forall_mem_cons.mp hall
    cases h with
    | last h => exact hitem h
    | next h hmore =>
      rw [hitem h, ih hmore hitems]
      rfl

theorem CompactMembers.eq_written {members : List (String × Value)}
    (h : CompactMembers members text) (hall : ∀ m ∈ members, m.2.OnlyWritten) :
    text = Tree.compactMembers (ofMembers members) := by
  induction members generalizing text with
  | nil =>
    cases h
    rfl
  | cons m members ih =>
    obtain ⟨hmember, hmembers⟩ := List.forall_mem_cons.mp hall
    cases h with
    | last hname h =>
      rw [hname.eq_quote, hmember h]
      rfl
    | next hname h hmore =>
      rw [hname.eq_quote, hmember h, ih hmore hmembers]
      rfl

theorem compact_only_written (v : Value) : v.OnlyWritten := by
  induction v with
  | null | bool _ =>
    intro text h
    cases h <;> rfl
  | number n =>
    intro text h
    cases h with
    | integer n =>
      rw [← Text.signedDecimal_eq_toString]
      rfl
    | double x => rfl
  | string s =>
    intro text h
    cases h with
    | string h => exact h.eq_quote
  | array items ih =>
    intro text h
    cases h with
    | array h =>
      rw [h.eq_written ih]
      rfl
  | object members ih =>
    intro text h
    cases h with
    | object h =>
      rw [h.eq_written ih]
      rfl

/-- **The text that is written is the compact text of a value**, and there is no other. -/
theorem compact_iff {text : String} : v.Compact text.toList ↔ v.compact = text := by
  constructor
  · intro h
    rw [compact, Tree.compact, ← compact_only_written v h, String.ofList_toList]
  · rintro rfl
    rw [compact, Tree.compact, String.toList_ofList]
    exact compact_written v

end Value

end AccessLog.Json
