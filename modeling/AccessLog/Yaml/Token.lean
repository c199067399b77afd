import AccessLog.Yaml.Scalar

/-!
# YAML tokens

A document as a list of tokens: the marks that give it its shape, and the scalars between them.
Of collections, only mappings have tokens here. A text with the sign of a sequence, or with
braces inside braces, is refused, as is every text that cannot be divided into tokens.

Whether a scalar is a key shows only when the colon after it is reached. Until then its place is
remembered (`Key`), and the colon puts the token for the key there. Such a key has to be on one
line and may not be long.
-/

set_option autoImplicit false

namespace AccessLog.Yaml

open Cursor (Progress)

/-- A token of a document. -/
inductive Token where
  /-- The directive that names the version of the language. -/
  | version (major minor : Nat)
  /-- The directive that introduces a handle for tags. -/
  | handle (name : String)
  | documentStart
  | documentEnd
  /-- The start of a mapping that is laid out by indentation. -/
  | blockStart
  | blockEnd
  /-- The opening brace. -/
  | flowStart
  | flowEnd
  /-- The comma between the entries in braces. -/
  | comma
  | key
  | value
  | anchor (name : String)
  | alias (name : String)
  /-- A tag; only its handle matters. -/
  | tag (handle : String)
  | scalar (text : String)
  deriving DecidableEq, Repr

namespace Token

/-! ## Names, tags and directives -/

/-- Whether the name of an anchor may end here. -/
def endsAnchor : List Char → Bool
  | [] => true
  | c :: _ => isWhite c || c ∈ ['?', ':', ',', ']', '}', '%', '@', '\x60']

/-- Reads the name of an anchor, its sign being next. -/
def anchor? (c : Cursor) : Option (String × Cursor) :=
  let (name, c) := c.next.run isNameChar
  if name.isEmpty || !endsAnchor c.rest then none else some (String.ofList name, c)

/-- Characters of a tag that stand for themselves. -/
def isTagChar (verbatim : Bool) (c : Char) : Bool :=
  isNameChar c
    || c ∈ [';', '/', '?', ':', '@', '&', '=', '+', '$', '.', '!', '~', '*', '\x27', '(', ')']
    || verbatim && c ∈ [',', '[', ']']

/-- The number of characters a byte is written with: a percent sign and two digits. -/
def octetSize : Nat := 3

/-- The byte that is written at the front of a text. -/
def octet? : List Char → Option Nat
  | '%' :: a :: b :: _ => Text.hexNumber? [a, b]
  | _ => none

/-- The number of bytes in the sequence that starts with a byte. -/
def sequenceLength? (byte : Nat) : Option Nat :=
  if byte < 0x80 then some 1
  else if byte < 0xC0 then none
  else if byte < 0xE0 then some 2
  else if byte < 0xF0 then some 3
  else if byte < 0xF8 then some 4
  else none

/-- Whether a text goes on with a number of bytes that continue a sequence. -/
def hasTrailing : Nat → List Char → Bool
  | 0, _ => true
  | n + 1, cs => (octet? cs).any (· / 0x40 == 2) && hasTrailing n (cs.drop octetSize)

/-- Skips a character that is written byte by byte. -/
def skipEscape? (c : Cursor) : Option Cursor := do
  let count ← sequenceLength? (← octet? c.rest)
  if hasTrailing (count - 1) (c.rest.drop octetSize) then some (c.skip (octetSize * count))
  else none

/-- Reads on over one character of a tag; the state is whether there was any before it. -/
def tagStep (verbatim : Bool) (found : Bool) (c : Cursor) : Option (Progress Bool Bool) :=
  match c.rest with
  | '%' :: _ => do return .more true (← skipEscape? c)
  | x :: _ => if isTagChar verbatim x then some (.more true c.next) else some (.done found c)
  | [] => some (.done found c)

/-- Skips the characters of a tag. There has to be one of them, unless some were read before. -/
def skipTag? (verbatim found : Bool) (c : Cursor) : Option Cursor := do
  let (found, c) ← c.repeatStep (tagStep verbatim) found
  if found then some c else none

/-- Reads a handle: an exclamation mark, a name and, unless it is missing, another mark. -/
def handle? (c : Cursor) : Option (String × Cursor) :=
  match c.rest with
  | '!' :: _ =>
    let (name, c) := c.next.run isNameChar
    if c.rest.head? == some '!' then some (String.ofList ('!' :: name ++ ['!']), c.next)
    else some (String.ofList ('!' :: name), c)
  | _ => none

/-- Whether a handle is closed by a mark of its own. -/
def isClosed (handle : String) : Bool :=
  1 < handle.toList.length && handle.toList.getLast? == some '!'

/-- Reads a tag between angle brackets, its mark being next. It needs no handle. -/
def verbatimTag? (c : Cursor) : Option (String × Cursor) := do
  let c ← skipTag? true false (c.skip 2)
  if c.rest.head? == some '>' then some ("", c.next) else none

/-- Reads a tag behind a handle or by itself, its mark being next. A mark with nothing behind it
needs no handle. -/
def shorthandTag? (c : Cursor) : Option (String × Cursor) := do
  let (name, after) ← handle? c
  if isClosed name then return (name, ← skipTag? false false after)
  let c ← skipTag? false true after
  return (if name == "!" && c.index == after.index then "" else "!", c)

/-- Reads a tag, its mark being next, and gives its handle; the empty one if it needs none. -/
def tag? (flow : Bool) (c : Cursor) : Option (String × Cursor) := do
  let (used, c) ← if c.rest.take 2 == ['!', '<'] then verbatimTag? c else shorthandTag? c
  if endsWord c.rest || flow && c.rest.head? == some ',' then some (used, c) else none

/-- Reads a number of at most nine digits. -/
def number? (c : Cursor) : Option (Nat × Cursor) := do
  let (digits, c) := c.run Char.isDigit
  if 9 < digits.length then none else return (← Text.natural? digits, c)

def version? (c : Cursor) : Option (Token × Cursor) := do
  let (major, c) ← number? c
  if c.rest.head? != some '.' then none
  let (minor, c) ← number? c.next
  return (.version major minor, c)

/-- Reads a handle and what it stands for. -/
def introduced? (c : Cursor) : Option (Token × Cursor) := do
  let (name, c) ← handle? c
  if !(name == "!" || isClosed name) || !c.rest.head?.any isBlank then none
  let c ← skipTag? true false (c.skipWhile isBlank)
  if endsWord c.rest then some (.handle name, c) else none

/-- Reads a directive, its percent sign being next, with the end of its line. -/
def directive? (c : Cursor) : Option (Token × Cursor) := do
  let (name, c) := c.next.run isNameChar
  if !endsWord c.rest then none
  let read := match String.ofList name with
    | "YAML" => version?
    | "TAG" => introduced?
    | _ => fun _ => none
  let (token, c) ← read (c.skipWhile isBlank)
  return (token, ← c.endLine?)

end Token

/-! ## Scanning -/

/-- A place where a key may have begun. -/
structure Key where
  /-- Whether it has to be a key, for its line begins where the keys of a mapping do. -/
  required : Bool
  /-- The number of tokens before it. -/
  position : Nat
  /-- Where it is in the text. -/
  place : Cursor

/-- The most characters between the start of a key and the colon after it. -/
def Key.longest : Nat := 1024

/-- Whether a key that began here can still be one at a cursor. -/
def Key.isFresh (k : Key) (c : Cursor) : Bool :=
  k.place.line == c.line && c.index ≤ k.place.index + longest

/-- The state between two tokens. -/
structure Scanner where
  /-- The tokens so far, the last one first. -/
  tokens : List Token := []
  /-- The columns of the open mappings, the innermost first. -/
  levels : List Nat := []
  /-- Whether this is between braces. -/
  flow : Bool := false
  /-- Whether a key may begin here. -/
  keyAllowed : Bool := true
  key : Option Key := none
  /-- A key that may have begun before the braces. -/
  outerKey : Option Key := none

namespace Scanner

def emit (s : Scanner) (t : Token) : Scanner := { s with tokens := t :: s.tokens }

/-- Adds a token behind the first `position` tokens. -/
def insert (s : Scanner) (position : Nat) (t : Token) : Scanner :=
  let later := s.tokens.length - position
  { s with tokens := s.tokens.take later ++ t :: s.tokens.drop later }

/-- The column from which the text of a scalar has to begin. -/
def margin (s : Scanner) : Nat := s.levels.head?.elim 0 (· + 1)

def dropKey? (s : Scanner) : Option Scanner :=
  if s.key.any (·.required) then none else some { s with key := none }

/-- Remembers that a key may begin here. -/
def saveKey? (s : Scanner) (c : Cursor) : Option Scanner :=
  if s.keyAllowed then do
    let s ← s.dropKey?
    let required := !s.flow && s.levels.head? == some c.column
    return { s with key := some ⟨required, s.tokens.length, c⟩ }
  else some s

/-- Gives up keys that began too long ago. -/
def dropStale? (s : Scanner) (c : Cursor) : Option Scanner :=
  let keep (k : Option Key) : Option (Option Key) :=
    match k with
    | some k => if k.isFresh c then some (some k) else if k.required then none else some none
    | none => some none
  do return { s with key := ← keep s.key, outerKey := ← keep s.outerKey }

/-- Closes the mappings that a property of their columns picks out, up to the first other one. -/
def close (s : Scanner) (p : Nat → Bool) : Scanner :=
  if s.flow then s
  else
    let closed := s.levels.takeWhile p
    { s with
      levels := s.levels.dropWhile p
      tokens := List.replicate closed.length .blockEnd ++ s.tokens }

/-- Opens a mapping at a column, unless one is open there; its start goes behind the first
`position` tokens. -/
def openAt (s : Scanner) (column position : Nat) : Scanner :=
  if s.flow || s.levels.head?.any (column ≤ ·) then s
  else { s.insert position .blockStart with levels := column :: s.levels }

/-- One piece of what stands between tokens; the state is whether a key may begin after it. -/
def skipStep (flow : Bool) (keyAllowed : Bool) (c : Cursor) : Option (Progress Bool Bool) :=
  let c := if c.column == 0 && c.rest.head? == some byteOrderMark then c.next else c
  let c := c.skipWhile fun x => x == ' ' || x == '\t' && (flow || !keyAllowed)
  let c := if c.rest.head? == some '#' then c.skipWhile (!isBreak ·) else c
  if c.rest.head?.any isBreak then some (.more (keyAllowed || !flow) c.next)
  else some (.done keyAllowed c)

/-- Skips what stands between tokens: blanks, comments and ends of lines, and the mark of an
encoding at the start of a line. -/
def skip? (s : Scanner) (c : Cursor) : Option (Scanner × Cursor) := do
  let (keyAllowed, c) ← c.repeatStep (skipStep s.flow) s.keyAllowed
  return ({ s with keyAllowed }, c)

/-! Each of the following takes the token that begins at the cursor. -/

/-- Takes the mark of the start or the end of a document. -/
def documentMark? (s : Scanner) (t : Token) (c : Cursor) : Option (Scanner × Cursor) := do
  let s ← (s.close fun _ => true).dropKey?
  return ({ s with keyAllowed := false }.emit t, c.skip 3)

def directive? (s : Scanner) (c : Cursor) : Option (Scanner × Cursor) := do
  let s ← (s.close fun _ => true).dropKey?
  let (t, c) ← Token.directive? c
  return ({ s with keyAllowed := false }.emit t, c)

/-- Takes an opening brace. -/
def flowStart? (s : Scanner) (c : Cursor) : Option (Scanner × Cursor) := do
  if s.flow then none
  let s ← s.saveKey? c
  return ({ s with flow := true, keyAllowed := true, outerKey := s.key, key := none }.emit
    .flowStart, c.next)

/-- Takes a closing brace. -/
def flowEnd? (s : Scanner) (c : Cursor) : Option (Scanner × Cursor) := do
  if !s.flow then none
  let s ← s.dropKey?
  return ({ s with flow := false, keyAllowed := false, key := s.outerKey, outerKey := none }.emit
    .flowEnd, c.next)

def comma? (s : Scanner) (c : Cursor) : Option (Scanner × Cursor) := do
  if !s.flow then none
  let s ← s.dropKey?
  return ({ s with keyAllowed := true }.emit .comma, c.next)

/-- Takes a question mark. -/
def key? (s : Scanner) (c : Cursor) : Option (Scanner × Cursor) := do
  if !s.flow && !s.keyAllowed then none
  let s ← (s.openAt c.column s.tokens.length).dropKey?
  return ({ s with keyAllowed := !s.flow }.emit .key, c.next)

/-- Takes a colon, and with it the key before it, if there is one. -/
def value? (s : Scanner) (c : Cursor) : Option (Scanner × Cursor) := do
  match s.key with
  | some k =>
    let s := (s.insert k.position .key).openAt k.place.column k.position
    return ({ s with key := none, keyAllowed := false }.emit .value, c.next)
  | none =>
    if !s.flow && !s.keyAllowed then none
    let s := s.openAt c.column s.tokens.length
    return ({ s with keyAllowed := !s.flow }.emit .value, c.next)

/-- Takes a token that may begin a key. -/
def node? (s : Scanner) (c : Cursor) (read : Cursor → Option (Token × Cursor)) :
    Option (Scanner × Cursor) := do
  let s ← s.saveKey? c
  let (t, c) ← read c
  return ({ s with keyAllowed := false }.emit t, c)

def block? (s : Scanner) (folded : Bool) (c : Cursor) : Option (Scanner × Cursor) := do
  let s ← s.dropKey?
  let (text, c) ← Block.read? folded s.levels.head? c
  return ({ s with keyAllowed := true }.emit (.scalar (String.ofList text)), c)

def quoted? (s : Scanner) (mark : Quoted.Mark) (c : Cursor) : Option (Scanner × Cursor) :=
  s.node? c fun c => do
    let (text, c) ← Quoted.read? mark c
    return (.scalar (String.ofList text), c)

/-- Takes a plain scalar. A key may begin after it if a new line was begun. -/
def plain? (s : Scanner) (c : Cursor) : Option (Scanner × Cursor) := do
  let s ← s.saveKey? c
  let (result, c) ← Plain.read? s.flow s.margin c
  return ({ s with keyAllowed := result.newLine }.emit (.scalar (String.ofList result.text)), c)

/-- Characters that cannot begin a plain scalar, or only with certain others after them. -/
def isIndicator (c : Char) : Bool :=
  c ∈ ['-', '?', ':', ',', '[', ']', '{', '}', '#', '&', '*', '!', '|', '>', '\x27', '"', '%', '@',
    '\x60']

/-- Whether a plain scalar may begin with a text. -/
def beginsPlain (flow : Bool) : List Char → Bool
  | [] => false
  | x :: rest =>
    !isWhite x && !isIndicator x
      || x == '-' && !rest.head?.any isBlank
      || !flow && (x == '?' || x == ':') && !endsWord rest

/-- Takes the token that begins with `x`. -/
def token? (s : Scanner) (c : Cursor) (x : Char) (rest : List Char) : Option (Scanner × Cursor) :=
  if c.column == 0 && x == '%' then s.directive? c
  else if c.atMark '-' then s.documentMark? .documentStart c
  else if c.atMark '.' then s.documentMark? .documentEnd c
  else if x == '{' then s.flowStart? c
  else if x == '}' then s.flowEnd? c
  else if x == ',' then s.comma? c
  else if x == '-' && endsWord rest then none
  else if x == '?' && (s.flow || endsWord rest) then s.key? c
  else if x == ':' && (s.flow || endsWord rest) then s.value? c
  else if x == '*' then s.node? c fun c => do
    let (name, c) ← Token.anchor? c
    return (.alias name, c)
  else if x == '&' then s.node? c fun c => do
    let (name, c) ← Token.anchor? c
    return (.anchor name, c)
  else if x == '!' then s.node? c fun c => do
    let (handle, c) ← Token.tag? s.flow c
    return (.tag handle, c)
  else if x == '|' && !s.flow then s.block? false c
  else if x == '>' && !s.flow then s.block? true c
  else if x == '\x27' then s.quoted? .single c
  else if x == '"' then s.quoted? .double c
  else if beginsPlain s.flow (x :: rest) then s.plain? c
  else none

/-- Takes the next token, or closes what is open at the end of the text. -/
def step (s : Scanner) (c : Cursor) : Option (Progress Scanner (List Token)) := do
  let (s, c) ← s.skip? c
  let s ← s.dropStale? c
  let s := s.close (c.column < ·)
  match c.rest with
  | [] =>
    let s ← (s.close fun _ => true).dropKey?
    return .done s.tokens.reverse c
  | x :: rest =>
    let (s, c) ← s.token? c x rest
    return .more s c

end Scanner

def tokens? (source : String) : Option (List Token) :=
  let cs := source.toList
  if cs.all isAllowed then (Cursor.repeatStep Scanner.step {} { rest := normalize cs }).map (·.1)
  else none

end AccessLog.Yaml
