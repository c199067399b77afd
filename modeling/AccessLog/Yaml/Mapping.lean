import AccessLog.Yaml.Token

/-!
# YAML mappings of texts

The one kind of document that is read here: a mapping whose keys and values are scalars, in block
or in flow style. A document with nothing in it is the empty mapping.

A scalar is its text, whatever its style or tag. A value or a key that is left out is the empty
text. In place of a scalar there may be an alias; it stands for the text that has its anchor.
-/

set_option autoImplicit false

namespace AccessLog.Yaml

/-- A key or a value as it is written. -/
inductive Node where
  | text (anchor : Option String) (s : String)
  | alias (anchor : String)
  deriving DecidableEq, Repr

/-- The node that is left out. -/
def Node.empty : Node := .text none ""

/-- A document: the entries of its mapping, and an anchor for the mapping itself. -/
structure Mapping where
  anchor : Option String := none
  entries : List (Node × Node) := []
  deriving DecidableEq, Repr

/-! ## From tokens -/

/-- What may stand before a scalar or a mapping. -/
structure Properties where
  anchor : Option String := none
  tagged : Bool := false

/-- Whether anything is said. -/
def Properties.any (p : Properties) : Bool := p.anchor.isSome || p.tagged

/-- Whether a tag has a handle that is known. -/
def knownHandle (handles : List String) (handle : String) : Bool :=
  handle == "" || handle == "!" || handle == "!!" || handles.contains handle

/-- Takes an anchor and a tag, in either order, from the front of the tokens. -/
def properties? (handles : List String) : List Token → Option (Properties × List Token)
  | .anchor a :: .tag h :: rest | .tag h :: .anchor a :: rest =>
    if knownHandle handles h then some (⟨some a, true⟩, rest) else none
  | .anchor a :: rest => some (⟨some a, false⟩, rest)
  | .tag h :: rest => if knownHandle handles h then some (⟨none, true⟩, rest) else none
  | rest => some ({}, rest)

def node? (handles : List String) (tokens : List Token) : Option (Node × List Token) :=
  match tokens with
  | .alias a :: rest => some (.alias a, rest)
  | tokens => do
    let (p, rest) ← properties? handles tokens
    match rest with
    | .scalar s :: rest => some (.text p.anchor s, rest)
    | rest => if p.any then some (.text p.anchor "", rest) else none

/-- Takes a node that is left out where one of some tokens follows. -/
def nodeBefore? (handles : List String) (ends : List Token) (tokens : List Token) :
    Option (Node × List Token) :=
  if tokens.head?.any (· ∈ ends) then some (.empty, tokens) else node? handles tokens

def valueBefore? (handles : List String) (ends : List Token) :
    List Token → Option (Node × List Token)
  | .value :: rest => nodeBefore? handles ends rest
  | rest => some (.empty, rest)

/-- Takes entries up to the end of a block mapping. There are no more of them than `limit`. -/
def blockEntries? (handles : List String) :
    (limit : Nat) → List Token → Option (List (Node × Node) × List Token)
  | 0, _ => none
  | _ + 1, .blockEnd :: rest => some ([], rest)
  | limit + 1, .key :: rest => do
    let ends := [.key, .value, .blockEnd]
    let (key, rest) ← nodeBefore? handles ends rest
    let (value, rest) ← valueBefore? handles ends rest
    let (entries, rest) ← blockEntries? handles limit rest
    return ((key, value) :: entries, rest)
  | _ + 1, _ => none

/-- Takes an entry of a flow mapping. A key alone needs no sign before it. -/
def flowEntry? (handles : List String) : List Token → Option ((Node × Node) × List Token)
  | .key :: rest => do
    let (key, rest) ← nodeBefore? handles [.value, .comma, .flowEnd] rest
    let (value, rest) ← valueBefore? handles [.comma, .flowEnd] rest
    return ((key, value), rest)
  | rest => do
    let (key, rest) ← node? handles rest
    return ((key, .empty), rest)

/-- Takes entries up to the end of a flow mapping. There are no more of them than `limit`. -/
def flowEntries? (handles : List String) :
    (limit : Nat) → List Token → Option (List (Node × Node) × List Token)
  | 0, _ => none
  | _ + 1, .flowEnd :: rest => some ([], rest)
  | limit + 1, tokens => do
    let (entry, rest) ← flowEntry? handles tokens
    match rest with
    | .comma :: rest =>
      let (entries, rest) ← flowEntries? handles limit rest
      return (entry :: entries, rest)
    | .flowEnd :: rest => return ([entry], rest)
    | _ => none

/-- Takes the root of a document. Properties alone make an empty mapping. -/
def root? (handles : List String) (tokens : List Token) : Option (Mapping × List Token) := do
  let (p, rest) ← properties? handles tokens
  match rest with
  | .blockStart :: rest =>
    let (entries, rest) ← blockEntries? handles rest.length rest
    return (⟨p.anchor, entries⟩, rest)
  | .flowStart :: rest =>
    let (entries, rest) ← flowEntries? handles rest.length rest
    return (⟨p.anchor, entries⟩, rest)
  | rest => if p.any then some (⟨p.anchor, []⟩, rest) else none

/-- The directives before a document. -/
structure Directives where
  version : Bool := false
  handles : List String := []

/-- Takes directives. The version may be given once and has to be known, and a handle may be
introduced once. -/
def directives? (found : Directives) : List Token → Option (Directives × List Token)
  | .version major minor :: rest =>
    if !found.version && major == 1 && (minor == 1 || minor == 2) then
      directives? { found with version := true } rest
    else none
  | .handle h :: rest =>
    if found.handles.contains h then none
    else directives? { found with handles := h :: found.handles } rest
  | rest => some (found, rest)

/-- Whether a token cannot begin the root of a document. -/
def endsDocument : Token → Bool
  | .documentStart | .documentEnd | .version .. | .handle _ => true
  | _ => false

/-- The document that tokens make up. Nothing but marks of its end may follow it. -/
def Mapping.ofTokens? (tokens : List Token) : Option Mapping := do
  let (found, rest) ← directives? {} tokens
  let (mapping, rest) ←
    match rest with
    | .documentStart :: rest =>
      if rest.head?.all endsDocument then some ({}, rest) else root? found.handles rest
    | [] => if tokens.isEmpty then some ({}, []) else none
    | rest => if tokens.length == rest.length then root? [] rest else none
  if rest.all (· == .documentEnd) then some mapping else none

/-! ## Aliases -/

/-- The anchors of a document. Each has a number, which is that of the anchors named before it;
so an anchor that is set again may share its number with the next one. -/
structure Anchors where
  numbers : List (String × Nat) := []
  /-- What each number stands for, the last setting first: a text, or no text. -/
  targets : List (Nat × Option String) := []

def Anchors.set (a : Anchors) (anchor : Option String) (target : Option String) : Anchors :=
  match anchor with
  | none => a
  | some name =>
    let number := a.numbers.length
    ⟨(name, number) :: a.numbers.filter (·.1 != name), (number, target) :: a.targets⟩

/-- A node whose alias is replaced by a number. -/
inductive Resolved where
  | text (s : String)
  | target (number : Nat)

/-- Replaces an alias; its anchor has to be set before it. -/
def Node.resolve? (a : Anchors) : Node → Option (Anchors × Resolved)
  | .text anchor s => some (a.set anchor (some s), .text s)
  | .alias name => do return (a, .target (← a.numbers.lookup name))

/-- The text of a node. -/
def Resolved.text? (a : Anchors) : Resolved → Option String
  | .text s => some s
  | .target number => (a.targets.lookup number).join

/-- Replaces the aliases of entries. -/
def resolveEntries? (a : Anchors) :
    List (Node × Node) → Option (Anchors × List (Resolved × Resolved))
  | [] => some (a, [])
  | (key, value) :: entries => do
    let (a, key) ← key.resolve? a
    let (a, value) ← value.resolve? a
    let (a, entries) ← resolveEntries? a entries
    return (a, (key, value) :: entries)

/-- The entries of a mapping as texts. -/
def Mapping.texts? (m : Mapping) : Option (List (String × String)) := do
  let (a, entries) ← resolveEntries? (Anchors.set {} m.anchor none) m.entries
  entries.mapM fun (key, value) => do return (← key.text? a, ← value.text? a)

/-- Reads a document that is a mapping of texts. -/
def readMapping? (source : String) : Option (List (String × String)) := do
  (← Mapping.ofTokens? (← tokens? source)).texts?

end AccessLog.Yaml
