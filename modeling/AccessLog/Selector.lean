import AccessLog.Field

/-!
# Selectors

A parameter such as `X-Real-Path?:path` names one field and, after `?`, another to use in
its place. Each name is resolved in the namespace of its command: to a well-known member or,
for any other name, to itself.

A selector says what is asked for. How its two halves are combined is up to whoever answers;
`firstMatch` is the usual way.
-/

set_option autoImplicit false

namespace AccessLog

/-- A name inside a parameter, resolved in the namespace `F`. -/
inductive FieldRef (F : Type) where
  /-- A member of the namespace. -/
  | wellKnown (field : F)
  /-- A name that is no member, kept as written. -/
  | custom (name : String)
  deriving DecidableEq, Repr

namespace FieldRef

variable {F : Type} [Namespace F]

/-- Resolves a name: to the member it spells up to ASCII case, else to itself. -/
def resolve (name : String) : FieldRef F :=
  match Namespace.lookup? name with
  | some field => .wellKnown field
  | none => .custom name

/-- The spelling of a member, or the name as written. -/
def name : FieldRef F → String
  | .wellKnown field => Table.name field
  | .custom name => name

/-- The member referred to, if it is one. -/
def wellKnown? : FieldRef F → Option F
  | .wellKnown field => some field
  | .custom _ => none

/-- Whether the name is no member of the namespace. -/
def isCustom : FieldRef F → Bool
  | .wellKnown _ => false
  | .custom _ => true

end FieldRef

/-- One name and possibly a second one to fall back on. -/
structure Selector (F : Type) where
  primary : FieldRef F
  fallback : Option (FieldRef F) := none
  deriving DecidableEq, Repr

namespace Selector

variable {F : Type} [Namespace F]

/-- Resolves both halves, each on its own. -/
def resolve (primary : String) (fallback : Option String) : Selector F :=
  ⟨.resolve primary, fallback.map .resolve⟩

/-- The names in the order in which they are tried. -/
def refs (s : Selector F) : List (FieldRef F) := s.primary :: s.fallback.toList

/-- Looks up the first name and, only when that gives nothing, the second one. -/
def firstMatchM {m : Type → Type} [Monad m] {α : Type} (s : Selector F)
    (look : FieldRef F → m (Option α)) : m (Option α) := do
  match ← look s.primary with
  | some found => return some found
  | none =>
    match s.fallback with
    | some ref => look ref
    | none => return none

/-- The first of the names that has a value. -/
def firstMatch {α : Type} (s : Selector F) (look : FieldRef F → Option α) : Option α :=
  s.firstMatchM (m := Id) look

def text (s : Selector F) : String :=
  match s.fallback with
  | none => s.primary.name
  | some ref => s.primary.name ++ "?" ++ ref.name

end Selector

end AccessLog
