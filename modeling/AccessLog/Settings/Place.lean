import AccessLog.Settings.Document
import AccessLog.Text.Place

/-!
# Where settings do not fit

A JSON document whose settings do not fit is reported with the place at which reading it stopped.
That is behind a scalar of the wrong kind, but in front of a container, which is not entered. A
name that is unknown or comes twice is read with the blanks that follow it, its value is not.
-/

set_option autoImplicit false

namespace AccessLog.Settings

open Json.Reader

/-- What is left of a document where reading stops. -/
abbrev Stopped := Except (List Char)

/-- Reads a text and gives what follows it. Reading stops at anything else. -/
def passText (cs : List Char) : Stopped (List Char) :=
  match skip cs with
  | '[' :: rest => .error ('[' :: rest)
  | '{' :: rest => .error ('{' :: rest)
  | cs =>
    match scalar? cs with
    | some (.string _, rest) => .ok rest
    | some (_, rest) => .error rest
    | none => .error cs

/-- Reads the elements of an array, of which there are no more than settings. -/
def passItems : List String → List Char → Stopped (List Char)
  | [], cs => .error cs
  | _ :: names, cs => do
    match skip (← passText cs) with
    | ',' :: rest => passItems names rest
    | rest => .error rest

/-- Reads the members of an object. The names are those that may still come. -/
def passMembers (names : List String) (cs : List Char) : Stopped (List Char) := do
  match skip cs with
  | '"' :: rest =>
    match string? cs.length rest with
    | none => .error cs
    | some (name, rest) =>
      if _ : String.ofList name ∈ names then
        match skip rest with
        | ':' :: rest =>
          match skip (← passText rest) with
          | ',' :: rest => passMembers (names.erase (String.ofList name)) rest
          | rest => .error rest
        | rest => .error rest
      else
        match skip rest with
        -- a brace in place of a colon is taken for the end of the object
        | '}' :: rest => .error rest
        | rest => .error rest
  | cs => .error cs
termination_by names.length
decreasing_by
  rw [List.length_erase_of_mem ‹_›]
  have := List.length_pos_of_mem ‹String.ofList name ∈ names›
  omega

/-- Reads settings up to the value that does not fit. -/
def pass (cs : List Char) : Stopped (List Char) :=
  match skip cs with
  | '{' :: rest => passMembers schema.names rest
  | '[' :: rest => passItems schema.names rest
  | cs => passText cs

/-- Where reading stops in a document whose settings do not fit. -/
def placeOfMismatch (source : String) : Text.Place :=
  let rest := match pass source.toList with
    | .ok rest | .error rest => rest
  .before source.toList rest

end AccessLog.Settings
