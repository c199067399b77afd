/-!
# Command-line arguments

What a command line asks for. Arguments are read from left to right: an option may have its value
attached, as in `--name=value`, `-nvalue` or `-n=value`, or take it from the next argument. A
dash alone is an ordinary value, and after two dashes all that follows are values.

Reading stops at the first argument that cannot be used, and at the first request for help; which
of the two it is depends on which comes first.
-/

set_option autoImplicit false

namespace AccessLog.CommandLine

/-! ## What can be asked for -/

/-- Where the format of a preview comes from. -/
inductive Source where
  | template (format : String)
  /-- A file with settings. -/
  | config (path : String)
  deriving DecidableEq, Repr

/-- A preview of a format: a line for every snapshot. -/
structure Preview where
  source : Source
  placeholder : Option String := none
  delimiter : Option String := none
  /-- Lines added after each rendered one. -/
  lines : List String := []
  /-- The path of the snapshots; a dash stands for the standard input. -/
  snapshots : String
  deriving DecidableEq, Repr

/-- What a command line asks to be done. -/
inductive Request where
  /-- Compile a format and list its instructions. -/
  | check (template : String) (json : Bool)
  | render (preview : Preview)
  deriving DecidableEq, Repr

/-- What help is about. -/
inductive Topic where
  | program
  | check
  | render
  | help
  deriving DecidableEq, Repr

/-- Why a command line cannot be used. -/
inductive Misuse where
  | noCommand
  | unknownCommand (name : String)
  | unexpected (argument : String)
  | valueMissing (option : String)
  | valueUnwanted (option : String)
  | repeated (option : String)
  | missing (what : String)
  | conflict (a b : String)
  deriving DecidableEq, Repr

def Misuse.message : Misuse → String
  | .noCommand => "a command is required"
  | .unknownCommand name => s!"there is no command '{name}'"
  | .unexpected argument => s!"unexpected argument '{argument}'"
  | .valueMissing option => s!"'{option}' needs a value"
  | .valueUnwanted option => s!"'{option}' takes no value"
  | .repeated option => s!"'{option}' cannot be used more than once"
  | .missing what => s!"'{what}' is required"
  | .conflict a b => s!"'{a}' cannot be used with '{b}'"

/-- What ends the reading of arguments before a command is known. -/
inductive Stop where
  | help (topic : Topic)
  | version
  | misuse (m : Misuse)
  deriving DecidableEq, Repr

/-! ## Options and values -/

structure Opt (κ : Type) where
  key : κ
  long : String
  short : Option Char := none
  valued : Bool := true

/-- One thing that arguments say. -/
inductive Item (κ : Type) where
  | option (key : κ) (name value : String)
  | flag (key : κ) (name : String)
  | value (s : String)

/-- Whether an argument is a value when an option is waiting for one. -/
def isValue (argument : String) : Bool := argument == "-" || argument.toList.head? != some '-'

section

variable {κ σ : Type}

/-- Takes an option with what is attached to it. Without that, an option that has a value takes
the next argument. -/
def takeOption (o : Opt κ) (name : String) (attached : Option String) (rest : List String) :
    Except Stop (Item κ × List String) :=
  if o.valued then
    match attached, rest with
    | some value, rest => .ok (.option o.key name value, rest)
    | none, value :: rest =>
      if isValue value then .ok (.option o.key name value, rest)
      else .error (.misuse (.valueMissing name))
    | none, [] => .error (.misuse (.valueMissing name))
  else if attached.isSome then .error (.misuse (.valueUnwanted name))
  else .ok (.flag o.key name, rest)

/-- The name before an equals sign, and what is behind the sign. -/
def splitAttached (cs : List Char) : List Char × Option String :=
  match cs.span (· != '=') with
  | (name, _ :: value) => (name, some (String.ofList value))
  | (name, []) => (name, none)

/-- What is attached to an option of one letter. -/
def attachedTo : List Char → Option String
  | [] => none
  | '=' :: value => some (String.ofList value)
  | value => some (String.ofList value)

/-- Takes the first item from the arguments after `argument`. -/
def takeItem (options : List (Opt κ)) (topic : Topic) (argument : String) (rest : List String) :
    Except Stop (Item κ × List String) :=
  match argument.toList with
  | '-' :: '-' :: name =>
    match splitAttached name with
    | (name, attached) =>
      let name := String.ofList name
      match options.find? (·.long == name) with
      | some o => takeOption o ("--" ++ name) attached rest
      | none =>
        if name == "help" then
          .error (if attached.isNone then .help topic else .misuse (.valueUnwanted "--help"))
        else .error (.misuse (.unexpected argument))
  | '-' :: letter :: more =>
    match options.find? (·.short == some letter) with
    | some o => takeOption o (String.ofList ['-', letter]) (attachedTo more) rest
    | none =>
      .error (if letter == 'h' then .help topic else .misuse (.unexpected argument))
  | _ => .ok (.value argument, rest)

theorem length_takeOption {o : Opt κ} {name : String} {attached : Option String}
    {rest after : List String} {item : Item κ}
    (h : takeOption o name attached rest = .ok (item, after)) : after.length ≤ rest.length := by
  unfold takeOption at h
  grind

/-- Taking an item never gives back more arguments than there were. -/
theorem length_takeItem {options : List (Opt κ)} {topic : Topic} {argument : String}
    {rest after : List String} {item : Item κ}
    (h : takeItem options topic argument rest = .ok (item, after)) :
    after.length ≤ rest.length := by
  unfold takeItem at h
  split at h
  · split at h
    dsimp only at h
    split at h
    · exact length_takeOption h
    · split at h <;> simp at h
  · split at h
    · exact length_takeOption h
    · simp at h
  · simp at h
    simp [h.2]

/-- Goes through the arguments with a state that takes in each item. -/
def readItems (options : List (Opt κ)) (topic : Topic) (take : σ → Item κ → Except Stop σ) :
    σ → List String → Except Stop σ
  | state, [] => .ok state
  | state, "--" :: values => values.foldlM (fun state s => take state (.value s)) state
  | state, argument :: rest =>
    match _h : takeItem options topic argument rest with
    | .error stop => .error stop
    | .ok (item, after) =>
      match take state item with
      | .error stop => .error stop
      | .ok state => readItems options topic take state after
termination_by _ arguments => arguments.length
decreasing_by
  have := length_takeItem _h
  simp only [List.length_cons]
  omega

end

def setOnce {α : Type} (name : String) (old : Option α) (new : α) : Except Stop (Option α) :=
  if old.isSome then .error (.misuse (.repeated name)) else .ok (some new)

/-- A path; the empty text is none. -/
def path (name value : String) : Except Stop String :=
  if value.isEmpty then .error (.misuse (.valueMissing name)) else .ok value

/-- What has to be there in the end. -/
def require {α : Type} (what : String) (given : Option α) : Except Stop α :=
  match given with
  | some a => .ok a
  | none => .error (.misuse (.missing what))

/-! ## The commands -/

structure CheckDraft where
  template : Option String := none
  json : Option Unit := none

def CheckDraft.take (d : CheckDraft) : Item Unit → Except Stop CheckDraft
  | .value s =>
    if d.template.isSome then .error (.misuse (.unexpected s))
    else .ok { d with template := some s }
  | .option _ name _ | .flag _ name => do return { d with json := ← setOnce name d.json () }

def readCheck (arguments : List String) : Except Stop Request := do
  let options : List (Opt Unit) := [⟨(), "json", none, false⟩]
  let d ← readItems options .check CheckDraft.take {} arguments
  return .check (← require "<TEMPLATE>" d.template) d.json.isSome

inductive RenderOption where
  | template
  | config
  | placeholder
  | delimiter
  | append

def RenderOption.all : List (Opt RenderOption) :=
  [⟨.template, "template", some 't', true⟩,
   ⟨.config, "config", some 'c', true⟩,
   ⟨.placeholder, "placeholder", none, true⟩,
   ⟨.delimiter, "delimiter", none, true⟩,
   ⟨.append, "append", some 'a', true⟩]

structure RenderDraft where
  template : Option String := none
  config : Option String := none
  placeholder : Option String := none
  delimiter : Option String := none
  lines : List String := []
  snapshots : Option String := none

def RenderDraft.take (d : RenderDraft) : Item RenderOption → Except Stop RenderDraft
  | .value s =>
    if d.snapshots.isSome then .error (.misuse (.unexpected s))
    else do return { d with snapshots := some (← path "<SNAPSHOT>" s) }
  | .option .template name s => do return { d with template := ← setOnce name d.template s }
  | .option .config name s => do
    let config ← path name s
    return { d with config := ← setOnce name d.config config }
  | .option .placeholder name s => do
    return { d with placeholder := ← setOnce name d.placeholder s }
  | .option .delimiter name s => do return { d with delimiter := ← setOnce name d.delimiter s }
  | .option .append _ s => .ok { d with lines := d.lines ++ [s] }
  | .flag _ name => .error (.misuse (.unexpected name))

def RenderDraft.source (d : RenderDraft) : Except Stop Source :=
  match d.template, d.config with
  | some format, none => .ok (.template format)
  | none, some path => .ok (.config path)
  | some _, some _ => .error (.misuse (.conflict "--template" "--config"))
  | none, none => .error (.misuse (.missing "--template or --config"))

def readRender (arguments : List String) : Except Stop Request := do
  let d ← readItems RenderOption.all .render RenderDraft.take {} arguments
  let source ← d.source
  let snapshots ← require "<SNAPSHOT>" d.snapshots
  return .render ⟨source, d.placeholder, d.delimiter, d.lines, snapshots⟩

/-- Reads what help is asked about. -/
def readHelp : List String → Stop
  | [] => .help .program
  | ["check"] => .help .check
  | ["render"] => .help .render
  | ["help"] => .help .help
  | "check" :: name :: _ | "render" :: name :: _ | "help" :: name :: _ | name :: _ =>
    .misuse (.unknownCommand name)

/-- Reads what stands in place of a command. -/
def readGlobal (argument : String) : Stop :=
  match argument, argument.toList with
  | "--help", _ => .help .program
  | "--version", _ => .version
  | _, '-' :: 'h' :: _ => .help .program
  | _, '-' :: 'V' :: _ => .version
  | _, '-' :: _ :: _ => .misuse (.unexpected argument)
  | _, _ => .misuse (.unknownCommand argument)

def read : List String → Except Stop Request
  | [] => .error (.misuse .noCommand)
  | "check" :: arguments => readCheck arguments
  | "render" :: arguments => readRender arguments
  | "help" :: arguments => .error (readHelp arguments)
  | argument :: _ => .error (readGlobal argument)

end AccessLog.CommandLine
