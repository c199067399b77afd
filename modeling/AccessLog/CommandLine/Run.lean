import AccessLog.CommandLine.Help
import AccessLog.CommandLine.Listing
import AccessLog.Program.Encode
import AccessLog.Settings.File
import AccessLog.Snapshot.Answer
import AccessLog.Snapshot.Decode

/-!
# Running a command

A command either succeeds, and all its lines are written, or it fails, and nothing but a report
is: settings, snapshots and format are read in this order and every line is rendered before the
first one is written.

The surroundings of a command are how it reads files and the standard input. They are a
parameter, so what a command does is a function of what it reads.
-/

set_option autoImplicit false

namespace AccessLog.CommandLine

/-! ## Reports -/

/-- Why a command failed: what it was about to do, and the causes, each one explaining the one
before it. -/
inductive Failure where
  | reported (task : String) (causes : List String)
  /-- A line has no text at all. -/
  | unwritable
  deriving DecidableEq, Repr

/-- A text whose lines after the first one are indented. -/
def hang (indent : String) (s : String) : String :=
  String.ofList (s.toList.flatMap fun c => if c = '\n' then '\n' :: indent.toList else [c])

/-- The report of a task that failed. Several causes are numbered. -/
def report (task : String) : List String → String
  | [] => "Error: " ++ task ++ "\n"
  | [cause] => "Error: " ++ task ++ "\n\nCaused by:\n    " ++ hang "    " cause ++ "\n"
  | causes =>
    let item (n : Nat) (cause : String) : String :=
      Text.padLeft 5 ' ' (Text.decimal n) ++ ": " ++ hang "       " cause ++ "\n"
    "Error: " ++ task ++ "\n\nCaused by:\n" ++ String.join (causes.mapIdx item)

/-- How a program ends: its status and all that it wrote. -/
structure Outcome where
  status : Nat
  output : String := ""
  errors : String := ""
  deriving DecidableEq, Repr

/-- How a program ends that failed. -/
def Failure.outcome : Failure → Outcome
  | .reported task causes => ⟨1, "", report task causes⟩
  | .unwritable => ⟨101, "", "Error: a start time has no form in RFC 2822\n"⟩

/-- How a program ends that was stopped by its arguments. -/
def Stop.outcome : Stop → Outcome
  | .help topic => ⟨0, topic.text, ""⟩
  | .version => ⟨0, versionText, ""⟩
  | .misuse m => ⟨2, "", "error: " ++ m.message ++ "\n"⟩

/-! ## Commands -/

/-- How a command reads. -/
structure Surroundings (m : Type → Type) where
  readFile : FileReader m
  readInput : m (Except ReadFailure String)

/-- Compiles a format and shows the program. -/
def checkText (template : String) (json : Bool) : Except Failure String :=
  match compile template with
  | .error e => .error (.reported "invalid format" [e.message])
  | .ok program => .ok (if json then program.encode.indented else program.listing)

def snapshotsOf (source : String) : Except Failure (List Snapshot) :=
  match Snapshot.readAll source with
  | .ok snapshots => .ok snapshots
  | .error .malformed => .error (.reported "invalid snapshot JSON" ["malformed document"])
  | .error (.mismatch m) => .error (.reported "invalid snapshot JSON" [m.message])

/-- Renders a line for each snapshot, with the same lines added to each. -/
def renderLines (settings : Settings) (extra : List String) (snapshots : List Snapshot) :
    Except Failure (List String) :=
  match settings.buildOrExplain with
  | .error e => .error (.reported "invalid format" e.causes)
  | .ok log =>
    let record := log.record.pushAll extra
    match snapshots.mapM fun s => log.renderRecord record s.provider with
    | some lines => .ok lines
    | none => .error .unwritable

def Preview.override (p : Preview) (s : Settings) : Settings :=
  { s with
    style := ⟨p.placeholder.getD s.style.placeholder, p.delimiter.getD s.style.delimiter⟩ }

/-- Whether a path stands for the standard input. -/
def isInput (path : String) : Bool := Path.components path == ["-"]

section

variable {m : Type → Type} [Monad m]

def Preview.settings (p : Preview) (around : Surroundings m) : m (Except Failure Settings) := do
  match p.source with
  | .template format => return .ok { format }
  | .config path =>
    return (← Settings.load around.readFile path).mapError fun e =>
      .reported ("failed to load config " ++ path) e.causes

def Preview.loadSnapshots (p : Preview) (around : Surroundings m) :
    m (Except Failure (List Snapshot)) := do
  let (source, task) ←
    if isInput p.snapshots then pure (← around.readInput, "failed to read stdin")
    else pure (← around.readFile p.snapshots, "failed to read " ++ p.snapshots)
  match source with
  | .ok source => return snapshotsOf source
  | .error e => return .error (.reported task [e.message])

def Preview.render (p : Preview) (around : Surroundings m) : m (Except Failure (List String)) := do
  match ← p.settings around with
  | .error e => return .error e
  | .ok settings =>
    match ← p.loadSnapshots around with
    | .error e => return .error e
    | .ok snapshots => return renderLines (p.override settings) p.lines snapshots

/-- Does what is asked; the result is the lines to be written. -/
def Request.lines (request : Request) (around : Surroundings m) :
    m (Except Failure (List String)) :=
  match request with
  | .check template json => return (checkText template json).map ([·])
  | .render preview => preview.render around

/-- Runs the program with its arguments. -/
def run (around : Surroundings m) (arguments : List String) : m Outcome := do
  match read arguments with
  | .error stop => return stop.outcome
  | .ok request =>
    match ← request.lines around with
    | .ok texts => return ⟨0, CommandLine.lines texts, ""⟩
    | .error e => return e.outcome

end

end AccessLog.CommandLine
