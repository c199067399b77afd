import AccessLog.Settings.File
import AccessLog.Snapshot.Answer
import AccessLog.Snapshot.Decode

/-!
# Sessions

A session works through a list of steps on things that were given names: programs, logs, records
and snapshots, each with names of their own, and one buffer that lines are added to.

A step that fails leaves everything as it was; only a line that has no text at all ends the caller,
and then there is no session left to speak of. A record holds its program rather than the name of
it, so it stays the same when the name is given to another one.
-/

set_option autoImplicit false

namespace AccessLog

/-- All that a session has stored. -/
structure Session where
  programs : Dict String Program := {}
  logs : Dict String Log := {}
  records : Dict String Record := {}
  snapshots : Dict String Snapshot := {}
  buffer : String := ""
  deriving DecidableEq, Repr

namespace Session

/-- What a record is made from. -/
inductive RecordSource where
  | log (name : String)
  /-- A record as it is now. -/
  | copy (name : String)
  | program (name : String) (lines : List String)
  deriving DecidableEq, Repr

/-- What settings are read from. -/
inductive SettingsSource where
  | given (settings : Settings)
  | document (kind : Settings.Kind) (source : String)
  deriving DecidableEq, Repr

/-- What is rendered on its own. -/
inductive Printable where
  | log (name : String)
  /-- A record in the style of a log. -/
  | logRecord (log record : String)
  | record (name : String) (style : Style)
  | program (name : String) (style : Style)
  deriving DecidableEq, Repr

/-- What is rendered at the end of the buffer. -/
inductive Appendable where
  | record (name : String)
  | program (name : String)
  deriving DecidableEq, Repr

inductive Step where
  | compile (name template : String)
  | configure (name : String) (source : SettingsSource)
  | readSnapshot (name source : String)
  | makeRecord (name : String) (source : RecordSource)
  | push (record : String) (lines : List String)
  | render (snapshot : String) (what : Printable)
  | renderInto (snapshot : String) (what : Appendable) (style : Style)
  | setBuffer (text : String)
  deriving DecidableEq, Repr

/-- What a step shows. -/
inductive Reply where
  | done
  /-- The number of instructions of what was compiled. -/
  | size (n : Nat)
  /-- The format and the lines of a new record. -/
  | record (template : String) (lines : List String)
  | lines (lines : List String)
  | output (text : String)
  | buffer (text : String)
  deriving DecidableEq, Repr

/-- Why a step failed. -/
inductive Failure where
  | noSuchName
  | compile (error : CompileError)
  | settings (error : SettingsError)
  | snapshot (fault : Json.Fault)
  /-- The line has no text at all. -/
  | unwritable
  deriving DecidableEq, Repr

/-- What has a name. -/
def find {α : Type} (names : Dict String α) (name : String) : Except Failure α :=
  match names.get? name with
  | some a => .ok a
  | none => .error .noSuchName

/-- A line that was written. -/
def written : Option String → Except Failure String
  | some line => .ok line
  | none => .error .unwritable

def SettingsSource.read : SettingsSource → Except SettingsError Settings
  | .given settings => .ok settings
  | .document kind source => Settings.read kind source

def makeRecord (s : Session) : RecordSource → Except Failure Record
  | .log name => return (← find s.logs name).record
  | .copy name => find s.records name
  | .program name lines => return { program := ← find s.programs name, lines }

/-- Renders what stands on its own. -/
def render (s : Session) (snapshot : Snapshot) (what : Printable) : Except Failure String := do
  match what with
  | .log name => written ((← find s.logs name).render snapshot.provider)
  | .logRecord log record =>
    let log ← find s.logs log
    written (log.renderRecord (← find s.records record) snapshot.provider)
  | .record name style => written ((← find s.records name).render snapshot.provider style)
  | .program name style => written ((← find s.programs name).render snapshot.provider style)

/-- Renders at the end of the buffer. -/
def renderInto (s : Session) (snapshot : Snapshot) (what : Appendable) (style : Style) :
    Except Failure String := do
  match what with
  | .record name =>
    written ((← find s.records name).renderInto s.buffer snapshot.provider style)
  | .program name =>
    written ((← find s.programs name).renderInto s.buffer snapshot.provider style)

/-- Carries out a step. A line that cannot be written (`Failure.unwritable`) ends the caller, so the
session that goes on after it is nobody's and nothing is said of the buffer it would hold. -/
def step (s : Session) : Step → Except Failure (Session × Reply)
  | .compile name template => do
    let program ← (AccessLog.compile template).mapError .compile
    return ({ s with programs := s.programs.insert name program }, .size program.size)
  | .configure name source => do
    let log ← (source.read.bind Settings.buildOrExplain).mapError .settings
    return ({ s with logs := s.logs.insert name log }, .size log.program.size)
  | .readSnapshot name source => do
    let snapshot ← (Snapshot.read source).mapError .snapshot
    return ({ s with snapshots := s.snapshots.insert name snapshot }, .done)
  | .makeRecord name source => do
    let record ← s.makeRecord source
    return ({ s with records := s.records.insert name record },
      .record record.program.template record.lines)
  | .push name lines => do
    let record := (← find s.records name).pushAll lines
    return ({ s with records := s.records.insert name record }, .lines record.lines)
  | .render snapshot what => do
    return (s, .output (← s.render (← find s.snapshots snapshot) what))
  | .renderInto snapshot what style => do
    let buffer ← s.renderInto (← find s.snapshots snapshot) what style
    return ({ s with buffer }, .buffer buffer)
  | .setBuffer text => .ok ({ s with buffer := text }, .buffer text)

/-- Carries out a step unless it fails. -/
def advance (s : Session) (what : Step) : Session × Except Failure Reply :=
  match s.step what with
  | .ok (after, reply) => (after, .ok reply)
  | .error e => (s, .error e)

/-- Works through steps. -/
def run (s : Session) : List Step → Session × List (Except Failure Reply)
  | [] => (s, [])
  | what :: steps =>
    let (s, reply) := s.advance what
    let (s, replies) := s.run steps
    (s, reply :: replies)

end Session

end AccessLog
