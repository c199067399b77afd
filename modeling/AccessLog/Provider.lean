import AccessLog.Query

/-!
# Providers

A provider answers queries about one exchange. It may do so in any monad: purely, while keeping
a list of what it was asked, or with the possibility to give up.

Two kinds are defined here. `Provider.minimal` knows a start time and gives the same answer for
every metric. `Provider.recording` answers from a list of texts under keys and writes down every
key it is asked for, which makes the calls of a render visible.
-/

set_option autoImplicit false

namespace AccessLog

/-- An answer to every query. -/
abbrev Provider (m : Type → Type) := (query : Query) → m query.Answer

namespace Provider

/-- A provider that knows no more than a start time and one value for each sort of metric. The
layout of the start time is shown in brackets behind it. -/
def minimal (time : String) (number : Option Int) (text : Option String) : Provider Id
  | .startTime pattern => time ++ "[" ++ pattern ++ "]"
  | .int _ => number
  | .str _ => text
  | .flag _ => none
  | .header .. | .trailer _ | .body .. | .uri _ | .routerInfo _ | .middleware .. => none

/-! ## Recording -/

/-- The part of a key before its colon: what sort of thing is asked for. -/
def accessor : Query → String
  | .startTime _ => "time"
  | .int _ => "int"
  | .str _ => "str"
  | .flag _ => "flag"
  | .header .request _ => "request_header"
  | .header .response _ => "response_header"
  | .trailer _ => "response_trailer"
  | .body .request _ => "request_body"
  | .body .response _ => "response_body"
  | .uri _ => "uri"
  | .routerInfo _ => "router_info"
  | .middleware .request _ => "request_middleware"
  | .middleware .response _ => "response_middleware"
  | .middleware .app _ => "app_middleware"

/-- The part of a key after its colon: the pattern, the metric or the selector. -/
def argument : Query → String
  | .startTime pattern => pattern
  | .int metric => metric.name
  | .str metric => metric.name
  | .flag f => f.name
  | .header _ selector => selector.text
  | .trailer selector | .body _ selector | .routerInfo selector => selector.text
  | .uri selector => selector.text
  | .middleware _ selector => selector.text

/-- The key of a query in a recording. -/
def key (query : Query) : String := accessor query ++ ":" ++ argument query

/-- A value stored under a key of a recording. -/
inductive Stored where
  | text (s : String)
  | number (n : Int)
  | flag (b : Bool)
  /-- A value that answers no query. -/
  | nothing
  deriving DecidableEq, Repr

/-- The answer a stored value gives. A value of the wrong sort is as good as none, and a start
time that is not there is the empty text. -/
def Stored.answer (stored : Stored) (query : Query) : query.Answer :=
  let text? : Option String := match stored with
    | .text s => some s
    | _ => none
  match query with
  | .startTime _ => text?.getD ""
  | .int _ => match stored with
    | .number n => some n
    | _ => none
  | .flag _ => match stored with
    | .flag b => some b
    | _ => none
  | .str _ | .header .. | .trailer _ | .body .. | .uri _ | .routerInfo _ | .middleware .. => text?

/-- What a recording answers when nothing is stored under a key. -/
inductive Otherwise where
  /-- Nothing is available. -/
  | unavailable
  /-- Texts are the key itself, numbers the length of the metric's name, flags are on. -/
  | echo
  deriving DecidableEq, Repr

/-- The answer to a query under whose key nothing is stored. -/
def Otherwise.answer (otherwise : Otherwise) (query : Query) : query.Answer :=
  let text? : Option String := match otherwise with
    | .unavailable => none
    | .echo => some (key query)
  match query with
  | .startTime _ => text?.getD ""
  | .int metric => match otherwise with
    | .unavailable => none
    | .echo => some (metric.name.utf8ByteSize : Nat)
  | .flag _ => match otherwise with
    | .unavailable => none
    | .echo => some true
  | .str _ | .header .. | .trailer _ | .body .. | .uri _ | .routerInfo _ | .middleware .. => text?

/-- A provider that answers from stored values and writes down the key of every query. -/
def recording (values : List (String × Stored)) (otherwise : Otherwise) :
    Provider (StateM (List String)) := fun query => do
  modify (· ++ [key query])
  return match values.lookup (key query) with
    | some stored => stored.answer query
    | none => otherwise.answer query

end Provider

end AccessLog
