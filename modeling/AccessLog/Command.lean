import AccessLog.Field

/-!
# Commands

The names that may stand between percent signs, and whether each takes a parameter. Every
metric is a command of its own; the others say which part of the exchange is asked for.
Command names are matched exactly.
-/

set_option autoImplicit false

namespace AccessLog

/-- The two directions of an HTTP exchange. -/
inductive Side where
  | request
  | response
  deriving DecidableEq, Repr

/-- The three middleware chains an exchange passes through. -/
inductive Stage where
  | request
  | response
  | app
  deriving DecidableEq, Repr

/-- Whether a command takes a parameter in parentheses. -/
inductive Arity where
  | none
  | required
  | optional
  deriving DecidableEq, Repr

def Arity.name : Arity → String
  | .none => "none"
  | .required => "required"
  | .optional => "optional"

/-- What a field of a format asks for, its parameter aside. -/
inductive Command where
  | startTime
  | int (metric : IntMetric)
  | str (metric : StrMetric)
  | flag (f : Flag)
  | header (side : Side)
  | trailer
  | body (side : Side)
  | uri
  | routerInfo
  | middleware (stage : Stage)
  deriving DecidableEq, Repr

namespace Command

def name : Command → String
  | startTime => "START_TIME"
  | int metric => metric.name
  | str metric => metric.name
  | flag f => f.name
  | header .request => "REQ"
  | header .response => "RESP"
  | trailer => "TRAILER"
  | body .request => "REQ_BODY"
  | body .response => "RESP_BODY"
  | uri => "URI"
  | routerInfo => "ROUTER_INFO"
  | middleware .request => "REQ_MIDDLEWARE"
  | middleware .response => "RESP_MIDDLEWARE"
  | middleware .app => "APP_MIDDLEWARE"

instance : Table Command where
  all := [startTime]
    ++ Table.all.map int ++ Table.all.map str ++ Table.all.map flag
    ++ [header .request, header .response, trailer, body .request, body .response, uri,
        routerInfo, middleware .request, middleware .response, middleware .app]
  name := name

/-- Finds the command with exactly this name. -/
def lookup? (name : String) : Option Command := Table.ofName? name

/-- Whether a command takes a parameter. -/
def arity : Command → Arity
  | startTime => .optional
  | int _ | str _ | flag _ => .none
  | header _ | trailer | body _ | uri | routerInfo | middleware _ => .required

def sortedNames : List String := (Table.names Command).mergeSort (· ≤ ·)

end Command

end AccessLog
