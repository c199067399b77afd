import AccessLog.Command
import AccessLog.Selector

/-!
# Queries

A query is one question about the exchange being logged: a command together with its resolved
parameter. It is all that a compiled format ever asks, and it is asked in one place, so what a
format can learn about an exchange is a list of queries.

The type of the answer depends on the question. A start time is always given; everything else
may be unavailable.
-/

set_option autoImplicit false

namespace AccessLog

/-- One question about an exchange. -/
inductive Query where
  /-- The start time in a layout; the empty pattern asks for the default layout. -/
  | startTime (pattern : String)
  | int (metric : IntMetric)
  | str (metric : StrMetric)
  | flag (f : Flag)
  /-- A field of one side of the exchange. -/
  | header (side : Side) (selector : Selector HttpField)
  /-- A trailer of the response. -/
  | trailer (selector : Selector Verbatim)
  /-- A field of the body of one side. -/
  | body (side : Side) (selector : Selector Verbatim)
  /-- A component of the request URI. -/
  | uri (selector : Selector UriField)
  /-- Metadata attached by the router. -/
  | routerInfo (selector : Selector Verbatim)
  /-- A property of the middleware chains, seen from one of them. -/
  | middleware (stage : Stage) (selector : Selector MiddlewareField)
  deriving DecidableEq, Repr

namespace Query

@[reducible] def Answer : Query → Type
  | startTime _ => String
  | int _ => Option Int
  | flag _ => Option Bool
  | str _ | header _ _ | trailer _ | body _ _ | uri _ | routerInfo _ | middleware _ _ =>
    Option String

def command : Query → Command
  | startTime _ => .startTime
  | int metric => .int metric
  | str metric => .str metric
  | flag f => .flag f
  | header side _ => .header side
  | trailer _ => .trailer
  | body side _ => .body side
  | uri _ => .uri
  | routerInfo _ => .routerInfo
  | middleware stage _ => .middleware stage

def parameter : Query → Option String
  | startTime pattern => if pattern.isEmpty then none else some pattern
  | int _ | str _ | flag _ => none
  | header _ selector => some selector.text
  | trailer selector | body _ selector | routerInfo selector => some selector.text
  | uri selector => some selector.text
  | middleware _ selector => some selector.text

end Query

end AccessLog
