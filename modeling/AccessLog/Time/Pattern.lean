import AccessLog.Time.Layout

/-!
# Patterns of a start time

A pattern is one of a few names, of any case, or a layout, recognised by the dollar signs in it.
Everything else, a layout with a mistake included, asks for RFC 3339 with milliseconds.

Only one pattern may be impossible to write: RFC 2822 has no place for years of more than four
digits. `Instant.inPattern?` has no answer then.
-/

set_option autoImplicit false

namespace AccessLog.Time

def commonLogLayout : List Item :=
  [.zero .day, .literal "/", .shortMonthName, .literal "/", .zero .year, .literal ":"]
    ++ Item.hourMinuteSecond ++ [.literal " ", .offset "+0000"]

def dateLayout : List Item :=
  [.zero .year, .literal "-", .zero .month, .literal "-", .zero .day]

/-- A point in time as a pattern shows it. -/
def Instant.inPattern? (t : Instant) (pattern : String) : Option String :=
  match Text.upper pattern with
  | "" | "RFC3339" => some t.rfc3339Millis
  | "RFC2822" => t.rfc2822?
  | "CLF" => some (t.write commonLogLayout)
  | "DATE" => some (t.write dateLayout)
  | "UNIX" => some (Text.signedDecimal t.seconds)
  | "UNIX_MS" => some (Text.signedDecimal t.millis)
  | _ =>
    if pattern.toList.contains '$' then
      match layout? pattern with
      | some items => some (t.write items)
      | none => some t.rfc3339Millis
    else some t.rfc3339Millis

end AccessLog.Time
