import AccessLog.Json.Decode
import AccessLog.Json.Reader
import AccessLog.Json.Writer
import AccessLog.Settings.Basic
import AccessLog.Yaml.Mapping

/-!
# Settings as documents

Settings are a record of three texts, written as JSON or as YAML. Every one of them may be left
out. A YAML document is a mapping from names to texts, so it has no values of the wrong kind:
whatever is written plainly is taken as text.
-/

set_option autoImplicit false

namespace AccessLog.Settings

open Json Json.Decode

def setFormat (s : Settings) (format : String) : Settings := { s with format }

def setPlaceholder (s : Settings) (placeholder : String) : Settings :=
  { s with style := { s.style with placeholder } }

def setDelimiter (s : Settings) (delimiter : String) : Settings :=
  { s with style := { s.style with delimiter } }

/-! ## JSON -/

def schema : Schema Settings where
  name := "AccessLogConfig"
  fields := [
    field "format" string setFormat,
    field "empty_placeholder" string setPlaceholder,
    field "delimiter" string setDelimiter]

def readJson (source : String) : Except Fault Settings :=
  (Document.read source).decode (schema.read .streaming {})

def encode (s : Settings) : Tree :=
  .record [
    ("format", .string s.format),
    ("empty_placeholder", .string s.style.placeholder),
    ("delimiter", .string s.style.delimiter)]

def text (s : Settings) : String := s.encode.compact

/-! ## YAML -/

/-- Takes the entries of a mapping into settings. Each must name a setting, and none twice. -/
def ofEntries? (entries : List (String × String)) : Option Settings :=
  let step (found : Settings × List String) (entry : String × String) :
      Option (Settings × List String) :=
    (schema.member found (entry.1, .string entry.2)).toOption
  (entries.foldlM step ({}, [])).map (·.1)

def readYaml? (source : String) : Option Settings := do
  ofEntries? (← Yaml.readMapping? source)

end AccessLog.Settings
