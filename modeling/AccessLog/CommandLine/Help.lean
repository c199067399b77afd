import AccessLog.CommandLine.Arguments

/-!
# Help

The texts shown on request: how the program and each of its commands are used.
-/

set_option autoImplicit false

namespace AccessLog.CommandLine

def versionText : String := "logline 0.1.0\n"

def lines (texts : List String) : String := String.join (texts.map (· ++ "\n"))

def Topic.text : Topic → String
  | .program => lines [
      "Validate and preview access-log formats",
      "",
      "Usage: logline <COMMAND>",
      "",
      "Commands:",
      "  check   Compile a format and print its instructions",
      "  render  Render a format once per request snapshot",
      "  help    Print this message or the help of the given subcommand(s)",
      "",
      "Options:",
      "  -h, --help     Print help",
      "  -V, --version  Print version"]
  | .check => lines [
      "Compile a format and print its instructions",
      "",
      "Usage: logline check [OPTIONS] <TEMPLATE>",
      "",
      "Arguments:",
      "  <TEMPLATE>  The format string, e.g. '%REQ(:method)% %RESPONSE_CODE%'",
      "",
      "Options:",
      "      --json  Print the compiled program as JSON",
      "  -h, --help  Print help"]
  | .render => lines [
      "Render a format once per request snapshot",
      "",
      "Usage: logline render [OPTIONS] <--template <TEMPLATE>|--config <CONFIG>> <SNAPSHOT>",
      "",
      "Arguments:",
      "  <SNAPSHOT>  JSON file with one snapshot or an array of them; `-` reads stdin",
      "",
      "Options:",
      "  -t, --template <TEMPLATE>        The format string",
      "  -c, --config <CONFIG>            A YAML or JSON access-log config file",
      "      --placeholder <PLACEHOLDER>  Text for missing values; overrides the config",
      "      --delimiter <DELIMITER>      Text written after every instruction; overrides "
        ++ "the config",
      "  -a, --append <APPEND>            A line appended after the rendered format. Repeatable",
      "  -h, --help                       Print help"]
  | .help => lines [
      "Print this message or the help of the given subcommand(s)",
      "",
      "Usage: logline help [COMMAND]...",
      "",
      "Arguments:",
      "  [COMMAND]...  Print help for the subcommand(s)"]

end AccessLog.CommandLine
