import LaunchTrace.Command.Boot
import LaunchTrace.Command.Report

/-! Carrying out a request. -/
namespace LaunchTrace

def versionText : String :=
  "sprout 0.1.0\n"

def HelpTopic.text : HelpTopic → String
  | .program =>
    "Boot instrumented application contexts and inspect startup recordings\n\nUsage: sprout [OPTIONS] <COMMAND>\n\n"
      ++ "Commands:\n  boot    Register components, scan packages and refresh a context\n"
      ++ "  report  Render a recording as a step tree\n"
      ++ "  help    Print this message or the help of the given subcommand(s)\n\n"
      ++ "Options:\n      --json-logs  Emit logs as JSON lines on stderr\n"
      ++ "  -h, --help       Print help\n  -V, --version    Print version\n"
  | .boot =>
    "Register components, scan packages and refresh a context\n\nUsage: sprout boot [OPTIONS]\n\nOptions:\n"
      ++ "      --component <component>\n          Fully qualified component type to register\n"
      ++ "      --configuration <configuration>\n          Fully qualified configuration type to register\n"
      ++ "      --package <package>\n          Base package to scan through the catalog\n"
      ++ "      --catalog <catalog>\n          JSON component catalog used for package scans\n"
      ++ "      --recording <recording>\n"
      ++ "          Recording settings, e.g. filename=startup.jsonl,duration=10s (defaults to $"
      ++ RecordingSettings.variableName ++ ")\n"
      ++ "      --web-context-path <web-context-path>\n          Boot a web context served under this path\n"
      ++ "      --trace-steps\n          Also log every completed step\n"
      ++ "      --json-logs\n          Emit logs as JSON lines on stderr\n"
      ++ "  -h, --help\n          Print help\n"
  | .report =>
    "Render a recording as a step tree\n\nUsage: sprout report [OPTIONS] <file>\n\nArguments:\n"
      ++ "  <file>  JSON-lines recording\n\n"
      ++ "Options:\n      --json       Output the events as a JSON array\n"
      ++ "      --json-logs  Emit logs as JSON lines on stderr\n  -h, --help       Print help\n"
  | .help =>
    "Print this message or the help of the given subcommand(s)\n\nUsage: sprout help [COMMAND]...\n\n"
      ++ "Arguments:\n  [COMMAND]...  Print help for the subcommand(s)\n"

def Request.run (r : Request) (surroundings : Surroundings) : Outcome :=
  match r with
  | .help topic => .printing surroundings topic.text
  | .version => .printing surroundings versionText
  | .boot o => o.run surroundings
  | .report o => o.run surroundings

/-- The file a request records into, if it asks for that. -/
def Request.target? (r : Request) (v : Variables) : Option Path :=
  match r with
  | .boot o => (o.settings v).toOption.join.map fun settings => .ofText settings.filename
  | _ => none

/-- The file a request reads, if it needs one. -/
def Request.source? : Request → Option Path
  | .boot o => o.catalog
  | .report o => some o.file
  | _ => none

end LaunchTrace
