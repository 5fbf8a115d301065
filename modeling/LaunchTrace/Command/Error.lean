import LaunchTrace.Context.Error

/-! Why a command failed: what it was about to do, and what kept it from that. -/
namespace LaunchTrace

inductive CommandError where
  | catalog (path : Path) (error : ContextError)
  | settings (text : String) (error : SettingsError)
  | variableSettings (error : SettingsError)
  | creation (filename : String) (error : RecordingError)
  | context (error : ContextError)
  | refresh (ofWeb : Bool) (error : ContextError)
  | recording (error : RecordingError)
  | report (path : Path) (error : RecordingError)
deriving DecidableEq, Repr

namespace CommandError

/-- The messages from the outermost to the first cause. -/
def chain : CommandError → List String
  | .catalog path e => ("cannot load catalog " ++ path.display) :: e.chain
  | .settings text e => ["invalid recording settings " ++ Text.quote text, e.message]
  | .variableSettings e => ["invalid $" ++ RecordingSettings.variableName, e.message]
  | .creation filename e => ("cannot create " ++ filename) :: e.chain
  | .context e => e.chain
  | .refresh false e => "context refresh failed" :: e.chain
  | .refresh true e => "web context refresh failed" :: e.chain
  | .recording e => e.chain
  | .report path e => ("cannot read " ++ path.display) :: e.chain

/-- A cause behind its label. Its further lines stand as far in as the first. -/
def labelled (label cause : String) : String :=
  let margin := "\n" ++ String.ofList (List.replicate label.length ' ')
  "\n" ++ label ++ Text.join margin ((Text.pieces '\n' cause.toList).map String.ofList)

/-- Causes stand below a heading and are numbered where there are several. -/
def causes : List String → String
  | [] => ""
  | [cause] => "\n\nCaused by:" ++ labelled "    " cause
  | several =>
    "\n\nCaused by:"
      ++ String.join (several.zipIdx.map fun (cause, n) => labelled ("    " ++ toString n ++ ": ") cause)

def text (e : CommandError) : String :=
  match e.chain with
  | [] => ""
  | message :: rest => "Error: " ++ message ++ causes rest ++ "\n"

end CommandError
end LaunchTrace
