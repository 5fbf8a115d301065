import LaunchTrace.Recording.Error
import LaunchTrace.Recording.Settings
import LaunchTrace.Step.Name

/-! Why instrumentation could not be set up or a step not be started. -/
namespace LaunchTrace

inductive StartupError where
  | emptyName
  | invalidName (name : String) (reason : String)
  | settings (error : SettingsError)
  | recording (error : RecordingError)
deriving DecidableEq, Repr

namespace StartupError

def ofFault (name : String) : StepNameFault → StartupError
  | .empty => .emptyName
  | .blankOrControl => .invalidName name "whitespace or control character"
  | .emptySegment => .invalidName name "empty namespace segment"

def message : StartupError → String
  | .emptyName => "step name must not be empty"
  | .invalidName name reason => "invalid step name " ++ Text.quote name ++ ": " ++ reason
  | .settings e => "recording configuration error: " ++ e.message
  | .recording e => "recording backend error: " ++ e.message

/-- Whether the caller gave a bad name. -/
def isPrecondition : StartupError → Bool
  | .emptyName | .invalidName .. => true
  | _ => false

end StartupError

/-- The step name a text is, or what the start of a step reports. -/
def StepName.validate (name : String) : Except StartupError StepName :=
  match StepName.check name with
  | .ok name => .ok name
  | .error fault => .error (.ofFault name fault)

end LaunchTrace
