import LaunchTrace.Command.Error
import LaunchTrace.Recording.Recorder
import LaunchTrace.Startup.Flight

/-! What a command starts from and what it comes to. -/
namespace LaunchTrace

structure Surroundings where
  vars : Variables
  files : FileSystem
  clock : Clock
  /-- The time that a recording has been open. -/
  elapsed : Duration
  /-- Whether somebody listens to traced steps. -/
  listening : Bool
  /-- The id of the context, should one be booted. -/
  contextId : String

structure Outcome where
  printed : String
  error : Option CommandError
  files : FileSystem
  /-- The steps that were traced. -/
  traced : List Event

namespace Outcome

/-- An outcome that leaves everything as it was. -/
def printing (s : Surroundings) (printed : String) : Outcome :=
  ⟨printed, none, s.files, []⟩

def failing (s : Surroundings) (error : CommandError) : Outcome :=
  ⟨"", some error, s.files, []⟩

def exitCode (o : Outcome) : Nat :=
  if o.error.isSome then 1 else 0

end Outcome
end LaunchTrace
