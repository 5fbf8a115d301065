import LaunchTrace.Files.Error
import LaunchTrace.Files.Path

/-! Why an event could not be recorded, or a recording not be read. -/
namespace LaunchTrace

inductive RecordingError where
  | io (error : FileError)
  /-- The file failed while the event was being written out. -/
  | serialization (error : FileError)
  | malformedLine (path : Path) (line : Nat)
deriving DecidableEq, Repr

namespace RecordingError

def message : RecordingError → String
  | .io e => "recording i/o failed: " ++ e.message
  | .serialization e => "event serialization failed: " ++ e.message
  | .malformedLine path line => path.display ++ ":" ++ toString line ++ ": malformed step event"

def isIo : RecordingError → Bool
  | .io _ => true
  | _ => false

/-- The messages of the error and of what caused it. -/
def chain : RecordingError → List String
  | .io e => [message (.io e), e.message]
  | .serialization e => [message (.serialization e), e.message]
  | .malformedLine path line => [message (.malformedLine path line)]

end RecordingError
end LaunchTrace
