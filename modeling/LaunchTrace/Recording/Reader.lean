import LaunchTrace.Files.System
import LaunchTrace.Json.Parser
import LaunchTrace.Recording.Error
import LaunchTrace.Step.Event
import LaunchTrace.Text.Blank

/-! Reading a recording back. Lines end at a line feed, and a carriage return before it does not count. Blank lines
are passed over but numbered. Reading stops at the first line that is no event. -/
namespace LaunchTrace.Recording

def lineFeed : UInt8 := 0x0A

def carriageReturn : UInt8 := 0x0D

/-- A line without the carriage return at its end. -/
def chomp (line : Bytes) : Bytes :=
  if line.getLast? = some carriageReturn then line.dropLast else line

/-- The lines of a file. Behind the last line feed there is a line only if there is a byte, and nothing is cut off
its end. -/
def lines (content : Bytes) : List Bytes :=
  let pieces := Text.pieces lineFeed content
  let last := pieces.getLastD []
  pieces.dropLast.map chomp ++ if last = [] then [] else [last]

/-- The event on a line. A blank line holds none. -/
def lineEvent? (path : Path) (number : Nat) (line : Bytes) : Except RecordingError (Option Event) :=
  match Text.Utf8.decode line with
  | none => .error (.io .notText)
  | some s =>
    if Text.isBlankText s then .ok none
    else
      match (Json.parse s).bind Event.ofJson? with
      | some e => .ok (some e)
      | none => .error (.malformedLine path number)

/-- The events of lines, the first of which has the given number. -/
def eventsFrom (path : Path) (number : Nat) : List Bytes → Except RecordingError (List Event)
  | [] => .ok []
  | line :: rest => do
    let event ← lineEvent? path number line
    let events ← eventsFrom path (number + 1) rest
    return event.toList ++ events

/-- The events of a content, with the path that errors name. -/
def ofBytes (path : Path) (content : Bytes) : Except RecordingError (List Event) :=
  eventsFrom path 1 (lines content)

def read (fs : FileSystem) (path : Path) : Except RecordingError (List Event) :=
  match fs.read path with
  | .error e => .error (.io e)
  | .ok content => ofBytes path content

end LaunchTrace.Recording
