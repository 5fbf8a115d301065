import LaunchTrace.Files.System
import LaunchTrace.Recording.Error
import LaunchTrace.Recording.Settings
import LaunchTrace.Step.Event

/-! Recording into a file, one event a line. An event is written fragment by fragment into a buffer, which goes to
the file when the next fragment has no room in it and at the end of the line. What the file refuses stays in the
buffer, so the part of a later line at which the file fails again depends on what is still there. -/
namespace LaunchTrace

/-! ## Fragments of a line -/

/-- Puts a character before the plain run that a text starts with. -/
def Json.extendRun (c : Char) : List (Bool × List Char) → List (Bool × List Char)
  | (true, run) :: rest => (true, c :: run) :: rest
  | found => (true, [c]) :: found

/-- A literal's quotes, escapes and longest runs of characters that stand for themselves. -/
def Json.literalFragments (s : List Char) : List (List Char) :=
  let runs := s.foldr
    (fun c found =>
      match Json.escape? c with
      | some escaped => (false, escaped) :: found
      | none => Json.extendRun c found)
    []
  ['"'] :: runs.map (·.2) ++ [['"']]

/-- A timestamp goes out character by character, apart from its fraction from the first digit above zero on. -/
def Timestamp.fragments (t : Timestamp) : List (List Char) :=
  let whole := t.text.takeWhile (· ≠ '.')
  let fraction := (t.text.drop whole.length).takeWhile (· ≠ 'Z')
  let zeros := fraction.takeWhile fun c => c = '.' || c = '0'
  let figures := fraction.drop zeros.length
  let singles (s : List Char) := s.map ([·])
  singles whole ++ singles zeros ++ (if figures = [] then [] else [figures])
    ++ singles (t.text.drop (whole.length + fraction.length))

namespace Event

/-- Each field's key with the fragments of its value. -/
def fieldFragments (e : Event) : List (String × List (List Char)) := [
  ("event_name", Json.literalFragments e.eventName.toList),
  ("sequence_id", [Nat.toDigits 10 e.id.toNat]),
  ("parent_sequence_id", [Nat.toDigits 10 e.parentId.toNat]),
  ("name", Json.literalFragments e.name.toList),
  ("tags", Json.literalFragments e.tags.toList),
  ("start_time", [['"']] ++ e.startTime.fragments ++ [['"']]),
  ("duration_us", [Nat.toDigits 10 e.micros.toNat])]

/-- The line of an event in the pieces in which it is written. -/
def fragments (e : Event) : List (List Char) :=
  let fields := e.fieldFragments.map fun (key, value) => Json.literalFragments key.toList ++ [':'] :: value
  ['{'] :: [[',']].intercalate fields ++ [['}']]

end Event

/-! ## The file -/

structure LineFile where
  path : Path
  handle : FileHandle
  /-- What has not reached the file yet. -/
  buffered : Bytes
  window : Option Duration

namespace LineFile

def capacity : Nat := 8192

def lineFeed : UInt8 := 0x0A

/-- Empties or makes the file that the settings name. -/
def create (settings : RecordingSettings) (fs : FileSystem) : Except RecordingError (LineFile × FileSystem) :=
  match fs.create (.ofText settings.filename) with
  | .error e => .error (.io e)
  | .ok (handle, fs) => .ok (⟨.ofText settings.filename, handle, [], settings.window⟩, fs)

/-- Events are taken as long as the window lasts. -/
def isOpen (f : LineFile) (elapsed : Duration) : Bool :=
  match f.window with
  | none => true
  | some window => elapsed.nanos < window.nanos

/-- The result of working on the file. -/
structure Attempt where
  error : Option FileError
  file : LineFile
  files : FileSystem

/-- Writes past the buffer. -/
def writeThrough (f : LineFile) (fs : FileSystem) (bytes : Bytes) : Attempt :=
  match fs.write f.handle bytes with
  | .error e => ⟨some e, f, fs⟩
  | .ok (handle, fs) => ⟨none, { f with handle }, fs⟩

/-- Writes out what is buffered. -/
def flush (f : LineFile) (fs : FileSystem) : Attempt :=
  if f.buffered = [] then ⟨none, f, fs⟩
  else
    match f.writeThrough fs f.buffered with
    | ⟨none, f, fs⟩ => ⟨none, { f with buffered := [] }, fs⟩
    | failed => failed

/-- Makes room for a fragment where there is too little. -/
def makeRoom (f : LineFile) (fs : FileSystem) (fragment : Bytes) : Attempt :=
  if capacity - f.buffered.length < fragment.length then f.flush fs else ⟨none, f, fs⟩

/-- Writes a fragment. One that fills the whole buffer goes past it. -/
def put (f : LineFile) (fs : FileSystem) (fragment : Bytes) : Attempt :=
  match f.makeRoom fs fragment with
  | ⟨none, f, fs⟩ =>
    if capacity ≤ fragment.length then f.writeThrough fs fragment
    else ⟨none, { f with buffered := f.buffered ++ fragment }, fs⟩
  | failed => failed

/-- Writes fragments up to the first that fails. -/
def putAll : List Bytes → LineFile → FileSystem → Attempt
  | [], f, fs => ⟨none, f, fs⟩
  | fragment :: rest, f, fs =>
    match f.put fs fragment with
    | ⟨none, f, fs⟩ => putAll rest f fs
    | failed => failed

/-- Writes the line of an event and sees it through to the file. -/
def append (f : LineFile) (fs : FileSystem) (e : Event) : Option RecordingError × LineFile × FileSystem :=
  match putAll (e.fragments.map Text.Utf8.encode) f fs with
  | ⟨some error, f, fs⟩ => (some (.serialization error), f, fs)
  | ⟨none, f, fs⟩ =>
    match f.put fs [lineFeed] with
    | ⟨some error, f, fs⟩ => (some (.io error), f, fs)
    | ⟨none, f, fs⟩ =>
      match f.flush fs with
      | ⟨error, f, fs⟩ => (error.map .io, f, fs)

end LineFile
end LaunchTrace
