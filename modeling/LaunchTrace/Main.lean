import LaunchTrace.Command.Run
import Std.Time

/-! The command line. The files that a request names are looked at, the request is carried out on what was found,
and the file that it recorded into is written. -/
namespace LaunchTrace.Main

/-! ## Looking at files -/

def errorCode? : IO.Error → Option UInt32
  | .noFileOrDirectory _ code _ => some code
  | .inappropriateType _ code _ => some code
  | .resourceExhausted _ code _ => some code
  | _ => none

def fileError (e : IO.Error) : FileError :=
  match errorCode? e with
  | some 2 => .notFound
  | some 20 => .notDirectory
  | some 21 => .isDirectory
  | some 28 => .noSpace
  | _ => .other (toString e)

/-- Stands for a content that has not been read. -/
def unread : Bytes := [0]

/-- What stands at a path, as far as opening it tells. -/
def look (path : String) : IO (Option FileNode) := do
  try
    let _ ← IO.FS.Handle.mk path .readWrite
    return some (.file unread)
  catch e =>
    match fileError e with
    | .isDirectory => return some .directory
    | .notFound | .notDirectory => return none
    | _ => return some (.file unread)

/-- The starts of a path, each one name longer than the one before. -/
def starts (path : String) : List String :=
  let names := Text.pieces '/' path.toList
  (List.range names.length).map fun n => String.ofList (['/'].intercalate (names.take (n + 1)))

/-- Adds what stands at a path and on the way to it. -/
def observe (fs : FileSystem) (path : Path) : IO FileSystem :=
  (starts path.display).foldlM
    (fun fs start => do
      match ← look start, fs.locate (.ofText start) with
      | some node, .ok place => return fs.put place node
      | _, _ => return fs)
    fs

/-- Adds a file with its content. -/
def observeContent (fs : FileSystem) (path : Path) : IO FileSystem := do
  let fs ← observe fs path
  match fs.find path, fs.locate path with
  | .ok (.file _), .ok place => return fs.put place (.file (← IO.FS.readBinFile path.display).toList)
  | _, _ => return fs

/-- The working directory with the files that a request names. -/
def observeFor (request : Request) (v : Variables) : IO FileSystem := do
  let place := (Path.ofText (← IO.currentDir).toString).names.filter (· ≠ [])
  let fs : FileSystem := FileSystem.makeParents ⟨place, []⟩ (place ++ [[]])
  let fs ← (request.target? v).toList.foldlM observe fs
  request.source?.toList.foldlM observeContent fs

/-- Writes the file that has been recorded into. -/
def store (before after : FileSystem) (path : Path) : IO (Option CommandError) := do
  match after.find path with
  | .ok (.file content) =>
    if (before.find path).toOption = some (.file content) then return none
    try
      let handle ← IO.FS.Handle.mk path.display .write
      handle.write ⟨content.toArray⟩
      handle.flush
      return none
    catch e => return some (.recording (.io (fileError e)))
  | _ => return none

/-! ## Running -/

/-- The variables this process was started with. -/
def readVariables : IO Variables := do
  let content ← IO.FS.readBinFile "/proc/self/environ"
  return ⟨(Text.pieces 0 content.toList).filterMap (Text.cutAtFirst Argument.equals)⟩

/-- A clock that stands at the start of this process. -/
def clock : IO Clock := do
  let now ← Std.Time.Timestamp.now
  return .still (.ofEpoch now.val.second.val.toNat now.val.nano.val.toNat)

def contextId : IO String := do
  let bytes ← IO.getRandomBytes 16
  let digits := bytes.toList.flatMap fun b => [Nat.digitChar (b.toNat / 16), Nat.digitChar (b.toNat % 16)]
  return "context-" ++ String.ofList digits

def wantsJsonLogs : Request → Bool
  | .boot o => o.jsonLogs
  | _ => false

def logLine (request : Request) (e : Event) : String :=
  if wantsJsonLogs request then String.ofList e.line else e.name ++ " " ++ e.tags

def run (request : Request) : IO UInt32 := do
  let v ← readVariables
  let files ← observeFor request v
  let outcome := request.run ⟨v, files, ← clock, ⟨0⟩, true, ← contextId⟩
  outcome.traced.forM fun e => IO.eprintln (logLine request e)
  IO.print outcome.printed
  let failures ← (request.target? v).toList.filterMapM (store files outcome.files)
  match outcome.error <|> failures.head? with
  | some e =>
    IO.eprint e.text
    return 1
  | none => return 0

end LaunchTrace.Main

def main (arguments : List String) : IO UInt32 := do
  match LaunchTrace.Request.parse (arguments.map fun s => s.toUTF8.toList) with
  | .ok request => LaunchTrace.Main.run request
  | .error e =>
    IO.eprintln ("error: " ++ e.message)
    return 2
