import LaunchTrace.Files.Path

/-! What the program is asked for. Arguments are read from left to right and the first fault ends the reading, so a
call for help behind it goes unheard. -/
namespace LaunchTrace

structure BootOptions where
  components : List String
  configurations : List String
  packages : List String
  catalog : Option Path
  /-- Recording settings as they were given. -/
  recording : Option String
  /-- The path that a web context is served under. -/
  webPath : Option String
  traceSteps : Bool
  jsonLogs : Bool
deriving DecidableEq, Repr

structure ReportOptions where
  file : Path
  json : Bool
deriving DecidableEq, Repr

inductive HelpTopic where
  | program
  | boot
  | report
  | help
deriving DecidableEq, Repr

inductive Request where
  | help (topic : HelpTopic)
  | version
  | boot (options : BootOptions)
  | report (options : ReportOptions)
deriving DecidableEq, Repr

inductive UsageError where
  | missingCommand
  | missingFile
  | unexpected (argument : String)
  | missingValue (option : String)
  | repeated (option : String)
  | badValue (option : String)
deriving DecidableEq, Repr

def UsageError.message : UsageError → String
  | .missingCommand => "a command is required"
  | .missingFile => "a recording file is required"
  | .unexpected argument => "unexpected argument " ++ argument
  | .missingValue option => "a value is required for " ++ option
  | .repeated option => option ++ " cannot be used multiple times"
  | .badValue option => "invalid value for " ++ option

/-! ## Forms of arguments -/

inductive Argument where
  /-- A single hyphen counts as a value. -/
  | value (bytes : Bytes)
  /-- Two hyphens: behind them there are only values. -/
  | separator
  | short (letters : Bytes)
  | long (name : String) (attached : Option Bytes)
deriving DecidableEq, Repr

namespace Argument

def hyphen : UInt8 := 0x2D

def equals : UInt8 := 0x3D

def display (bytes : Bytes) : String :=
  String.ofList (Text.Utf8.display bytes)

def ofLong (body : Bytes) : Argument :=
  match Text.cutAtFirst equals body with
  | some (name, attached) => .long (display name) (some attached)
  | none => .long (display body) none

def ofBytes : Bytes → Argument
  | first :: second :: rest =>
    if first = hyphen then
      if second = hyphen then if rest = [] then .separator else ofLong rest
      else .short (second :: rest)
    else .value (first :: second :: rest)
  | bytes => .value bytes

/-- Whether an argument can be the value of the option before it. -/
def isValue (bytes : Bytes) : Bool :=
  match ofBytes bytes with
  | .value _ => true
  | _ => false

/-- Of short options the first one counts, since help and version end the reading. -/
def startsWith (letter : Char) (letters : Bytes) : Bool :=
  letters.take 1 = Text.Utf8.encode [letter]

end Argument

/-! ## Options of `boot` -/

inductive BootOption where
  | component
  | configuration
  | package
  | catalog
  | recording
  | webPath
deriving DecidableEq, Repr

namespace BootOption

def name : BootOption → String
  | .component => "component"
  | .configuration => "configuration"
  | .package => "package"
  | .catalog => "catalog"
  | .recording => "recording"
  | .webPath => "web-context-path"

def all : List BootOption :=
  [.component, .configuration, .package, .catalog, .recording, .webPath]

def named? (name : String) : Option BootOption :=
  all.find? (·.name = name)

def textValue (option : BootOption) (bytes : Bytes) : Except UsageError String :=
  match Text.Utf8.decode bytes with
  | some s => .ok (String.ofList s)
  | none => .error (.badValue option.name)

end BootOption

/-- The path an argument gives, which must not be empty. -/
def Path.ofArgument (option : String) (bytes : Bytes) : Except UsageError Path :=
  if bytes = [] then .error (.badValue option) else .ok ⟨bytes⟩

/-- The value of an option that may be given once. -/
def once {α : Type} (option : String) (former : Option α) (value : α) : Except UsageError (Option α) :=
  if former.isSome then .error (.repeated option) else .ok (some value)

/-- Sets a flag, which may be set once. -/
def setOnce (flag : String) (former : Bool) : Except UsageError Bool :=
  if former then .error (.repeated flag) else .ok true

namespace BootOptions

def empty : BootOptions :=
  ⟨[], [], [], none, none, none, false, false⟩

/-- Components, configurations and packages add up, anything else is given once. -/
def add (o : BootOptions) (option : BootOption) (bytes : Bytes) : Except UsageError BootOptions := do
  match option with
  | .component => return { o with components := o.components ++ [← option.textValue bytes] }
  | .configuration => return { o with configurations := o.configurations ++ [← option.textValue bytes] }
  | .package => return { o with packages := o.packages ++ [← option.textValue bytes] }
  | .catalog =>
    let path ← Path.ofArgument option.name bytes
    return { o with catalog := ← once option.name o.catalog path }
  | .recording =>
    let text ← option.textValue bytes
    return { o with recording := ← once option.name o.recording text }
  | .webPath =>
    let text ← option.textValue bytes
    return { o with webPath := ← once option.name o.webPath text }

/-- Sets a flag by its name, or asks for help. -/
def flag (o : BootOptions) (name : String) : Except UsageError BootOptions :=
  if name = "trace-steps" then (setOnce name o.traceSteps).map fun traceSteps => { o with traceSteps }
  else if name = "json-logs" then (setOnce name o.jsonLogs).map fun jsonLogs => { o with jsonLogs }
  else .error (.unexpected name)

end BootOptions

/-! ## Reading -/

namespace Request

open Argument

def parseBoot (o : BootOptions) : List Bytes → Except UsageError Request
  | [] => .ok (.boot o)
  | argument :: rest =>
    match ofBytes argument, rest with
    | .separator, [] => .ok (.boot o)
    | .separator, _ => .error (.unexpected (display argument))
    | .value _, _ => .error (.unexpected (display argument))
    | .short letters, _ =>
      if startsWith 'h' letters then .ok (.help .boot) else .error (.unexpected (display argument))
    | .long name attached, rest =>
      match BootOption.named? name, attached, rest with
      | some option, some attached, rest => (o.add option attached).bind fun o => parseBoot o rest
      | some option, none, next :: rest =>
        if isValue next then (o.add option next).bind fun o => parseBoot o rest
        else .error (.missingValue name)
      | some _, none, [] => .error (.missingValue name)
      | none, some _, _ => .error (.unexpected (display argument))
      | none, none, rest =>
        if name = "help" then .ok (.help .boot) else (o.flag name).bind fun o => parseBoot o rest

/-- The options of a report as far as they have been read. -/
structure ReportDraft where
  file : Option Path
  json : Bool
  jsonLogs : Bool

namespace ReportDraft

def finish (d : ReportDraft) : Except UsageError Request :=
  match d.file with
  | some file => .ok (.report ⟨file, d.json⟩)
  | none => .error .missingFile

def addFile (d : ReportDraft) (bytes : Bytes) : Except UsageError ReportDraft :=
  if d.file.isSome then .error (.unexpected (display bytes))
  else (Path.ofArgument "file" bytes).map fun file => { d with file := some file }

def flag (d : ReportDraft) (name : String) : Except UsageError ReportDraft :=
  if name = "json" then (setOnce name d.json).map fun json => { d with json }
  else if name = "json-logs" then (setOnce name d.jsonLogs).map fun jsonLogs => { d with jsonLogs }
  else .error (.unexpected name)

end ReportDraft

def parseReport (d : ReportDraft) : List Bytes → Except UsageError Request
  | [] => d.finish
  | argument :: rest =>
    match ofBytes argument with
    | .separator => (rest.foldlM ReportDraft.addFile d).bind ReportDraft.finish
    | .value bytes => (d.addFile bytes).bind fun d => parseReport d rest
    | .short letters =>
      if startsWith 'h' letters then .ok (.help .report) else .error (.unexpected (display argument))
    | .long name none =>
      if name = "help" then .ok (.help .report) else (d.flag name).bind fun d => parseReport d rest
    | .long _ (some _) => .error (.unexpected (display argument))

/-- A help topic, below which there are no others. -/
def parseHelp : List Bytes → Except UsageError Request
  | [] => .ok (.help .program)
  | [topic] =>
    if display topic = "boot" then .ok (.help .boot)
    else if display topic = "report" then .ok (.help .report)
    else if display topic = "help" then .ok (.help .help)
    else .error (.unexpected (display topic))
  | _ :: extra :: _ => .error (.unexpected (display extra))

def parseCommand (jsonLogs : Bool) (command : Bytes) (rest : List Bytes) : Except UsageError Request :=
  if display command = "boot" then
    (parseBoot .empty rest).map fun
      | .boot o => .boot { o with jsonLogs := o.jsonLogs || jsonLogs }
      | request => request
  else if display command = "report" then parseReport ⟨none, false, false⟩ rest
  else if display command = "help" then parseHelp rest
  else .error (.unexpected (display command))

/-- The arguments behind the flags that have been read. -/
def parseFrom (jsonLogs : Bool) : List Bytes → Except UsageError Request
  | [] => .error .missingCommand
  | argument :: rest =>
    match ofBytes argument with
    | .value command => parseCommand jsonLogs command rest
    | .separator => .error .missingCommand
    | .short letters =>
      if startsWith 'h' letters then .ok (.help .program)
      else if startsWith 'V' letters then .ok .version
      else .error (.unexpected (display argument))
    | .long name none =>
      if name = "help" then .ok (.help .program)
      else if name = "version" then .ok .version
      else if name = "json-logs" then (setOnce name jsonLogs).bind fun jsonLogs => parseFrom jsonLogs rest
      else .error (.unexpected (display argument))
    | .long _ (some _) => .error (.unexpected (display argument))

/-- The request that a list of arguments makes, without the name of the program. -/
def parse (arguments : List Bytes) : Except UsageError Request :=
  parseFrom false arguments

end Request
end LaunchTrace
