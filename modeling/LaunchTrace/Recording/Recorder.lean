import LaunchTrace.Recording.LineFile

/-! Recorders take the events of ended steps. A fanout passes each event to those of its children that are recording,
from left to right: an error of one child does not keep the event from the next, a panic does. -/
namespace LaunchTrace

/-- What all recorders of a process share. -/
structure Host where
  files : FileSystem
  /-- The events that were traced. -/
  traced : List Event
  /-- Whether switched recorders are recording. -/
  switchOn : Bool
  /-- The time since the recorders were made. -/
  elapsed : Duration

/-- How a commit went. -/
inductive Commit where
  | done
  | failed (error : RecordingError)
  | panicked (message : String)
deriving DecidableEq, Repr

/-- The outcome of a fanout in which no child panicked. -/
def Commit.ofFirst : Option RecordingError → Commit
  | none => .done
  | some error => .failed error

inductive Sink where
  /-- Never records. -/
  | inactive
  | memory (events : List Event)
  /-- A memory that records while the switch is on. -/
  | switched (events : List Event)
  /-- Emits events to a listener, if there is one. -/
  | tracing (listening : Bool)
  | lines (file : LineFile)
  /-- Records, and fails on every event. -/
  | failing (error : FileError)
  /-- Records, and panics on every event. -/
  | panicking (message : String)
  /-- Panics when asked whether it is recording. -/
  | faulty (message : String)

inductive Recorder where
  | sink (sink : Sink)
  | fanout (children : List Recorder)

namespace Sink

/-- Whether events are wanted, or the message of a panic. -/
def isRecording (host : Host) : Sink → Except String Bool
  | .inactive => .ok false
  | .memory _ => .ok true
  | .switched _ => .ok host.switchOn
  | .tracing listening => .ok listening
  | .lines file => .ok (file.isOpen host.elapsed)
  | .failing _ => .ok true
  | .panicking _ => .ok true
  | .faulty message => .error message

def commit (e : Event) (host : Host) : Sink → Sink × Host × Commit
  | .inactive => (.inactive, host, .done)
  | .memory events => (.memory (events ++ [e]), host, .done)
  | .switched events => (.switched (events ++ [e]), host, .done)
  | .tracing listening =>
    (.tracing listening, if listening then { host with traced := host.traced ++ [e] } else host, .done)
  | .lines file =>
    if file.isOpen host.elapsed then
      match file.append host.files e with
      | (error, file, files) =>
        (.lines file, { host with files }, match error with
          | none => .done
          | some error => .failed error)
    else (.lines file, host, .done)
  | .failing error => (.failing error, host, .failed (.io error))
  | .panicking message => (.panicking message, host, .panicked message)
  | .faulty message => (.faulty message, host, .done)

def events? : Sink → Option (List Event)
  | .memory events | .switched events => some events
  | _ => none

/-- The sink without the events it remembers. -/
def cleared : Sink → Sink
  | .memory _ => .memory []
  | .switched _ => .switched []
  | s => s

def file? : Sink → Option LineFile
  | .lines file => some file
  | _ => none

end Sink

namespace Recorder

mutual

/-- A fanout is recording if a child is. Children are asked from left to right until one says yes. -/
def isRecording (host : Host) : Recorder → Except String Bool
  | .sink s => s.isRecording host
  | .fanout children => anyRecording host children

def anyRecording (host : Host) : List Recorder → Except String Bool
  | [] => .ok false
  | child :: rest =>
    match child.isRecording host with
    | .ok false => anyRecording host rest
    | answer => answer

end

mutual

def commit (e : Event) (host : Host) : Recorder → Recorder × Host × Commit
  | .sink s =>
    let (s, host, outcome) := s.commit e host
    (.sink s, host, outcome)
  | .fanout children =>
    let (children, host, outcome) := commitEach e none host children
    (.fanout children, host, outcome)

/-- Passes the event on. `first` is the first error so far. -/
def commitEach (e : Event) (first : Option RecordingError) (host : Host) :
    List Recorder → List Recorder × Host × Commit
  | [] => ([], host, Commit.ofFirst first)
  | child :: rest =>
    match child.isRecording host with
    | .error message => (child :: rest, host, .panicked message)
    | .ok false =>
      let (rest, host, outcome) := commitEach e first host rest
      (child :: rest, host, outcome)
    | .ok true =>
      match child.commit e host with
      | (child, host, .panicked message) => (child :: rest, host, .panicked message)
      | (child, host, .failed error) =>
        let (rest, host, outcome) := commitEach e (first <|> some error) host rest
        (child :: rest, host, outcome)
      | (child, host, .done) =>
        let (rest, host, outcome) := commitEach e first host rest
        (child :: rest, host, outcome)

end

mutual

/-- The recorders that are no fanouts, from left to right. -/
def sinks : Recorder → List Sink
  | .sink s => [s]
  | .fanout children => sinksEach children

def sinksEach : List Recorder → List Sink
  | [] => []
  | child :: rest => child.sinks ++ sinksEach rest

end

/-- The events of each memory. -/
def memories (r : Recorder) : List (List Event) :=
  r.sinks.filterMap Sink.events?

def files (r : Recorder) : List LineFile :=
  r.sinks.filterMap Sink.file?

mutual

/-- Forgets the events of the memory with the given number, counted from left to right. -/
def clear (n : Nat) : Recorder → Recorder
  | .sink s => .sink (if n = 0 then s.cleared else s)
  | .fanout children => .fanout (clearEach n children)

def clearEach (n : Nat) : List Recorder → List Recorder
  | [] => []
  | child :: rest =>
    if n < child.memories.length then child.clear n :: rest
    else child :: clearEach (n - child.memories.length) rest

end

end Recorder
end LaunchTrace
