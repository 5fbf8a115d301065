import LaunchTrace.Startup.Basic

/-! A program that starts steps. It holds each step under a label and tags it, ends it or lets go of it, in any order
and as often as it likes. -/
namespace LaunchTrace

variable {σ : Type}

/-- What a program reaches its startup through. -/
inductive Access where
  | own
  | shared (access : Access)
  | borrowed (access : Access)

namespace Access

def tryStart (s : Startup) (name : String) : Access → Except StartupError (StepHandle σ × Startup)
  | .own => s.tryStart name
  | .shared access | .borrowed access => access.tryStart s name

def start (s : Startup) (name : String) (access : Access) : Except String (StepHandle σ × Startup) :=
  Startup.insist (access.tryStart s name)

end Access

inductive Route where
  /-- A bad name is a panic. -/
  | start (access : Access)
  /-- A bad name is an error. -/
  | tryStart (access : Access)
  /-- As `tryStart`, but there is no wrapper around the step. -/
  | direct

structure Held (σ : Type) where
  handle : StepHandle σ
  /-- Whether there is no wrapper around the step. -/
  direct : Bool

inductive Mark where
  | started (id parentId : StepId) (name : StepName)
  /-- The end of a step was called, for the first time or again. -/
  | ended (id : StepId)

structure Session (σ : Type) where
  startup : Startup
  held : List (String × Held σ)
  /-- What suppliers read and change. -/
  state : σ
  /-- The last mark comes first. -/
  history : List Mark

inductive Operation (σ : Type) where
  /-- What the label stood for is let go of once the step has started. -/
  | start (label : String) (route : Route) (name : String)
  | tag (label : String) (tag : Tag σ)
  /-- A wrapper is used up by its end. A step without one can be ended again. -/
  | finish (label : String)
  | release (label : String)
  /-- A panic lets go of what the labels stand for, one after the other. -/
  | unwind (labels : List String)
  | change (change : σ → σ)
  /-- The recorder and what it shares with others change by themselves. -/
  | surround (change : Recorder → Host → Recorder × Host)

inductive Reply where
  | started (id : StepId) (parent? : Option StepId)
  | refused (error : StartupError)
  | panicked (message : String)
  /-- The label stands for nothing. -/
  | unknown
  | done

namespace StepHandle

def startMarks : StepHandle σ → List Mark
  | .off => []
  | .step s => [.started s.id s.parentId s.name]

def endMarks : StepHandle σ → List Mark
  | .off => []
  | .step s => [.ended s.id]

end StepHandle

namespace Held

def take? (label : String) : List (String × Held σ) → Option (Held σ × List (String × Held σ))
  | [] => none
  | (other, h) :: rest =>
    if other = label then some (h, rest)
    else (take? label rest).map fun (found, rest) => (found, (other, h) :: rest)

/-- A wrapper keeps a tag only while it is recorded, a step as long as it has not ended. -/
def tag (s : Startup) (t : Tag σ) (h : Held σ) : Held σ :=
  match h.direct, h.handle with
  | true, .step step => { h with handle := .step (step.attach t) }
  | _, handle => { h with handle := s.tag handle t }

end Held

namespace Route

def isDirect : Route → Bool
  | .direct => true
  | _ => false

def begin (s : Startup) (name : String) : Route → Except Reply (StepHandle σ × Startup)
  | .start access => (access.start s name).mapError .panicked
  | .tryStart access => (access.tryStart s name).mapError .refused
  | .direct => (s.tryStart name).mapError .refused

end Route

namespace Startup

def surround (change : Recorder → Host → Recorder × Host) : Startup → Startup
  | .off => .off
  | .recording f =>
    let (recorder, host) := change f.recorder f.host
    .recording { f with recorder, host }

end Startup

namespace Session

def launch (startup : Startup) (state : σ) : Session σ :=
  ⟨startup, [], state, []⟩

def ofRecorder (recorder : Recorder) (host : Host) (clock : Clock) (state : σ) : Session σ :=
  launch (.recording (.launch recorder host clock)) state

def callEnd (s : Session σ) (h : Held σ) : Held σ × Session σ :=
  let (handle, state, startup) := s.startup.finish h.handle s.state
  ({ h with handle }, { s with startup, state, history := h.handle.endMarks ++ s.history })

/-- A step calls its end when it goes. A wrapper does so too, before its step goes. -/
def letGo (s : Session σ) (h : Held σ) : Session σ :=
  if h.direct then (s.callEnd h).2
  else
    let (h, s) := s.callEnd h
    (s.callEnd h).2

def put (s : Session σ) (label : String) (h : Held σ) : Session σ :=
  { s with held := (label, h) :: s.held }

/-- Does something with the step under a label, after it has been taken from there. -/
def withHeld (s : Session σ) (label : String) (action : Held σ → Session σ → Session σ) : Reply × Session σ :=
  match Held.take? label s.held with
  | none => (.unknown, s)
  | some (h, held) => (.done, action h { s with held })

def release (s : Session σ) (label : String) : Reply × Session σ :=
  s.withHeld label fun h s => s.letGo h

def finish (s : Session σ) (label : String) : Reply × Session σ :=
  s.withHeld label fun h s =>
    let (h, s) := s.callEnd h
    if h.direct then s.put label h else s.letGo h

def start (s : Session σ) (label : String) (route : Route) (name : String) : Reply × Session σ :=
  match route.begin s.startup name with
  | .error reply => (reply, s)
  | .ok (handle, startup) =>
    let s := { s with startup, history := handle.startMarks ++ s.history }
    (.started handle.id handle.parent?, (s.release label).2.put label ⟨handle, route.isDirect⟩)

def apply (s : Session σ) : Operation σ → Reply × Session σ
  | .start label route name => s.start label route name
  | .tag label t => s.withHeld label fun h s => s.put label (h.tag s.startup t)
  | .finish label => s.finish label
  | .release label => s.release label
  | .unwind labels => (.done, labels.foldl (fun s label => (s.release label).2) s)
  | .change change => (.done, { s with state := change s.state })
  | .surround change => (.done, { s with startup := s.startup.surround change })

def run (s : Session σ) (ops : List (Operation σ)) : Session σ :=
  ops.foldl (fun s op => (s.apply op).2) s

end Session
end LaunchTrace
