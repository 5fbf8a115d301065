import LaunchTrace.Recording.Recorder
import LaunchTrace.Startup.Error
import LaunchTrace.Step.Open
import LaunchTrace.Step.Tags

/-! The flight recorder: it numbers the steps of a startup, keeps track of the open ones, and commits an event when a
step ends. A recorder that fails or panics costs events at most; the numbers and the open steps never depend on it. -/
namespace LaunchTrace

/-- One reading of the clocks. -/
structure Instant where
  wall : Timestamp
  /-- Microseconds since some fixed moment. -/
  micros : Nat

/-- The readings a run takes, the first one first. -/
structure Clock where
  reading : Nat → Instant
  taken : Nat

namespace Clock

/-- A clock that stands still. -/
def still (wall : Timestamp) : Clock :=
  ⟨fun _ => ⟨wall, 0⟩, 0⟩

def now (c : Clock) : Instant :=
  c.reading c.taken

def advance (c : Clock) : Clock :=
  { c with taken := c.taken + 1 }

end Clock

structure Flight where
  /-- The id of the step that was started last. -/
  current : StepId
  openSteps : OpenSteps
  recorder : Recorder
  host : Host
  clock : Clock

/-- A started step. Whoever started it holds on to it until it ends. -/
structure Step (σ : Type) where
  id : StepId
  parentId : StepId
  name : StepName
  tags : Tags σ
  started : Instant
  ended : Bool

variable {σ : Type}

namespace Step

/-- The step it hangs under, unless that is the root. -/
def parent? (step : Step σ) : Option StepId :=
  if step.parentId = rootId then none else some step.parentId

/-- Attaches a tag. A step that has ended ignores it. -/
def attach (step : Step σ) (tag : Tag σ) : Step σ :=
  if step.ended then step else { step with tags := step.tags.push tag }

/-- The event of a step that ended at the given reading. -/
def event (step : Step σ) (ending : Instant) : Event where
  eventName := Event.stepEventName
  id := step.id
  parentId := step.parentId
  name := step.name.text
  tags := step.tags.display
  startTime := step.started.wall
  micros := UInt64.ofNat (min (ending.micros - step.started.micros) (Text.wordLimit - 1))

end Step

namespace Flight

/-- A flight without any steps yet. -/
def launch (recorder : Recorder) (host : Host) (clock : Clock) : Flight :=
  ⟨rootId, .empty, recorder, host, clock⟩

/-- Starts a step under the last started one that is open. -/
def start (f : Flight) (name : StepName) : Step σ × Flight :=
  let id := f.current + 1
  let (parentId, openSteps) := f.openSteps.push id
  (⟨id, parentId, name, .empty, f.clock.now, false⟩,
    { f with current := id, openSteps, clock := f.clock.advance })

/-- A recorder that panics when asked counts as not recording. -/
def isRecording (f : Flight) : Bool :=
  match f.recorder.isRecording f.host with
  | .ok answer => answer
  | .error _ => false

/-- Hands an event to the recorder. What goes wrong there stays there. -/
def commit (f : Flight) (e : Event) : Flight :=
  let (recorder, host, _) := f.recorder.commit e f.host
  { f with recorder, host }

/-- Closes the step among the open ones. -/
def close (f : Flight) (id : StepId) : Flight :=
  { f with openSteps := (f.openSteps.remove id).2 }

/-- Resolves the tags of an ended step and commits its event. -/
def record (f : Flight) (step : Step σ) (s : σ) : Step σ × σ × Flight :=
  let (tags, s) := step.tags.resolve s
  let step := { step with tags }
  (step, s, { f with clock := f.clock.advance }.commit (step.event f.clock.now))

/-- Ends a step. Its deferred tags are resolved and its event is committed if the recorder is recording now; a step
that has ended already stays as it is. -/
def finish (f : Flight) (step : Step σ) (s : σ) : Step σ × σ × Flight :=
  if step.ended then (step, s, f)
  else
    let f := f.close step.id
    let step := { step with ended := true }
    if f.isRecording then f.record step s else (step, s, f)

end Flight
end LaunchTrace
