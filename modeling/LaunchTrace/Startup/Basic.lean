import LaunchTrace.Startup.Flight

/-! Instrumentation as the code under it sees it: steps are started, tagged and ended, and it makes no difference to
that code whether anything is recorded. -/
namespace LaunchTrace

inductive Startup where
  /-- Nothing is recorded, and any name will do. -/
  | off
  | recording (flight : Flight)

/-- What a started step is held by. Tags are kept only while they are recorded. -/
inductive StepHandle (σ : Type) where
  | off
  | step (step : Step σ)

variable {σ : Type}

namespace StepHandle

def id : StepHandle σ → StepId
  | .off => rootId
  | .step s => s.id

def parent? : StepHandle σ → Option StepId
  | .off => none
  | .step s => s.parent?

def name : StepHandle σ → String
  | .off => ""
  | .step s => s.name.text

def tags : StepHandle σ → Tags σ
  | .off => .empty
  | .step s => s.tags

def optionText : Option StepId → String
  | none => "None"
  | some id => "Some(" ++ toString id.toNat ++ ")"

def debug (h : StepHandle σ) : String :=
  "StartupStep \x7b id: " ++ toString h.id.toNat ++ ", parent_id: " ++ optionText h.parent?
    ++ ", name: " ++ Text.quote h.name ++ ", tags: " ++ h.tags.debug ++ " \x7d"

end StepHandle

namespace Startup

def isRecording : Startup → Bool
  | .off => false
  | .recording f => f.isRecording

/-- The flight that records, if anything does. -/
def flight? : Startup → Option Flight
  | .off => none
  | .recording f => some f

/-- Starts a step by its name. -/
def begin (s : Startup) (name : StepName) : StepHandle σ × Startup :=
  match s with
  | .off => (.off, .off)
  | .recording f =>
    let (step, f) := f.start name
    (.step step, .recording f)

/-- Starts a step by a text, which has to be a step name if anything is recorded. -/
def tryStart (s : Startup) (name : String) : Except StartupError (StepHandle σ × Startup) :=
  match s with
  | .off => .ok (.off, .off)
  | .recording f => (StepName.validate name).map (Startup.recording f).begin

/-- A bad name is a fault of the program, reported as a panic. -/
def insist {α : Type} (started : Except StartupError α) : Except String α :=
  started.mapError fun e => "cannot start startup step: " ++ e.message

/-- Starts a step by a text that has to be right. -/
def start (s : Startup) (name : String) : Except String (StepHandle σ × Startup) :=
  insist (s.tryStart name)

/-- Tags a step if the tag will be recorded. -/
def tag (s : Startup) (h : StepHandle σ) (t : Tag σ) : StepHandle σ :=
  match h with
  | .off => .off
  | .step step => if s.isRecording then .step (step.attach t) else .step step

/-- Ends a step, as does letting go of it. -/
def finish (s : Startup) (h : StepHandle σ) (state : σ) : StepHandle σ × σ × Startup :=
  match s, h with
  | .recording f, .step step =>
    let (step, state, f) := f.finish step state
    (.step step, state, .recording f)
  | s, h => (h, state, s)

/-- Tags a step with values that are at hand. -/
def tagAll (s : Startup) (h : StepHandle σ) (tags : List (String × String)) : StepHandle σ :=
  tags.foldl (fun h (key, value) => s.tag h ⟨key, .ready value⟩) h

/-- Runs `body` inside a step. The step gets `before` as tags at its start and those that `after` finds in the result
at its end. -/
def within {α : Type} (s : Startup) (name : StepName) (before : List (String × String))
    (body : Startup → α × Startup) (after : α → List (String × String)) : α × Startup :=
  let (h, s) := s.begin (σ := Unit) name
  let h := s.tagAll h before
  let (result, s) := body s
  let (_, _, s) := s.finish (s.tagAll h (after result)) ()
  (result, s)

/-- The startup that settings ask for. Their file is made or emptied. -/
def ofSettings (settings : RecordingSettings) (host : Host) (clock : Clock) : Except StartupError Startup :=
  match LineFile.create settings host.files with
  | .error e => .error (.recording e)
  | .ok (file, files) => .ok (.recording (.launch (.sink (.lines file)) { host with files } clock))

/-- The startup that the variables ask for. Without settings nothing is recorded. -/
def ofVariables (v : Variables) (host : Host) (clock : Clock) : Except StartupError Startup :=
  match RecordingSettings.ofVariables v with
  | .error e => .error (.settings e)
  | .ok none => .ok .off
  | .ok (some settings) => ofSettings settings host clock

end Startup
end LaunchTrace
