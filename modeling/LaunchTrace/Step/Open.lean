import LaunchTrace.Step.Event

/-! The steps that are open, the last started one first. A new step hangs under the first of them; a step may end
before those started after it. -/
namespace LaunchTrace

structure OpenSteps where
  ids : List StepId
deriving DecidableEq, Repr

namespace OpenSteps

def empty : OpenSteps := ⟨[]⟩

/-- The open steps with the root behind them. -/
def snapshot (o : OpenSteps) : List StepId :=
  o.ids ++ [rootId]

/-- The step that a new one hangs under. -/
def head (o : OpenSteps) : StepId :=
  o.ids.headD rootId

def depth (o : OpenSteps) : Nat :=
  o.ids.length

/-- Opens a step. The first result is the step it hangs under. -/
def push (o : OpenSteps) (id : StepId) : StepId × OpenSteps :=
  (o.head, ⟨id :: o.ids⟩)

/-- Closes the last opened step with the id, if one is open. The root stays. -/
def remove (o : OpenSteps) (id : StepId) : Bool × OpenSteps :=
  if id ≠ rootId ∧ id ∈ o.ids then (true, ⟨o.ids.erase id⟩) else (false, o)

end OpenSteps
end LaunchTrace
