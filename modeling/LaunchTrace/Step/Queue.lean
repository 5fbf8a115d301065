import LaunchTrace.Step.Open

/-! The open steps in one queue, with the root at its end like a step that is never closed. The step to be closed is
looked for by its id and taken out at its place. -/
namespace LaunchTrace

structure OpenQueue where
  ids : List StepId
deriving DecidableEq, Repr

namespace OpenQueue

def empty : OpenQueue := ⟨[rootId]⟩

def head (q : OpenQueue) : StepId :=
  q.ids.headD rootId

/-- The root is not counted. -/
def depth (q : OpenQueue) : Nat :=
  q.ids.length - 1

def push (q : OpenQueue) (id : StepId) : StepId × OpenQueue :=
  (q.head, ⟨id :: q.ids⟩)

def remove (q : OpenQueue) (id : StepId) : Bool × OpenQueue :=
  if id = rootId then (false, q)
  else match q.ids.idxOf? id with
    | some place => (true, ⟨q.ids.eraseIdx place⟩)
    | none => (false, q)

end OpenQueue
end LaunchTrace
