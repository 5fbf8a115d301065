import LaunchTrace.Step.Queue
import LaunchTrace.Step.Tags

/-! Programs that open and close steps, and programs that attach tags and resolve them, each in any order. -/
namespace LaunchTrace

/-- The ids may be any, repeated ones and the root among them. -/
inductive OpenOperation where
  | push (id : StepId)
  | remove (id : StepId)
deriving DecidableEq, Repr

inductive OpenReply where
  | under (parent : StepId)
  | removed (found : Bool)
deriving DecidableEq, Repr

namespace OpenSteps

def apply (o : OpenSteps) : OpenOperation → OpenReply × OpenSteps
  | .push id =>
    let (parent, o) := o.push id
    (.under parent, o)
  | .remove id =>
    let (found, o) := o.remove id
    (.removed found, o)

/-- Carries out operations one after the other, with the replies in their order. -/
def run (o : OpenSteps) : List OpenOperation → List OpenReply × OpenSteps
  | [] => ([], o)
  | op :: ops =>
    let (reply, o) := o.apply op
    let (replies, o) := o.run ops
    (reply :: replies, o)

end OpenSteps

namespace OpenQueue

def apply (q : OpenQueue) : OpenOperation → OpenReply × OpenQueue
  | .push id =>
    let (parent, q) := q.push id
    (.under parent, q)
  | .remove id =>
    let (found, q) := q.remove id
    (.removed found, q)

def run (q : OpenQueue) : List OpenOperation → List OpenReply × OpenQueue
  | [] => ([], q)
  | op :: ops =>
    let (reply, q) := q.apply op
    let (replies, q) := q.run ops
    (reply :: replies, q)

end OpenQueue

variable {σ : Type}

inductive TagOperation (σ : Type) where
  | push (tag : Tag σ)
  | resolve
  /-- What suppliers read changes by itself. -/
  | change (change : σ → σ)

namespace Tags

def apply (tags : Tags σ) (s : σ) : TagOperation σ → Tags σ × σ
  | .push tag => (tags.push tag, s)
  | .resolve => tags.resolve s
  | .change change => (tags, change s)

/-- Carries out operations one after the other. -/
def run (tags : Tags σ) (s : σ) : List (TagOperation σ) → Tags σ × σ
  | [] => (tags, s)
  | op :: ops =>
    let (tags, s) := tags.apply s op
    tags.run s ops

end Tags
end LaunchTrace
