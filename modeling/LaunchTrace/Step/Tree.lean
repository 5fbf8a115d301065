import LaunchTrace.Step.Event
import LaunchTrace.Time.Millis

/-! The trees that the events of a recording form. Events arrive in any order and may be faulty: ids may be
repeated, parents may be missing, and parents may form a circle. No event is lost or shown twice. -/
namespace LaunchTrace

inductive StepTree where
  | node (event : Event) (children : List StepTree)

namespace StepTree

/-- The event at the top of a tree. -/
def event : StepTree → Event
  | .node event _ => event

/-- The number of levels of a tree. -/
def levels : Nat := 256

/-- An event that has no place yet, with the id of the event it belongs under. -/
structure Pending where
  parent : StepId
  event : Event

/-- An event whose parent is not recorded belongs under the root. -/
def pending (events : List Event) : List Pending :=
  events.map fun e => ⟨if events.any (·.id = e.parentId) then e.parentId else rootId, e⟩

/-- Events go by their ids, and those with equal ids by their parents. -/
def Pending.le (a b : Pending) : Bool :=
  a.event.id < b.event.id || (a.event.id = b.event.id && a.parent ≤ b.parent)

/-- Gives each event in turn the children that `take` finds for it among what is still pending. -/
def growEach (take : StepId → List Pending → List StepTree × List Pending) :
    List Pending → List Pending → List StepTree × List Pending
  | [], rest => ([], rest)
  | p :: more, rest =>
    let (children, rest) := take p.event.id rest
    let (trees, rest) := growEach take more rest
    (.node p.event children :: trees, rest)

/-- Takes the events under `parent` and grows them by so many levels. The second result is still pending. -/
def grow : Nat → StepId → List Pending → List StepTree × List Pending
  | 0, _, rest => ([], rest)
  | n + 1, parent, rest =>
    growEach (grow n) (rest.filter (·.parent = parent)) (rest.filter (·.parent ≠ parent))

/-- Makes a tree of the first pending event, as long as there is one. Each round takes at least one. -/
def promote : Nat → List Pending → List StepTree
  | 0, _ => []
  | _, [] => []
  | n + 1, p :: rest =>
    let (children, rest) := grow (levels - 1) p.event.id rest
    .node p.event children :: promote n rest

/-- The trees under the root, and behind them a tree for each lowest event that nothing reaches from there. -/
def ofEvents (events : List Event) : List StepTree :=
  let (trees, rest) := grow levels rootId ((pending events).mergeSort Pending.le)
  trees ++ promote rest.length rest

mutual

/-- The number of events in a tree. -/
def size : StepTree → Nat
  | .node _ children => 1 + sizeEach children

def sizeEach : List StepTree → Nat
  | [] => 0
  | tree :: rest => tree.size + sizeEach rest

end

mutual

/-- The events from top to bottom with their depths, which start at `depth`. -/
def preorderFrom (depth : Nat) : StepTree → List (Nat × Event)
  | .node event children => (depth, event) :: preorderEach (depth + 1) children

def preorderEach (depth : Nat) : List StepTree → List (Nat × Event)
  | [] => []
  | tree :: rest => preorderFrom depth tree ++ preorderEach depth rest

end

def preorder (trees : List StepTree) : List (Nat × Event) :=
  preorderEach 0 trees

/-- The line of a step: two spaces for each level, then name, id, duration, and the tags where there are any. -/
def lineOf (depth : Nat) (e : Event) : List Char :=
  List.replicate (2 * depth) ' ' ++ e.name.toList ++ [' ', '#'] ++ Nat.toDigits 10 e.id.toNat
    ++ ' ' :: Millis.text e.micros.toNat ++ ['m', 's']
    ++ (if e.tags = "[]" then [] else ' ' :: e.tags.toList) ++ ['\n']

def render (trees : List StepTree) : String :=
  String.ofList ((preorder trees).flatMap fun (depth, e) => lineOf depth e)

end StepTree
end LaunchTrace
