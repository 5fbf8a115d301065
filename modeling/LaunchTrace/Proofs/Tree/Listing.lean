import LaunchTrace.Proofs.Tree.Places
import Mathlib.Data.List.TakeWhile

/-! Trees by their listings. The events from top to bottom, each with its depth, determine the trees, and do so too
where only part of each event is listed. -/
namespace LaunchTrace.StepTree

mutual

/-- The tree with something else in the place of each event. -/
def mapEvents (f : Event → Event) : StepTree → StepTree
  | .node e children => .node (f e) (mapEach f children)

def mapEach (f : Event → Event) : List StepTree → List StepTree
  | [] => []
  | tree :: rest => tree.mapEvents f :: mapEach f rest

end

variable {depth : Nat} {trees others : List StepTree}

theorem preorderEach_cons (depth : Nat) (e : Event) (children rest : List StepTree) :
    preorderEach depth (.node e children :: rest) =
      (depth, e) :: (preorderEach (depth + 1) children ++ preorderEach depth rest) := rfl

theorem preorderEach_mapEach (f : Event → Event) (depth : Nat) (trees : List StepTree) :
    preorderEach depth (mapEach f trees) = (preorderEach depth trees).map fun node => (node.1, f node.2) := by
  induction trees using forest_induction generalizing depth with
  | nil => rfl
  | cons e children rest below beside =>
    simp only [mapEach, mapEvents, preorderEach_cons, List.map_cons, List.map_append, below, beside]

theorem le_depth {node : Nat × Event} (member : node ∈ preorderEach depth trees) : depth ≤ node.1 := by
  rw [preorderEach_eq] at member
  obtain ⟨place, -, rfl⟩ := List.mem_map.mp member
  exact Nat.le_add_right _ _

/-- What is listed under a tree's top goes on as long as it is deeper than the top. -/
theorem takeWhile_deeper (depth : Nat) (children rest : List StepTree) :
    (preorderEach (depth + 1) children ++ preorderEach depth rest).takeWhile (fun node => depth < node.1) =
      preorderEach (depth + 1) children := by
  have deeper : ∀ node ∈ preorderEach (depth + 1) children, decide (depth < node.1) = true :=
    fun node member => decide_eq_true (le_depth member)
  have stops : (preorderEach depth rest).takeWhile (fun node => depth < node.1) = [] := by
    cases rest with
    | nil => rfl
    | cons tree rest =>
      obtain ⟨e, children⟩ := tree
      rw [preorderEach_cons, List.takeWhile_cons_of_neg (by simp)]
  rw [List.takeWhile_append_of_pos deeper, stops, List.append_nil]

/-- No two lists of trees have one listing. -/
theorem preorderEach_injective (listed : preorderEach depth trees = preorderEach depth others) : trees = others := by
  induction trees using forest_induction generalizing depth others with
  | nil =>
    cases others with
    | nil => rfl
    | cons tree rest => cases tree; cases listed
  | cons e children rest below beside =>
    cases others with
    | nil => cases listed
    | cons tree more =>
      obtain ⟨first, others⟩ := tree
      rw [preorderEach_cons, preorderEach_cons] at listed
      obtain ⟨top, listed⟩ := List.cons.inj listed
      have inner := congrArg (List.takeWhile fun node => depth < node.1) listed
      rw [takeWhile_deeper, takeWhile_deeper] at inner
      rw [inner, List.append_cancel_left_eq] at listed
      rw [below inner, beside listed, (Prod.mk.inj top).2]

end LaunchTrace.StepTree
