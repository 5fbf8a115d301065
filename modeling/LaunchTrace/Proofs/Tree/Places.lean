import LaunchTrace.Step.Tree
import Mathlib.Data.List.Basic

/-! The places of events in trees: how deep each event stands and which event it hangs under. Sizes and the listing
from top to bottom are read off the places. -/
namespace LaunchTrace.StepTree

/-- Lists of trees are built from the children and the siblings of their first tree. -/
theorem forest_induction {P : List StepTree → Prop} (nil : P [])
    (cons : ∀ e children rest, P children → P rest → P (.node e children :: rest))
    (trees : List StepTree) : P trees := by
  refine @StepTree.rec_1 (fun tree => ∀ rest, P rest → P (tree :: rest)) P ?_ nil ?_ trees
  · intro e children below rest beside
    exact cons e children rest below beside
  · intro tree rest top beside
    exact top rest beside

structure Place where
  depth : Nat
  /-- The event that this one hangs under. -/
  above : Option Event
  event : Event

/-- The place in a tree whose top is `e`, of an event that has the given place among the children. -/
def Place.under (e : Event) (place : Place) : Place :=
  ⟨place.depth + 1, some (place.above.getD e), place.event⟩

mutual

/-- The places of the events from top to bottom. -/
def places : StepTree → List Place
  | .node e children => ⟨0, none, e⟩ :: (placesEach children).map (Place.under e)

def placesEach : List StepTree → List Place
  | [] => []
  | tree :: rest => tree.places ++ placesEach rest

end

variable {trees : List StepTree} {place : Place} {e : Event}

@[simp] theorem placesEach_nil : placesEach [] = [] := rfl

@[simp] theorem placesEach_cons (e : Event) (children rest : List StepTree) :
    placesEach (.node e children :: rest) =
      ⟨0, none, e⟩ :: (placesEach children).map (Place.under e) ++ placesEach rest := rfl

theorem mem_placesEach_cons {children rest : List StepTree} : place ∈ placesEach (.node e children :: rest) ↔
    place = ⟨0, none, e⟩ ∨ (∃ inner ∈ placesEach children, inner.under e = place) ∨ place ∈ placesEach rest := by
  simp only [placesEach_cons, List.cons_append, List.mem_cons, List.mem_append, List.mem_map]

@[simp] theorem under_event (e : Event) (place : Place) : (place.under e).event = place.event := rfl

@[simp] theorem under_depth (e : Event) (place : Place) : (place.under e).depth = place.depth + 1 := rfl

@[simp] theorem under_above (e : Event) (place : Place) :
    (place.under e).above = some (place.above.getD e) := rfl

theorem events_under (e : Event) (places : List Place) :
    (places.map (Place.under e)).map Place.event = places.map Place.event := by
  simp only [List.map_map, Function.comp_def, under_event]

theorem placesEach_append (first second : List StepTree) :
    placesEach (first ++ second) = placesEach first ++ placesEach second := by
  induction first with
  | nil => rfl
  | cons tree rest ih => simp only [List.cons_append, placesEach, ih, List.append_assoc]

theorem mem_placesEach_append {first second : List StepTree} :
    place ∈ placesEach (first ++ second) ↔ place ∈ placesEach first ∨ place ∈ placesEach second := by
  rw [placesEach_append, List.mem_append]

theorem placesEach_eq_nil_iff : placesEach trees = [] ↔ trees = [] := by
  cases trees with
  | nil => simp
  | cons tree rest =>
    obtain ⟨e, children⟩ := tree
    simp

theorem sizeEach_eq (trees : List StepTree) : sizeEach trees = (placesEach trees).length := by
  induction trees using forest_induction with
  | nil => rfl
  | cons e children rest below beside =>
    simp only [sizeEach, size, placesEach_cons, List.length_append, List.length_cons, List.length_map,
      below, beside]
    omega

theorem preorderEach_eq (depth : Nat) (trees : List StepTree) :
    preorderEach depth trees = (placesEach trees).map fun place => (depth + place.depth, place.event) := by
  induction trees using forest_induction generalizing depth with
  | nil => rfl
  | cons e children rest below beside =>
    simp only [preorderEach, preorderFrom, placesEach_cons, List.map_append, List.map_cons, List.map_map,
      below, beside, Function.comp_def, under_depth, under_event, Nat.add_zero]
    simp only [Nat.add_assoc, Nat.add_comm 1]

theorem preorder_eq (trees : List StepTree) :
    preorder trees = (placesEach trees).map fun place => (place.depth, place.event) := by
  simp only [preorder, preorderEach_eq, Nat.zero_add]

theorem above_eq_none_iff (member : place ∈ placesEach trees) : place.above = none ↔ place.depth = 0 := by
  induction trees using forest_induction with
  | nil => simp at member
  | cons e children rest below beside =>
    rw [mem_placesEach_cons] at member
    rcases member with rfl | ⟨inner, _, rfl⟩ | member
    · simp
    · simp
    · exact beside member

/-- What an event hangs under stands one level above it. -/
theorem above_placed (member : place ∈ placesEach trees) (hangs : place.above = some e) :
    ∃ upper ∈ placesEach trees, upper.event = e ∧ place.depth = upper.depth + 1 := by
  induction trees using forest_induction generalizing place with
  | nil => simp at member
  | cons top children rest below beside =>
    simp only [mem_placesEach_cons] at member ⊢
    rcases member with rfl | ⟨inner, member, rfl⟩ | member
    · simp at hangs
    · cases above : inner.above with
      | none =>
        have first : inner.depth = 0 := (above_eq_none_iff member).mp above
        simp only [under_above, above, Option.getD_none, Option.some.injEq] at hangs
        exact ⟨_, .inl rfl, hangs, by simp [first]⟩
      | some middle =>
        simp only [under_above, above, Option.getD_some, Option.some.injEq] at hangs
        obtain ⟨upper, found, same, deeper⟩ := below member (above.trans (congrArg some hangs))
        exact ⟨upper.under top, .inr (.inl ⟨upper, found, rfl⟩), same, by simp [deeper]⟩
    · obtain ⟨upper, found, same, deeper⟩ := beside member hangs
      exact ⟨upper, .inr (.inr found), same, deeper⟩

theorem root_placed {tree : StepTree} (member : tree ∈ trees) :
    ∃ place ∈ placesEach trees, place.depth = 0 ∧ place.event = tree.event := by
  induction trees with
  | nil => simp at member
  | cons first rest ih =>
    obtain ⟨e, children⟩ := first
    rcases List.mem_cons.mp member with rfl | member
    · exact ⟨⟨0, none, e⟩, by simp, rfl, rfl⟩
    · obtain ⟨place, found, top, same⟩ := ih member
      exact ⟨place, by simp [found], top, same⟩

theorem root_of_top (member : place ∈ placesEach trees) (top : place.depth = 0) :
    place.event ∈ trees.map StepTree.event := by
  induction trees with
  | nil => simp at member
  | cons first rest ih =>
    obtain ⟨e, children⟩ := first
    rw [mem_placesEach_cons] at member
    rcases member with rfl | ⟨inner, _, rfl⟩ | member
    · simp [StepTree.event]
    · simp at top
    · exact List.mem_cons_of_mem _ (ih member)

end LaunchTrace.StepTree
