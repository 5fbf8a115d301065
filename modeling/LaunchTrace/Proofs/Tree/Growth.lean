import LaunchTrace.Proofs.Tree.Places
import Mathlib.Data.List.Perm.Basic

/-! What growing trees from pending events keeps. Every event is either placed or still pending, an event is placed
under the one it belongs to, and nothing that belongs under a placed event stays pending unless that event is on the
last level. -/
namespace LaunchTrace.StepTree
open scoped List

/-- Trees grown to a number of levels, with the events of `queue` at their tops and events of `rest` below, while
those of `left` are still pending. -/
structure Grown (levels : Nat) (queue rest : List Pending) (trees : List StepTree) (left : List Pending) :
    Prop where
  conserved : ((placesEach trees).map Place.event ++ left.map Pending.event).Perm
    ((queue ++ rest).map Pending.event)
  kept : left.Sublist rest
  tops : trees.map StepTree.event = queue.map Pending.event
  linked : ∀ place ∈ placesEach trees, ∀ above, place.above = some above → ⟨above.id, place.event⟩ ∈ rest
  shallow : ∀ place ∈ placesEach trees, place.depth < levels
  closed : ∀ place ∈ placesEach trees, place.depth + 1 < levels → ∀ p ∈ left, p.parent ≠ place.event.id

/-- Trees grown to a number of levels from those events of `rest` that belong under `parent`. -/
structure Taken (levels : Nat) (parent : StepId) (rest : List Pending) (trees : List StepTree)
    (left : List Pending) : Prop where
  conserved : ((placesEach trees).map Place.event ++ left.map Pending.event).Perm (rest.map Pending.event)
  kept : left.Sublist rest
  linked : ∀ place ∈ placesEach trees, ⟨(place.above.map Event.id).getD parent, place.event⟩ ∈ rest
  shallow : ∀ place ∈ placesEach trees, place.depth < levels
  closed : ∀ place ∈ placesEach trees, place.depth + 1 < levels → ∀ p ∈ left, p.parent ≠ place.event.id
  complete : 0 < levels → ∀ p ∈ left, p.parent ≠ parent

variable {levels : Nat} {parent : StepId} {p : Pending} {queue rest middle left : List Pending}
  {trees children : List StepTree}

theorem grown_nil (levels : Nat) (rest : List Pending) : Grown levels [] rest [] rest where
  conserved := List.Perm.refl _
  kept := List.Sublist.refl _
  tops := rfl
  linked := by simp
  shallow := by simp
  closed := by simp

theorem grown_cons (below : Taken levels p.event.id rest children middle)
    (beside : Grown (levels + 1) queue middle trees left) :
    Grown (levels + 1) (p :: queue) rest (.node p.event children :: trees) left where
  conserved := by
    simp only [placesEach_cons, List.cons_append, List.map_cons, List.map_append, events_under,
      List.append_assoc]
    apply List.Perm.cons
    have besides := beside.conserved
    rw [List.map_append] at besides
    calc (placesEach children).map Place.event
          ++ ((placesEach trees).map Place.event ++ left.map Pending.event)
      _ ~ (placesEach children).map Place.event ++ (queue.map Pending.event ++ middle.map Pending.event) :=
        besides.append_left _
      _ ~ queue.map Pending.event ++ ((placesEach children).map Place.event ++ middle.map Pending.event) := by
        simpa only [List.append_assoc] using List.perm_append_comm.append_right (middle.map Pending.event)
      _ ~ queue.map Pending.event ++ rest.map Pending.event := below.conserved.append_left _
  kept := beside.kept.trans below.kept
  tops := by simp only [List.map_cons, StepTree.event, beside.tops]
  linked := by
    intro place member above hangs
    rw [mem_placesEach_cons] at member
    rcases member with rfl | ⟨inner, member, rfl⟩ | member
    · simp at hangs
    · have belongs := below.linked inner member
      simp only [under_above, Option.some.injEq] at hangs
      subst hangs
      cases upper : inner.above <;> simpa [upper] using belongs
    · exact below.kept.subset (beside.linked place member above hangs)
  shallow := by
    intro place member
    rw [mem_placesEach_cons] at member
    rcases member with rfl | ⟨inner, member, rfl⟩ | member
    · exact Nat.succ_pos levels
    · exact Nat.succ_lt_succ (below.shallow inner member)
    · exact beside.shallow place member
  closed := by
    intro place member inside q pending
    have remained := beside.kept.subset pending
    rw [mem_placesEach_cons] at member
    rcases member with rfl | ⟨inner, member, rfl⟩ | member
    · exact below.complete (Nat.lt_of_succ_lt_succ inside) q remained
    · exact below.closed inner member (Nat.lt_of_succ_lt_succ inside) q remained
    · exact beside.closed place member inside q pending

theorem taken_zero (parent : StepId) (rest : List Pending) : Taken 0 parent rest [] rest where
  conserved := List.Perm.refl _
  kept := List.Sublist.refl _
  linked := by simp
  shallow := by simp
  closed := by simp
  complete := by simp

theorem taken_succ
    (grown : Grown (levels + 1) (rest.filter (·.parent = parent)) (rest.filter (·.parent ≠ parent)) trees left) :
    Taken (levels + 1) parent rest trees left where
  conserved := by
    have split : (rest.filter (·.parent = parent) ++ rest.filter (·.parent ≠ parent)).Perm rest := by
      simpa only [ne_eq, decide_not] using
        List.filter_append_perm (fun p : Pending => decide (p.parent = parent)) rest
    exact grown.conserved.trans (split.map _)
  kept := grown.kept.trans List.filter_sublist
  linked := by
    intro place member
    cases hangs : place.above with
    | some above => exact List.filter_sublist.subset (grown.linked place member above hangs)
    | none =>
      have top := root_of_top member ((above_eq_none_iff member).mp hangs)
      rw [grown.tops] at top
      obtain ⟨⟨upper, e⟩, found, same⟩ := List.mem_map.mp top
      obtain ⟨pending, belongs⟩ := List.mem_filter.mp found
      obtain rfl : upper = parent := of_decide_eq_true belongs
      obtain rfl : e = place.event := same
      exact pending
  shallow := grown.shallow
  closed := grown.closed
  complete := by
    intro _ q pending
    exact of_decide_eq_true (List.mem_filter.mp (grown.kept.subset pending)).2

theorem growEach_grown
    (takes : ∀ parent rest, Taken levels parent rest (grow levels parent rest).1 (grow levels parent rest).2)
    (queue rest : List Pending) :
    Grown (levels + 1) queue rest (growEach (grow levels) queue rest).1 (growEach (grow levels) queue rest).2 := by
  induction queue generalizing rest with
  | nil => exact grown_nil _ rest
  | cons p queue ih => exact grown_cons (takes p.event.id rest) (ih _)

theorem grow_taken (levels : Nat) (parent : StepId) (rest : List Pending) :
    Taken levels parent rest (grow levels parent rest).1 (grow levels parent rest).2 := by
  induction levels generalizing parent rest with
  | zero => exact taken_zero parent rest
  | succ levels ih => exact taken_succ (growEach_grown ih _ _)

end LaunchTrace.StepTree
