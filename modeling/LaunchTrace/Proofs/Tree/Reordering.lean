import LaunchTrace.Proofs.Tree.Ancestry
import LaunchTrace.Proofs.Tree.Groups

/-! The trees of a recording do not depend on the order in which its events were committed, as long as events with
equal ids keep theirs. -/
namespace LaunchTrace.StepTree
open scoped List
open Sorting

variable {first second : List Event}

/-- The same events, those with equal ids in the same order. -/
structure Reordered (first second : List Event) : Prop where
  perm : first ~ second
  same : ∀ e ∈ first, first.filter (·.id = e.id) = second.filter (·.id = e.id)

/-- Of ids that are not recorded there are no events at all. -/
theorem Reordered.filter_eq (reordered : Reordered first second) (id : StepId) :
    first.filter (·.id = id) = second.filter (·.id = id) := by
  by_cases recorded : ∃ e ∈ first, e.id = id
  · obtain ⟨e, member, rfl⟩ := recorded
    exact reordered.same e member
  · have missing : first.filter (·.id = id) = [] :=
      List.filter_eq_nil_iff.mpr fun e member same => recorded ⟨e, member, of_decide_eq_true same⟩
    have none := reordered.perm.filter (·.id = id)
    rw [missing] at none ⊢
    exact (List.nil_perm.mp none).symm

/-- Where ids are distinct, events may come in any order. -/
theorem reordered_of_distinct (perm : first ~ second) (distinct : (first.map Event.id).Nodup) :
    Reordered first second := by
  refine ⟨perm, fun e _ => (perm.filter _).eq_of_pairwise ?_ (List.pairwise_of_forall fun _ _ => trivial)
    (List.pairwise_of_forall fun _ _ => trivial)⟩
  intro a b left right _ _
  obtain ⟨here, one⟩ := List.mem_filter.mp left
  obtain ⟨there, other⟩ := List.mem_filter.mp right
  have equal : a.id = b.id := (of_decide_eq_true one).trans (of_decide_eq_true other).symm
  exact List.inj_on_of_nodup_map distinct here (perm.symm.subset there) equal

/-- What an event is pending under depends on which ids are recorded, and not on their order. -/
theorem pending_eq (perm : first ~ second) :
    pending second = second.map fun e => ⟨if first.any (·.id = e.parentId) then e.parentId else rootId, e⟩ := by
  refine List.map_congr_left fun e _ => ?_
  rw [perm.any_eq]

theorem pending_reordered (reordered : Reordered first second) (id : StepId) :
    (pending first).filter (·.event.id = id) = (pending second).filter (·.event.id = id) := by
  rw [pending_eq reordered.perm, pending, List.filter_map, List.filter_map]
  exact congrArg (List.map _) (reordered.filter_eq id)

/-- The order of pending events does not tell apart those with equal ids that belong under one parent. -/
theorem level_pending (p q : Pending) :
    level Pending.le p q = (decide (q.parent = p.parent) && decide (q.event.id = p.event.id)) := by
  rw [Bool.eq_iff_iff, level_iff, le_iff, le_iff, Bool.and_eq_true, decide_eq_true_eq, decide_eq_true_eq,
    UInt64.lt_iff_toNat_lt, UInt64.lt_iff_toNat_lt, UInt64.le_iff_toNat_le, UInt64.le_iff_toNat_le,
    ← UInt64.toNat_inj, ← UInt64.toNat_inj, ← UInt64.toNat_inj]
  omega

theorem sorted_reordered (reordered : Reordered first second) : sorted first = sorted second := by
  have same (p : Pending) : (pending first).filter (level Pending.le p) = (pending second).filter (level Pending.le p) := by
    have level (events : List Event) : (pending events).filter (level Pending.le p) =
        ((pending events).filter (·.event.id = p.event.id)).filter (·.parent = p.parent) := by
      rw [List.filter_filter]
      exact List.filter_congr fun q _ => level_pending p q
    rw [level, level, pending_reordered reordered]
  refine eq_mergeSort (fun _ _ _ => le_trans) le_total (sorted_ordered first) fun p => ?_
  rw [← same]
  exact @filter_mergeSort Pending Pending.le (fun _ _ _ => le_trans) le_total p (pending first)

/-- Recordings that differ only in the order of events with different ids have the same trees and look the same. -/
theorem ofEvents_reordered
    (reordered : Reordered first second ∨ first ~ second ∧ (first.map Event.id).Nodup) :
    ofEvents first = ofEvents second ∧ ofGroups first = ofGroups second ∧
      render (ofEvents first) = render (ofEvents second) := by
  have reordered : Reordered first second := reordered.elim id fun ⟨perm, distinct⟩ =>
    reordered_of_distinct perm distinct
  have same : ofEvents first = ofEvents second := by
    rw [ofEvents_eq, ofEvents_eq, promoted, promoted, attached, attached, sorted_reordered reordered]
  refine ⟨same, ?_, congrArg render same⟩
  rw [ofGroups_eq, ofGroups_eq, same]

/-- Two events with one id, a circle, and an event whose parent is not recorded. -/
def tangled : List Event :=
  [link 4 5, link 2 9, link 3 2, link 3 7, link 5 4]

/-- The same events, those with one id in the same order. -/
def untangled : List Event :=
  [link 5 4, link 3 2, link 4 5, link 3 7, link 2 9]

theorem ofEvents_tangled :
    Reordered tangled untangled ∧ ofEvents tangled = ofEvents untangled ∧
      ofGroups tangled = ofGroups untangled ∧ render (ofEvents tangled) = render (ofEvents untangled) := by
  have reordered : Reordered tangled untangled := ⟨by decide, by decide⟩
  exact ⟨reordered, ofEvents_reordered (.inl reordered)⟩

end LaunchTrace.StepTree
