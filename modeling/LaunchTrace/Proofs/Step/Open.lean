import LaunchTrace.Proofs.Keyed
import LaunchTrace.Step.Operation
import Mathlib.Data.List.Induction

/-! What is open after any pushes and removals, in whatever order they come and whatever their ids are. A removal closes
the last push of its id that is open, so pushes and removals of an id pair up like brackets: a push stays open if among
the operations behind it every removal of its id finds a push. -/
namespace LaunchTrace

namespace OpenOperation

/-- The ids in the order of their pushes. -/
def pushedIds : List OpenOperation → List StepId
  | [] => []
  | .push id :: later => id :: pushedIds later
  | .remove _ :: later => pushedIds later

/-- How many removals of the id find no push of it among the operations. -/
def unmatched (id : StepId) : List OpenOperation → Nat
  | [] => 0
  | .push other :: later => if other = id then unmatched id later - 1 else unmatched id later
  | .remove other :: later => if other = id then unmatched id later + 1 else unmatched id later

/-- Nothing that comes later closes a push of the id. Nothing ever closes the root. -/
def Lasts (id : StepId) (later : List OpenOperation) : Prop :=
  id = rootId ∨ unmatched id later = 0

instance (id : StepId) (later : List OpenOperation) : Decidable (Lasts id later) :=
  inferInstanceAs (Decidable (_ ∨ _))

/-- The operation at the place is a push of the id that nothing behind it closes. -/
def Unclosed (ops : List OpenOperation) (place : Nat) (id : StepId) : Prop :=
  ops[place]? = some (.push id) ∧ Lasts id (ops.drop (place + 1))

/-- The pushes that nothing closes, with their places, the last one first. -/
def unclosedFrom (place : Nat) : List OpenOperation → List (Nat × StepId)
  | [] => []
  | .push id :: later => unclosedFrom (place + 1) later ++ if Lasts id later then [(place, id)] else []
  | .remove _ :: later => unclosedFrom (place + 1) later

def unclosed (ops : List OpenOperation) : List (Nat × StepId) :=
  unclosedFrom 0 ops

variable {ops later : List OpenOperation} {id other : StepId} {place n : Nat} {entry : Nat × StepId}

theorem unclosed_first : Unclosed (.push other :: later) 0 id ↔ other = id ∧ Lasts id later := by
  simp [Unclosed]

theorem unclosed_later {op : OpenOperation} : Unclosed (op :: later) (place + 1) id ↔ Unclosed later place id :=
  Iff.rfl

theorem mem_unclosedFrom : (n, id) ∈ unclosedFrom place ops ↔ ∃ k, n = place + k ∧ Unclosed ops k id := by
  induction ops generalizing place with
  | nil => simp [unclosedFrom, Unclosed]
  | cons op later ih =>
    -- The places behind the first operation are those of the others, moved on by one.
    have others : (n, id) ∈ unclosedFrom (place + 1) later ↔
        ∃ k, n = place + (k + 1) ∧ Unclosed (op :: later) (k + 1) id := by
      simp only [ih, unclosed_later, Nat.add_comm, Nat.add_left_comm]
    cases op with
    | push pushed =>
      rw [unclosedFrom, List.mem_append, others]
      constructor
      · rintro (⟨k, rfl, still⟩ | first)
        · exact ⟨k + 1, rfl, still⟩
        · split at first
          · rename_i lasts
            obtain ⟨rfl, rfl⟩ := Prod.mk.inj (List.mem_singleton.mp first)
            exact ⟨0, rfl, unclosed_first.mpr ⟨rfl, lasts⟩⟩
          · contradiction
      · rintro ⟨k, rfl, still⟩
        cases k with
        | zero =>
          obtain ⟨rfl, lasts⟩ := unclosed_first.mp still
          simp [lasts]
        | succ k => exact .inl ⟨k, rfl, still⟩
    | remove removed =>
      rw [unclosedFrom, others]
      constructor
      · rintro ⟨k, rfl, still⟩
        exact ⟨k + 1, rfl, still⟩
      · rintro ⟨k, rfl, still⟩
        cases k with
        | zero => simp [Unclosed] at still
        | succ k => exact ⟨k, rfl, still⟩

theorem mem_unclosed : (place, id) ∈ unclosed ops ↔ Unclosed ops place id := by
  simp [unclosed, mem_unclosedFrom]

theorem unclosedFrom_descending (place : Nat) (ops : List OpenOperation) :
    (unclosedFrom place ops).Pairwise (·.1 > ·.1) := by
  induction ops generalizing place with
  | nil => exact List.Pairwise.nil
  | cons op later ih =>
    cases op with
    | push id =>
      rw [unclosedFrom, List.pairwise_append]
      refine ⟨ih (place + 1), by split <;> simp, ?_⟩
      rintro ⟨n, other⟩ member entry last
      obtain ⟨k, rfl, _⟩ := mem_unclosedFrom.mp member
      have first : entry.1 = place := by
        split at last
        · rw [List.mem_singleton.mp last]
        · simp at last
      omega
    | remove id => exact ih (place + 1)

/-! ## One more operation -/

theorem unmatched_push (ops : List OpenOperation) : unmatched id (ops ++ [.push other]) = unmatched id ops := by
  induction ops with
  | nil => simp [unmatched]
  | cons op later ih => cases op <;> simp only [List.cons_append, unmatched, ih]

theorem unmatched_remove_of_ne (different : other ≠ id) (ops : List OpenOperation) :
    unmatched id (ops ++ [.remove other]) = unmatched id ops := by
  induction ops with
  | nil => simp [unmatched, different]
  | cons op later ih => cases op <;> simp only [List.cons_append, unmatched, ih]

theorem lasts_push (later : List OpenOperation) : Lasts id (later ++ [.push other]) ↔ Lasts id later := by
  rw [Lasts, Lasts, unmatched_push]

theorem unclosedFrom_push (place : Nat) (ops : List OpenOperation) :
    unclosedFrom place (ops ++ [.push id]) = (place + ops.length, id) :: unclosedFrom place ops := by
  induction ops generalizing place with
  | nil => simp [unclosedFrom, Lasts, unmatched]
  | cons op later ih =>
    have length : place + 1 + later.length = place + (later.length + 1) := by omega
    cases op with
    | push first => simp [unclosedFrom, ih, lasts_push, length]
    | remove first => simp [unclosedFrom, ih, length]

/-- A push leaves nothing open but its own id. -/
theorem unopened_of_ne (different : other ≠ id) :
    id ∉ (if Lasts other later then [(place, other)] else []).map Prod.snd := by
  split <;> simp [Ne.symm different]

theorem unmatched_remove (inner : id ≠ rootId) (place : Nat) (ops : List OpenOperation) :
    unmatched id (ops ++ [.remove id]) =
      if id ∈ (unclosedFrom place ops).map Prod.snd then unmatched id ops else unmatched id ops + 1 := by
  induction ops generalizing place with
  | nil => simp [unmatched, unclosedFrom]
  | cons op later ih =>
    cases op with
    | push first =>
      simp only [List.cons_append, unmatched, ih (place + 1), unclosedFrom, List.map_append, List.mem_append]
      by_cases same : first = id
      · subst same
        by_cases known : first ∈ (unclosedFrom (place + 1) later).map Prod.snd
        · simp [known]
        · by_cases alone : unmatched first later = 0
          · simp [known, alone, Lasts]
          · have gone : ¬Lasts first later := by simp [Lasts, inner, alone]
            simp only [known, gone, if_true, if_false, List.map_nil, List.not_mem_nil, or_false]
            omega
      · simp only [same, if_false, unopened_of_ne same, or_false]
    | remove first =>
      simp only [List.cons_append, unmatched, ih (place + 1), unclosedFrom]
      by_cases same : first = id
      · simp only [same, if_true]
        split <;> rfl
      · simp only [same, if_false]

theorem lasts_remove_of_ne (different : other ≠ id) (later : List OpenOperation) :
    Lasts id (later ++ [.remove other]) ↔ Lasts id later := by
  rw [Lasts, Lasts, unmatched_remove_of_ne different]

/-- A further removal closes the last push of its id that is open. -/
theorem unclosedFrom_remove (inner : id ≠ rootId) (place : Nat) (ops : List OpenOperation) :
    unclosedFrom place (ops ++ [.remove id]) = (unclosedFrom place ops).eraseP (·.2 = id) := by
  induction ops generalizing place with
  | nil => rfl
  | cons op later ih =>
    cases op with
    | push first =>
      have known : (unclosedFrom (place + 1) later).any (·.2 = id) = true ↔
          id ∈ (unclosedFrom (place + 1) later).map Prod.snd := by simp
      simp only [List.cons_append, unclosedFrom, ih, List.eraseP_append, known]
      by_cases same : first = id
      · subst same
        simp only [Lasts, inner, false_or, unmatched_remove inner (place + 1)]
        by_cases member : first ∈ (unclosedFrom (place + 1) later).map Prod.snd
        · simp only [member, if_true]
        · simp only [member, if_false, Keyed.eraseP_absent member, Nat.succ_ne_zero, List.append_nil]
          split <;> simp
      · simp only [lasts_remove_of_ne (Ne.symm same), Keyed.eraseP_absent (unopened_of_ne same)]
        by_cases member : id ∈ (unclosedFrom (place + 1) later).map Prod.snd
        · simp only [member, if_true]
        · simp only [member, if_false, Keyed.eraseP_absent member]
    | remove first => exact ih (place + 1)

theorem unclosedFrom_remove_root (place : Nat) (ops : List OpenOperation) :
    unclosedFrom place (ops ++ [.remove rootId]) = unclosedFrom place ops := by
  have lasts (id : StepId) (later : List OpenOperation) : Lasts id (later ++ [.remove rootId]) ↔ Lasts id later := by
    by_cases root : id = rootId
    · simp [Lasts, root]
    · exact lasts_remove_of_ne (Ne.symm root) later
  induction ops generalizing place with
  | nil => rfl
  | cons op later ih => cases op <;> simp [unclosedFrom, ih, lasts]

/-! ## Distinct ids -/

/-- The operation at the place is a push of the id, and no removal of the id has come since. -/
def Remains (ops : List OpenOperation) (place : Nat) (id : StepId) : Prop :=
  ops[place]? = some (.push id) ∧ .remove id ∉ ops.drop (place + 1)

/-- The last pushed of the ids that have not been removed since, or the root if all have been. -/
def Latest (ops : List OpenOperation) (id : StepId) : Prop :=
  (∃ place, Remains ops place id ∧ ∀ n other, Remains ops n other → n ≤ place) ∨
    id = rootId ∧ ∀ n other, ¬Remains ops n other

theorem pushedIds_append (front back : List OpenOperation) :
    pushedIds (front ++ back) = pushedIds front ++ pushedIds back := by
  induction front with
  | nil => rfl
  | cons op front ih => cases op <;> simp [pushedIds, ih]

theorem pushedIds_split (found : ops[place]? = some (.push id)) :
    pushedIds ops = pushedIds (ops.take place) ++ id :: pushedIds (ops.drop (place + 1)) := by
  obtain ⟨inside, there⟩ := List.getElem?_eq_some_iff.mp found
  conv => lhs; rw [← List.take_append_drop place ops, List.drop_eq_getElem_cons inside, there]
  rw [pushedIds_append, pushedIds]

/-- Removals of an id all lack a push among operations that do not push it. -/
theorem unmatched_eq_zero (unpushed : id ∉ pushedIds later) : unmatched id later = 0 ↔ .remove id ∉ later := by
  induction later with
  | nil => simp [unmatched]
  | cons op later ih =>
    cases op with
    | push other =>
      obtain ⟨different, unpushed⟩ := not_or.mp (List.mem_cons.not.mp unpushed)
      simp [unmatched, Ne.symm different, ih unpushed]
    | remove other => by_cases same : other = id <;> simp [unmatched, same, Ne.symm, ih unpushed]

theorem unclosed_iff_remains (distinct : (pushedIds ops).Nodup) (inner : rootId ∉ pushedIds ops) :
    Unclosed ops place id ↔ Remains ops place id := by
  apply and_congr_right
  intro found
  rw [pushedIds_split found] at distinct inner
  have unpushed := (List.nodup_cons.mp (List.nodup_append.mp distinct).2.1).1
  have other : id ≠ rootId := by
    rintro rfl
    exact inner (List.mem_append_right _ List.mem_cons_self)
  simp [Lasts, other, unmatched_eq_zero unpushed]

theorem latest_of_unclosed (distinct : (pushedIds ops).Nodup) (inner : rootId ∉ pushedIds ops) :
    Latest ops (((unclosed ops).map Prod.snd).headD rootId) := by
  have known : ∀ n other, Remains ops n other ↔ (n, other) ∈ unclosed ops := fun n other =>
    (unclosed_iff_remains distinct inner).symm.trans mem_unclosed.symm
  simp only [Latest, known]
  have descending := unclosedFrom_descending 0 ops
  rw [← unclosed] at descending
  cases stack : unclosed ops with
  | nil => exact .inr ⟨rfl, fun n other => List.not_mem_nil⟩
  | cons first rest =>
    rw [stack] at descending
    refine .inl ⟨first.1, List.mem_cons_self, ?_⟩
    intro n other member
    rcases List.mem_cons.mp member with rfl | member
    · exact Nat.le_refl _
    · exact Nat.le_of_lt ((List.pairwise_cons.mp descending).1 _ member)

theorem Latest.ne (latest : Latest ops other) (fresh : id ∉ pushedIds ops) (inner : id ≠ rootId) : other ≠ id := by
  rintro rfl
  rcases latest with ⟨place, ⟨found, _⟩, _⟩ | ⟨root, _⟩
  · exact fresh (pushedIds_split found ▸ List.mem_append_right _ List.mem_cons_self)
  · exact inner root

end OpenOperation

namespace OpenSteps
open OpenOperation

variable {o : OpenSteps} {ops : List OpenOperation} {id : StepId}

theorem remove_root (o : OpenSteps) : o.remove rootId = (false, o) := by
  simp [remove]

theorem remove_eq_erase (inner : id ≠ rootId) : o.remove id = (decide (id ∈ o.ids), ⟨o.ids.erase id⟩) := by
  unfold remove
  split
  · rename_i known
    simp [known.2]
  · rename_i missing
    have absent : id ∉ o.ids := fun member => missing ⟨inner, member⟩
    simp [absent, List.erase_of_not_mem absent]

theorem mem_snapshot (inner : id ≠ rootId) : id ∈ o.snapshot ↔ id ∈ o.ids := by
  simp [snapshot, inner]

theorem removed_iff : (o.remove id).1 = true ↔ id ≠ rootId ∧ id ∈ o.snapshot := by
  by_cases root : id = rootId
  · simp [root, remove_root]
  · simp [root, remove_eq_erase root, mem_snapshot root]

theorem remove_of_missing (missing : (o.remove id).1 = false) : (o.remove id).2 = o := by
  unfold remove at missing ⊢
  split at missing
  · cases missing
  · rename_i absent
    rw [if_neg absent]

theorem head?_snapshot (o : OpenSteps) : o.snapshot.head? = some o.head := by
  obtain ⟨ids⟩ := o
  cases ids <;> rfl

theorem snapshot_remove (inner : id ≠ rootId) : (o.remove id).2.snapshot = o.snapshot.erase id := by
  rw [remove_eq_erase inner, snapshot, snapshot]
  by_cases member : id ∈ o.ids
  · rw [List.erase_append_left _ member]
  · rw [List.erase_append_right _ member, List.erase_of_not_mem member, List.erase_of_not_mem (by simpa using inner)]

theorem erase_ids (entries : List (Nat × StepId)) (id : StepId) :
    (entries.map Prod.snd).erase id = (entries.eraseP (·.2 = id)).map Prod.snd := by
  rw [List.erase_eq_eraseP', List.eraseP_map]
  rfl

/-! ## Runs -/

theorem run_concat (o : OpenSteps) (ops : List OpenOperation) (op : OpenOperation) :
    o.run (ops ++ [op]) = ((o.run ops).1 ++ [((o.run ops).2.apply op).1], ((o.run ops).2.apply op).2) := by
  induction ops generalizing o with
  | nil => rfl
  | cons first ops ih => simp only [List.cons_append, run, ih]

/-- The open steps are the pushes that nothing has closed. -/
theorem run_unclosed (ops : List OpenOperation) : (empty.run ops).2.ids = (unclosed ops).map Prod.snd := by
  simp only [unclosed]
  induction ops using List.reverseRecOn with
  | nil => rfl
  | append_singleton ops op ih =>
    rw [run_concat]
    cases op with
    | push id => simp only [apply, push, unclosedFrom_push, ih, List.map_cons]
    | remove id =>
      by_cases root : id = rootId
      · rw [root, unclosedFrom_remove_root]
        simpa only [apply, remove_root] using ih
      · simp only [apply, remove_eq_erase root, ih, erase_ids, unclosedFrom_remove root]

/-- A push adds one to the open steps, and a removal that finds something takes one away. -/
theorem apply_depth (o : OpenSteps) (op : OpenOperation) :
    (o.apply op).2.depth + [(o.apply op).1].count (.removed true) = o.depth + (pushedIds [op]).length := by
  cases op with
  | push id => rfl
  | remove id =>
    cases found : (o.remove id).1 with
    | true =>
      obtain ⟨inner, member⟩ := removed_iff.mp found
      rw [mem_snapshot inner] at member
      have shallower : (o.remove id).2.depth + 1 = o.depth := by
        rw [remove_eq_erase inner]
        exact List.length_erase_add_one member
      simpa [apply, found, pushedIds] using shallower
    | false => simp [apply, found, remove_of_missing found, pushedIds]

theorem run_depth (ops : List OpenOperation) :
    (empty.run ops).2.depth + (empty.run ops).1.count (.removed true) = (pushedIds ops).length := by
  induction ops using List.reverseRecOn with
  | nil => rfl
  | append_singleton ops op ih =>
    have last := apply_depth (empty.run ops).2 op
    simp only [run_concat, List.count_append, pushedIds_append, List.length_append]
    omega

end OpenSteps

namespace OpenQueue

variable {q : OpenQueue} {id : StepId}

theorem remove_eq_erase (inner : id ≠ rootId) : q.remove id = (decide (id ∈ q.ids), ⟨q.ids.erase id⟩) := by
  rw [remove, if_neg inner, List.erase_eq_eraseIdx]
  cases found : q.ids.idxOf? id with
  | none => simp [List.idxOf?_eq_none_iff.mp found]
  | some place =>
    have member : id ∈ q.ids := by
      by_contra absent
      simp [List.idxOf?_eq_none_iff.mpr absent] at found
    simp [member]

/-- The queue answers as the open steps do and holds what their snapshot shows. -/
theorem apply_snapshot (o : OpenSteps) (op : OpenOperation) :
    (⟨o.snapshot⟩ : OpenQueue).apply op = ((o.apply op).1, ⟨(o.apply op).2.snapshot⟩) := by
  cases op with
  | push id =>
    have head : (⟨o.snapshot⟩ : OpenQueue).head = o.head := by
      rw [OpenQueue.head, List.headD_eq_head?_getD, o.head?_snapshot, Option.getD_some]
    simp only [apply, push, head]
    rfl
  | remove id =>
    by_cases root : id = rootId
    · simp [apply, remove, root, OpenSteps.apply, OpenSteps.remove_root]
    · have answers : decide (id ∈ o.snapshot) = (o.remove id).1 := by
        simp only [OpenSteps.remove_eq_erase root, OpenSteps.mem_snapshot root]
      simp only [apply, remove_eq_erase root, OpenSteps.apply, OpenSteps.snapshot_remove root, answers]

theorem depth_snapshot (o : OpenSteps) : (⟨o.snapshot⟩ : OpenQueue).depth = o.depth := by
  simp [depth, OpenSteps.snapshot, OpenSteps.depth]

theorem run_snapshot (o : OpenSteps) (ops : List OpenOperation) :
    (⟨o.snapshot⟩ : OpenQueue).run ops = ((o.run ops).1, ⟨(o.run ops).2.snapshot⟩) := by
  induction ops generalizing o with
  | nil => rfl
  | cons op ops ih => simp only [run, apply_snapshot, ih, OpenSteps.run]

end OpenQueue

namespace OpenSteps
open OpenOperation

variable {ops : List OpenOperation} {replies : List OpenReply} {o : OpenSteps}

/-- A removal closes the last push of its id that is open, and leaves the others in their order. Where none is open it
finds nothing, nor does it find the root. -/
structure Removal (ops : List OpenOperation) (o : OpenSteps) (id : StepId) : Prop where
  finds : (o.remove id).1 = true ↔ id ≠ rootId ∧ id ∈ o.snapshot
  takes : (o.remove id).1 = true → ∃ place front back, unclosed ops = front ++ (place, id) :: back ∧
    (∀ entry ∈ front, entry.2 ≠ id) ∧ (o.remove id).2.snapshot = (front ++ back).map Prod.snd ++ [rootId]
  leaves : (o.remove id).1 = false → (o.remove id).2 = o

theorem removal_of_unclosed (shown : o.ids = (unclosed ops).map Prod.snd) (id : StepId) : Removal ops o id where
  finds := removed_iff
  takes := by
    intro found
    obtain ⟨inner, member⟩ := removed_iff.mp found
    rw [mem_snapshot inner, shown] at member
    obtain ⟨entry, there, named⟩ := List.mem_map.mp member
    obtain ⟨⟨place, other⟩, front, back, before, same, split, rest⟩ :=
      List.exists_of_eraseP (p := (·.2 = id)) there (by simpa using named)
    obtain rfl : other = id := by simpa using same
    refine ⟨place, front, back, split, by simpa using before, ?_⟩
    rw [remove_eq_erase inner, snapshot, shown, erase_ids, rest]
  leaves := remove_of_missing

/-- After any pushes and removals, the snapshot has the root at its end and before it the pushes that nothing has
closed, the last one first. A push goes in front and returns what was there. Where ids are pushed only once, it returns
the last pushed id that has not been removed, or the root. All is the same where the ids lie in one queue with the
root. -/
theorem run_stack (ops : List OpenOperation) (ran : empty.run ops = (replies, o)) :
    OpenQueue.empty.run ops = (replies, ⟨o.snapshot⟩) ∧ (⟨o.snapshot⟩ : OpenQueue).depth = o.depth ∧
      o.snapshot.getLast? = some rootId ∧ o.snapshot = (unclosed ops).map Prod.snd ++ [rootId] ∧
      (unclosed ops).Pairwise (·.1 > ·.1) ∧ (∀ place id, (place, id) ∈ unclosed ops ↔ Unclosed ops place id) ∧
      (∀ id, o.snapshot.head? = some (o.push id).1 ∧ (o.push id).2.snapshot = id :: o.snapshot) ∧
      (∀ id, Removal ops o id) ∧ o.remove rootId = (false, o) ∧
      o.depth + replies.count (.removed true) = (pushedIds ops).length ∧
      ∀ id, (pushedIds (ops ++ [.push id])).Nodup → rootId ∉ pushedIds (ops ++ [.push id]) →
        (o.push id).1 ≠ id ∧ Latest ops (o.push id).1 := by
  have shown := run_unclosed ops
  have counted := run_depth ops
  have queued : OpenQueue.empty.run ops = _ := OpenQueue.run_snapshot empty ops
  rw [ran] at shown counted queued
  refine ⟨queued, OpenQueue.depth_snapshot o, List.getLast?_concat, by rw [snapshot, shown],
    unclosedFrom_descending 0 ops, fun place id => mem_unclosed, fun id => ⟨o.head?_snapshot, rfl⟩,
    removal_of_unclosed shown, o.remove_root, counted, ?_⟩
  intro id distinct inner
  rw [pushedIds_append] at distinct inner
  obtain ⟨before, _, apart⟩ := List.nodup_append.mp distinct
  have latest : Latest ops (o.push id).1 := by
    rw [push, head, shown]
    exact latest_of_unclosed before fun member => inner (List.mem_append_left _ member)
  have fresh : id ∉ pushedIds ops := fun again => apart id again id List.mem_cons_self rfl
  exact ⟨latest.ne fresh fun root => inner (List.mem_append_right _ (root ▸ List.mem_cons_self)), latest⟩

/-- Steps that start in another order than that of their ids, and end crosswise. -/
def crossed : List OpenOperation :=
  [.push 2, .push 1, .push 3, .remove 1, .remove 0, .remove 9, .remove 3, .remove 3]

theorem crossed_stack : ∃ replies o, empty.run crossed = (replies, o) ∧ o.snapshot = [2, 0] ∧
    (o.push 4).1 = 2 ∧ (o.push 4).1 ≠ 4 ∧ Latest crossed (o.push 4).1 := by
  obtain ⟨_, _, _, shown, _, _, _, _, _, _, latest⟩ := run_stack crossed rfl
  exact ⟨_, _, rfl, shown.trans (by decide +kernel), rfl, latest 4 (by decide +kernel) (by decide +kernel)⟩

/-- Of two pushes of one id, the later is taken back first. -/
example : (empty.run [.push 1, .push 2, .push 1, .remove 1]).2.snapshot = [2, 1, 0] := by decide +kernel

end OpenSteps
end LaunchTrace
