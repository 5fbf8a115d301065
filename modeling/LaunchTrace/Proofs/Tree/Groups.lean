import LaunchTrace.Proofs.Sorting
import LaunchTrace.Proofs.Tree.Conservation
import LaunchTrace.Step.Groups

/-! Groups of siblings hold what is pending. The first event of all that are pending in their order is the lowest of
those that come first in the groups, so that both ways to grow the trees of a recording have the same result. -/
namespace LaunchTrace.StepTree
open Sorting

variable {events : List Event} {e : Event} {parent other : StepId} {groups : List Group} {g : Group} {n : Nat}
  {p q : Pending} {queue rest : List Pending}

/-! ## Single groups -/

namespace Group

theorem siblingsOf_add (parent other : StepId) (e : Event) (groups : List Group) :
    siblingsOf other (add parent e groups) =
      if other = parent then siblingsOf parent groups ++ [e] else siblingsOf other groups := by
  induction groups with
  | nil =>
    by_cases same : other = parent
    · simp [add, siblingsOf, same]
    · simp [add, siblingsOf, same, Ne.symm same]
  | cons g rest ih =>
    by_cases found : g.parent = parent
    · by_cases same : other = parent
      · simp [add, siblingsOf, found, same]
      · simp [add, siblingsOf, found, same, Ne.symm same]
    · simp only [add, if_neg found, siblingsOf, ih]
      by_cases same : other = parent
      · simp [same, found]
      · simp [same]

theorem parents_add (parent : StepId) (e : Event) (groups : List Group) :
    (add parent e groups).map Group.parent =
      if parent ∈ groups.map Group.parent then groups.map Group.parent else groups.map Group.parent ++ [parent] := by
  induction groups with
  | nil => rfl
  | cons g rest ih =>
    by_cases found : g.parent = parent
    · simp [add, found]
    · simp only [add, if_neg found, List.map_cons, ih, List.mem_cons, Ne.symm found, false_or]
      split
      · rfl
      · rfl

theorem add_distinct (distinct : (groups.map Group.parent).Nodup) (parent : StepId) (e : Event) :
    ((add parent e groups).map Group.parent).Nodup := by
  rw [parents_add]
  split
  · exact distinct
  · next fresh => exact List.nodup_append.mpr ⟨distinct, List.nodup_singleton _, by simpa using fresh⟩

theorem siblingsOf_arranged (parent : StepId) (groups : List Group) :
    siblingsOf parent (groups.map arranged) = (siblingsOf parent groups).mergeSort byId := by
  induction groups with
  | nil => simp [siblingsOf]
  | cons g rest ih =>
    rw [List.map_cons, siblingsOf, siblingsOf, ih]
    by_cases found : g.parent = parent
    · rw [if_pos found]
      exact if_pos found
    · rw [if_neg found]
      exact if_neg found

theorem siblingsOf_of_mem (distinct : (groups.map Group.parent).Nodup) (member : g ∈ groups) :
    siblingsOf g.parent groups = g.siblings := by
  induction groups with
  | nil => contradiction
  | cons first rest ih =>
    obtain ⟨absent, distinct⟩ := List.nodup_cons.mp distinct
    rcases List.mem_cons.mp member with rfl | member
    · exact if_pos rfl
    · have apart : first.parent ≠ g.parent := fun same => absent (same ▸ List.mem_map_of_mem member)
      rw [siblingsOf, if_neg apart, ih distinct member]

theorem mem_of_siblingsOf (some : siblingsOf parent groups ≠ []) :
    ⟨parent, siblingsOf parent groups⟩ ∈ groups := by
  induction groups with
  | nil => exact absurd rfl some
  | cons first rest ih =>
    rw [siblingsOf] at some ⊢
    split
    · next found => exact found ▸ List.mem_cons_self
    · next missing =>
      rw [if_neg missing] at some
      exact List.mem_cons_of_mem _ (ih some)

theorem siblingsOf_remove (parent other : StepId) (groups : List Group) :
    siblingsOf other (groups.filter (·.parent ≠ parent)) = if other = parent then [] else siblingsOf other groups := by
  induction groups with
  | nil => simp [siblingsOf]
  | cons g rest ih =>
    by_cases found : g.parent = parent
    · rw [List.filter_cons_of_neg (by simpa using found), ih, siblingsOf]
      by_cases same : other = parent
      · simp [same]
      · have apart : g.parent ≠ other := fun equal => same (equal.symm.trans found)
        simp [same, apart]
    · rw [List.filter_cons_of_pos (by simpa using found), siblingsOf, siblingsOf, ih]
      by_cases same : other = parent
      · simp [same, found]
      · simp [same]

theorem siblingsOf_of_notMem (absent : parent ∉ groups.map Group.parent) : siblingsOf parent groups = [] := by
  by_contra some
  exact absent (List.mem_map_of_mem (mem_of_siblingsOf some))

theorem dropFirst_cons (found : g.parent = parent) (rest : List Group) :
    dropFirst parent (g :: rest) = if g.siblings.tail = [] then rest else ⟨parent, g.siblings.tail⟩ :: rest := by
  rw [dropFirst, if_pos found]
  cases g.siblings.tail with
  | nil => rfl
  | cons first more => rfl

theorem siblingsOf_dropFirst (distinct : (groups.map Group.parent).Nodup) (parent other : StepId) :
    siblingsOf other (dropFirst parent groups) =
      if other = parent then (siblingsOf parent groups).tail else siblingsOf other groups := by
  induction groups with
  | nil => simp [dropFirst, siblingsOf]
  | cons g rest ih =>
    obtain ⟨absent, distinct⟩ := List.nodup_cons.mp distinct
    by_cases found : g.parent = parent
    · have gone : siblingsOf parent rest = [] := siblingsOf_of_notMem (found ▸ absent)
      rw [dropFirst_cons found]
      by_cases same : other = parent
      · by_cases last : g.siblings.tail = []
        · simp [siblingsOf, found, same, last, gone]
        · simp [siblingsOf, found, same, last]
      · have apart : parent ≠ other := Ne.symm same
        by_cases last : g.siblings.tail = []
        · simp [siblingsOf, found, same, last, apart]
        · simp [siblingsOf, found, same, last, apart]
    · rw [dropFirst, if_neg found, siblingsOf, siblingsOf, siblingsOf, ih distinct, if_neg found]
      by_cases same : other = parent
      · simp [same, found]
      · simp [same]

theorem dropFirst_sublist (parent : StepId) (groups : List Group) :
    ((dropFirst parent groups).map Group.parent).Sublist (groups.map Group.parent) := by
  induction groups with
  | nil => exact List.Sublist.refl _
  | cons g rest ih =>
    by_cases found : g.parent = parent
    · rw [dropFirst_cons found]
      split
      · exact List.sublist_cons_self _ _
      · rw [List.map_cons, List.map_cons, found]
    · rw [dropFirst, if_neg found]
      exact ih.cons_cons _

end Group

/-! ## What groups hold -/

/-- Each parent has a group with the events that are pending under it, in their order. -/
structure Holds (groups : List Group) (rest : List Pending) : Prop where
  distinct : (groups.map Group.parent).Nodup
  siblings : ∀ parent, Group.siblingsOf parent groups = (rest.filter (·.parent = parent)).map Pending.event

theorem holds_foldl (queue : List Pending) (holds : Holds groups rest) :
    Holds (queue.foldl (fun groups p => Group.add p.parent p.event groups) groups) (rest ++ queue) := by
  induction queue generalizing groups rest with
  | nil => rwa [List.append_nil]
  | cons p queue ih =>
    have added : Holds (Group.add p.parent p.event groups) (rest ++ [p]) := by
      refine ⟨Group.add_distinct holds.distinct _ _, fun parent => ?_⟩
      rw [Group.siblingsOf_add, holds.siblings, holds.siblings, List.filter_append, List.map_append]
      by_cases same : parent = p.parent
      · simp [same]
      · simp [same, Ne.symm same]
    rw [List.foldl_cons, ← List.singleton_append, ← List.append_assoc]
    exact ih added

/-- Of events under one parent, those with the lower ids are pending first. -/
theorem sorted_siblings (events : List Event) (parent : StepId) :
    ((sorted events).filter (·.parent = parent)).map Pending.event =
      (((pending events).filter (·.parent = parent)).map Pending.event).mergeSort byId := by
  have siblings : ∀ a ∈ (pending events).filter (·.parent = parent), ∀ b ∈ (pending events).filter (·.parent = parent),
      Pending.le a b = byId a.event b.event := by
    intro a first b second
    have first := of_decide_eq_true (List.mem_filter.mp first).2
    have second := of_decide_eq_true (List.mem_filter.mp second).2
    rw [Bool.eq_iff_iff, le_iff, byId, first, second, decide_eq_true_eq, UInt64.le_iff_lt_or_eq (a := a.event.id)]
    simp only [UInt64.le_refl, and_true]
  rw [sorted, @filter_sorted Pending Pending.le (fun _ _ _ => le_trans) le_total]
  exact List.map_mergeSort siblings

theorem holds_ofEvents (events : List Event) : Holds (Group.ofEvents events) (sorted events) := by
  have none : Holds [] [] := ⟨List.nodup_nil, fun _ => rfl⟩
  have gathered := holds_foldl (pending events) none
  rw [List.nil_append] at gathered
  constructor
  · rw [Group.ofEvents, List.map_map]
    exact gathered.distinct
  · intro parent
    rw [Group.ofEvents, Group.siblingsOf_arranged, gathered.siblings, sorted_siblings]

theorem Holds.remove (holds : Holds groups rest) (parent : StepId) :
    Holds (groups.filter (·.parent ≠ parent)) (rest.filter (·.parent ≠ parent)) := by
  constructor
  · exact holds.distinct.sublist (List.filter_sublist.map _)
  · intro other
    rw [Group.siblingsOf_remove, holds.siblings, List.filter_filter]
    split
    · next same => simp [same]
    · next apart =>
      refine congrArg (List.map _) (List.filter_congr fun p _ => ?_)
      by_cases same : p.parent = other
      · simp [same, apart]
      · simp [same]

theorem attachEach_eq
    (takes : ∀ parent groups rest, Holds groups rest → (attach n parent groups).1 = (grow n parent rest).1 ∧
      Holds (attach n parent groups).2 (grow n parent rest).2)
    (queue : List Pending) (holds : Holds groups rest) :
    (attachEach (attach n) (queue.map Pending.event) groups).1 = (growEach (grow n) queue rest).1 ∧
      Holds (attachEach (attach n) (queue.map Pending.event) groups).2 (growEach (grow n) queue rest).2 := by
  induction queue generalizing groups rest with
  | nil => exact ⟨rfl, holds⟩
  | cons p queue ih =>
    obtain ⟨children, left⟩ := takes p.event.id groups rest holds
    obtain ⟨trees, last⟩ := ih left
    exact ⟨congrArg₂ List.cons (congrArg (StepTree.node p.event) children) trees, last⟩

/-- To attach groups is to grow trees from what they hold. -/
theorem attach_eq (n : Nat) (parent : StepId) (holds : Holds groups rest) :
    (attach n parent groups).1 = (grow n parent rest).1 ∧ Holds (attach n parent groups).2 (grow n parent rest).2 := by
  induction n generalizing parent groups rest with
  | zero => exact ⟨rfl, holds⟩
  | succ n ih =>
    rw [attach, grow, holds.siblings]
    exact attachEach_eq (fun _ _ _ => ih _) _ (holds.remove parent)

/-! ## Promotion -/

theorem lowest?_eq_none : lowest? queue = none ↔ queue = [] := by
  cases queue with
  | nil => exact ⟨fun _ => rfl, fun _ => rfl⟩
  | cons p rest =>
    refine ⟨fun missing => ?_, fun empty => nomatch empty⟩
    rw [lowest?] at missing
    split at missing
    · contradiction
    · split at missing <;> contradiction

theorem lowest?_spec (lowest : lowest? queue = some p) : p ∈ queue ∧ ∀ q ∈ queue, Pending.le p q = true := by
  have refl (a : Pending) : Pending.le a a = true := by simpa using le_total a a
  induction queue generalizing p with
  | nil => contradiction
  | cons first rest ih =>
    rw [lowest?] at lowest
    split at lowest
    · next empty =>
      rw [lowest?_eq_none] at empty
      obtain rfl := Option.some.inj lowest
      rw [empty]
      exact ⟨List.mem_cons_self, by simp [refl]⟩
    · next q found =>
      obtain ⟨member, least⟩ := ih found
      split at lowest
      · next below =>
        obtain rfl := Option.some.inj lowest
        exact ⟨List.mem_cons_self,
          List.forall_mem_cons.mpr ⟨refl _, fun other behind => le_trans below (least other behind)⟩⟩
      · next above =>
        obtain rfl := Option.some.inj lowest
        have below : Pending.le q first = true := by
          have total := le_total first q
          simpa [above] using total
        exact ⟨List.mem_cons_of_mem _ member, List.forall_mem_cons.mpr ⟨below, least⟩⟩

/-- The first events of groups are those that nothing under the same parent is pending before. -/
theorem Holds.mem_firsts (holds : Holds groups rest) :
    p ∈ groups.filterMap Group.first? ↔ ∃ more, rest.filter (·.parent = p.parent) = p :: more := by
  rw [List.mem_filterMap]
  constructor
  · rintro ⟨g, member, found⟩
    obtain ⟨e, head, rfl⟩ := Option.map_eq_some_iff.mp found
    rw [← Group.siblingsOf_of_mem holds.distinct member, holds.siblings, List.head?_map] at head
    obtain ⟨q, first, rfl⟩ := Option.map_eq_some_iff.mp head
    obtain ⟨more, same⟩ := List.head?_eq_some_iff.mp first
    have belongs : q ∈ rest.filter (·.parent = g.parent) := same ▸ List.mem_cons_self
    have parent : q.parent = g.parent := of_decide_eq_true (List.mem_filter.mp belongs).2
    exact ⟨more, by rw [same, ← parent]⟩
  · rintro ⟨more, same⟩
    have siblings : Group.siblingsOf p.parent groups = p.event :: more.map Pending.event := by
      rw [holds.siblings, same, List.map_cons]
    refine ⟨_, Group.mem_of_siblingsOf (siblings ▸ List.cons_ne_nil _ _), ?_⟩
    rw [Group.first?, siblings]
    rfl

/-- What is pending first is the lowest of the first events. -/
theorem Holds.lowest?_eq (holds : Holds groups (p :: rest))
    (ordered : (p :: rest).Pairwise fun a b => Pending.le a b = true) :
    lowest? (groups.filterMap Group.first?) = some p := by
  have first : (p :: rest).filter (·.parent = p.parent) = p :: rest.filter (·.parent = p.parent) :=
    List.filter_cons_of_pos (by simp)
  have member : p ∈ groups.filterMap Group.first? := holds.mem_firsts.mpr ⟨_, first⟩
  cases found : lowest? (groups.filterMap Group.first?) with
  | none =>
    rw [lowest?_eq_none.mp found] at member
    contradiction
  | some q =>
    obtain ⟨there, least⟩ := lowest?_spec found
    obtain ⟨more, heads⟩ := holds.mem_firsts.mp there
    have waiting : q ∈ p :: rest := (List.mem_filter.mp (heads ▸ List.mem_cons_self : q ∈ _)).1
    have below := least p member
    rcases List.mem_cons.mp waiting with rfl | behind
    · rfl
    · have above := (List.pairwise_cons.mp ordered).1 q behind
      have parent : q.parent = p.parent := by
        rw [le_iff, UInt64.lt_iff_toNat_lt, ← UInt64.toNat_inj, UInt64.le_iff_toNat_le] at below above
        rw [← UInt64.toNat_inj]
        omega
      rw [parent, first] at heads
      exact congrArg some (List.cons.inj heads).1.symm

theorem Holds.dropFirst (holds : Holds groups (p :: rest)) : Holds (Group.dropFirst p.parent groups) rest := by
  constructor
  · exact holds.distinct.sublist (Group.dropFirst_sublist _ _)
  · intro other
    rw [Group.siblingsOf_dropFirst holds.distinct, holds.siblings, holds.siblings]
    split
    · next same => simp [same]
    · next apart => simp [Ne.symm apart]

theorem Holds.lowest?_nil (holds : Holds groups []) : lowest? (groups.filterMap Group.first?) = none := by
  rw [lowest?_eq_none, List.eq_nil_iff_forall_not_mem]
  intro p member
  obtain ⟨more, same⟩ := holds.mem_firsts.mp member
  contradiction

theorem promoteGroups_eq (n : Nat) (holds : Holds groups rest)
    (ordered : rest.Pairwise fun a b => Pending.le a b = true) : promoteGroups n groups = promote n rest := by
  induction n generalizing groups rest with
  | zero => rfl
  | succ n ih =>
    cases rest with
    | nil =>
      rw [promoteGroups, holds.lowest?_nil]
      rfl
    | cons p rest =>
      obtain ⟨children, left⟩ := attach_eq (levels - 1) p.event.id holds.dropFirst
      have kept := (List.pairwise_cons.mp ordered).2.sublist (promotion_grown p rest).kept
      rw [promoteGroups, holds.lowest?_eq ordered, promote]
      exact congrArg₂ List.cons (congrArg (StepTree.node p.event) children) (ih left kept)

theorem promote_nil (n : Nat) : promote n [] = [] := by
  cases n <;> rfl

/-- Rounds after the last event make no difference. -/
theorem promote_enough {m n : Nat} (first : rest.length ≤ m) (second : rest.length ≤ n) :
    promote m rest = promote n rest := by
  induction m generalizing n rest with
  | zero =>
    obtain rfl : rest = [] := List.eq_nil_of_length_eq_zero (Nat.le_zero.mp first)
    rw [promote_nil, promote_nil]
  | succ m ih =>
    cases rest with
    | nil => rw [promote_nil, promote_nil]
    | cons p rest =>
      cases n with
      | zero => contradiction
      | succ n =>
        have fewer := (promotion_grown p rest).kept.length_le
        exact congrArg (promotion p rest :: ·)
          (ih (fewer.trans (Nat.le_of_succ_le_succ first)) (fewer.trans (Nat.le_of_succ_le_succ second)))

/-- Groups make no difference to the trees of a recording. -/
theorem ofGroups_eq (events : List Event) : ofGroups events = ofEvents events := by
  obtain ⟨trees, left⟩ := attach_eq levels rootId (holds_ofEvents events)
  have few : (attached events).2.length ≤ events.length := by
    have kept := ((attached_grown events).kept.trans List.filter_sublist).length_le
    rwa [(sorted_perm events).length_eq, pending, List.length_map] at kept
  have promotes := promoteGroups_eq events.length left (attached_progress events).ordered
  calc ofGroups events
    _ = (attach levels rootId (Group.ofEvents events)).1 ++
        promoteGroups events.length (attach levels rootId (Group.ofEvents events)).2 := rfl
    _ = (attached events).1 ++ promote events.length (attached events).2 := by rw [trees, promotes]; rfl
    _ = ofEvents events := by rw [promote_enough few (Nat.le_refl _), ofEvents_eq, promoted]

end LaunchTrace.StepTree
