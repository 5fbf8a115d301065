import LaunchTrace.Proofs.Tree.Ancestry

/-! Recordings of steps that are nested in time: whatever starts between a step and one of its children is nested in
that step. Their trees, read from top to bottom, show the ids in ascending order. -/
namespace LaunchTrace.StepTree

/-- Steps with ids in the order of their starts, each under a recorded one that is still running. -/
structure Nested (events : List Event) : Prop where
  distinct : (events.map Event.id).Nodup
  recorded : ∀ e ∈ events, e.parentId = rootId ∨ ∃ upper ∈ events, upper.id = e.parentId
  ascending : ∀ e ∈ events, e.parentId < e.id
  nested : ∀ e ∈ events, ∀ later ∈ events, later.parentId < e.id → e.id < later.id → later.parentId ≤ e.parentId

/-- Trees of events under one parent with their tops in ascending order, and so on below them. -/
inductive Ascending (events : List Event) : StepId → List StepTree → Prop where
  | nil {parent} : Ascending events parent []
  | cons {parent e children rest} : e ∈ events → e.parentId = parent → Ascending events e.id children →
      Ascending events parent rest → (∀ tree ∈ rest, e.id < tree.event.id) →
      Ascending events parent (.node e children :: rest)

/-- Pending events in ascending order that belong under their own parents. -/
structure Lined (events : List Event) (rest : List Pending) : Prop where
  ordered : rest.Pairwise fun a b => a.event.id < b.event.id
  parents : ∀ p ∈ rest, p.event ∈ events ∧ p.parent = p.event.parentId

variable {events : List Event} {trees : List StepTree} {tree : StepTree} {queue rest left : List Pending}
  {parent : StepId} {place : Place} {e : Event} {n : Nat}

theorem Lined.sublist (lined : Lined events rest) (kept : left.Sublist rest) : Lined events left where
  ordered := lined.ordered.sublist kept
  parents := fun p member => lined.parents p (kept.subset member)

theorem growEach_ascending {levels : Nat}
    (takes : ∀ parent rest, Lined events rest → Ascending events parent (grow levels parent rest).1)
    (queued : Lined events queue) (same : ∀ p ∈ queue, p.parent = parent) (lined : Lined events rest) :
    Ascending events parent (growEach (grow levels) queue rest).1 := by
  induction queue generalizing rest with
  | nil => exact .nil
  | cons p queue ih =>
    have others := lined.sublist (grow_taken levels p.event.id rest).kept
    obtain ⟨lower, _⟩ := List.pairwise_cons.mp queued.ordered
    obtain ⟨member, belongs⟩ := queued.parents p List.mem_cons_self
    refine .cons member (belongs.symm.trans (same p List.mem_cons_self)) (takes p.event.id rest lined) ?_ ?_
    · exact ih (queued.sublist (List.sublist_cons_self p queue))
        (fun q member => same q (List.mem_cons_of_mem _ member)) others
    · intro tree member
      have tops := (growEach_grown (grow_taken levels) queue (grow levels p.event.id rest).2).tops
      have top : tree.event ∈ queue.map Pending.event := tops ▸ List.mem_map_of_mem member
      obtain ⟨q, member, found⟩ := List.mem_map.mp top
      exact found ▸ lower q member

theorem grow_ascending (levels : Nat) (parent : StepId) (rest : List Pending) (lined : Lined events rest) :
    Ascending events parent (grow levels parent rest).1 := by
  induction levels generalizing parent rest with
  | zero => exact .nil
  | succ levels ih =>
    apply growEach_ascending ih (lined.sublist List.filter_sublist) _ (lined.sublist List.filter_sublist)
    intro p member
    exact of_decide_eq_true (List.mem_filter.mp member).2

theorem Ascending.top (ascending : Ascending events parent trees) (member : tree ∈ trees) :
    tree.event ∈ events ∧ tree.event.parentId = parent := by
  induction ascending with
  | nil => simp at member
  | cons known same _ _ _ _ ih =>
    rcases List.mem_cons.mp member with rfl | member
    · exact ⟨known, same⟩
    · exact ih member

theorem Ascending.above (ascending : Ascending events parent trees) (up : ∀ e ∈ events, e.parentId < e.id)
    (member : place ∈ placesEach trees) : parent < place.event.id := by
  induction ascending generalizing place with
  | nil => simp at member
  | @cons parent e children rest known same _ _ _ below beside =>
    have top : parent < e.id := same ▸ up e known
    rw [mem_placesEach_cons] at member
    rcases member with rfl | ⟨inner, member, rfl⟩ | member
    · exact top
    · have deeper : e.id < inner.event.id := below member
      exact UInt64.lt_trans top deeper
    · exact beside member

/-- No id in trees is lower than those of all their tops. -/
theorem Ascending.top_le (ascending : Ascending events parent trees) (up : ∀ e ∈ events, e.parentId < e.id)
    (member : place ∈ placesEach trees) : ∃ tree ∈ trees, tree.event.id ≤ place.event.id := by
  induction ascending with
  | nil => simp at member
  | @cons parent e children rest _ _ below _ _ _ beside =>
    rw [mem_placesEach_cons] at member
    rcases member with rfl | ⟨inner, member, rfl⟩ | member
    · exact ⟨_, List.mem_cons_self, UInt64.le_refl _⟩
    · have deeper : e.id < inner.event.id := below.above up member
      exact ⟨_, List.mem_cons_self, UInt64.le_of_lt deeper⟩
    · obtain ⟨tree, found, low⟩ := beside member
      exact ⟨tree, List.mem_cons_of_mem _ found, low⟩

/-- What is nested in a step starts before the next step outside it. -/
theorem Ascending.before (ascending : Ascending events parent trees) (nested : Nested events) (next : e ∈ events)
    (outside : e.parentId < parent) (after : parent < e.id) (member : place ∈ placesEach trees) :
    place.event.id < e.id := by
  induction ascending generalizing place with
  | nil => simp at member
  | @cons parent top children rest known same _ _ _ below beside =>
    have deeper : parent < top.id := same ▸ nested.ascending top known
    -- A step that starts between the parent and this top is nested in the parent, but `e` hangs further out.
    have first : top.id < e.id := by
      rw [← UInt64.not_le]
      intro late
      rcases UInt64.le_iff_lt_or_eq.mp late with late | equal
      · have inside := nested.nested e next top known (same ▸ after) late
        exact UInt64.not_le.mpr outside (same ▸ inside)
      · have one := List.inj_on_of_nodup_map nested.distinct next known equal
        rw [one, same] at outside
        exact UInt64.lt_irrefl _ outside
    rw [mem_placesEach_cons] at member
    rcases member with rfl | ⟨inner, member, rfl⟩ | member
    · exact first
    · have earlier : inner.event.id < e.id := below (UInt64.lt_trans outside deeper) first member
      exact earlier
    · exact beside outside after member

/-- Nested steps are listed in the order of their starts. -/
theorem Ascending.pairwise (ascending : Ascending events parent trees) (nested : Nested events) :
    (placesEach trees).Pairwise fun first second => first.event.id < second.event.id := by
  induction ascending with
  | nil => exact List.Pairwise.nil
  | @cons parent e children rest known same below beside lower inner outer =>
    have up := nested.ascending
    have behind : ∀ second ∈ placesEach rest, e.id < second.event.id := by
      intro second member
      obtain ⟨tree, found, low⟩ := beside.top_le up member
      exact UInt64.lt_of_lt_of_le (lower tree found) low
    -- The tops of the other trees are siblings of `e`, so nothing that starts after them is nested in `e`.
    have across : ∀ first ∈ placesEach children, ∀ second ∈ placesEach rest,
        first.event.id < second.event.id := by
      intro first inside second member
      obtain ⟨tree, found, low⟩ := beside.top_le up member
      obtain ⟨recorded, sibling⟩ := beside.top found
      have outside : tree.event.parentId < e.id := by
        rw [sibling, ← same]
        exact up e known
      exact UInt64.lt_of_lt_of_le (below.before nested recorded outside (lower tree found) inside) low
    simp only [placesEach_cons, List.cons_append, List.pairwise_cons, List.pairwise_append, List.mem_append,
      List.mem_map, List.pairwise_map, under_event]
    refine ⟨?_, inner, outer, ?_⟩
    · rintro _ (⟨first, member, rfl⟩ | member)
      · have deeper : e.id < first.event.id := below.above up member
        exact deeper
      · exact behind _ member
    · rintro _ ⟨first, inside, rfl⟩ second member
      exact across first inside second member

theorem sorted_lined (nested : Nested events) : Lined events (sorted events) where
  ordered := by
    have apart : (sorted events).Pairwise fun a b => a.event.id ≠ b.event.id := by
      have ids : ((sorted events).map fun p => p.event.id).Perm (events.map Event.id) := by
        have same := ((sorted_perm events).map Pending.event).map Event.id
        rwa [pending_events, List.map_map] at same
      exact List.pairwise_map.mp (ids.nodup_iff.mpr nested.distinct)
    refine ((sorted_ordered events).and apart).imp ?_
    rintro a b ⟨low, different⟩
    rcases UInt64.le_iff_lt_or_eq.mp (id_le_of_le low) with lower | same
    · exact lower
    · exact absurd same different
  parents := by
    intro p member
    have member := (sorted_perm events).subset member
    have recorded : p.event ∈ events := by
      rw [← pending_events events]
      exact List.mem_map_of_mem member
    refine ⟨recorded, ?_⟩
    by_cases top : p.parent = rootId
    · rcases unrecorded_of_pending member top with root | missing
      · exact top.trans root.symm
      · rcases nested.recorded p.event recorded with root | ⟨upper, found, same⟩
        · exact top.trans root.symm
        · exact absurd same (missing upper found)
    · exact (parent_of_pending member top).1

theorem attached_ascending (nested : Nested events) : Ascending events rootId (attached events).1 :=
  grow_ascending levels rootId (sorted events) (sorted_lined nested)

/-- If no chain is longer than a tree is high, nothing is promoted. -/
theorem promoted_eq_nil (nested : Nested events)
    (near : ∀ e ∈ events, ∀ n, Ancestors events e n → n < levels) : promoted events = [] := by
  rw [List.eq_nil_iff_forall_not_mem]
  intro tree member
  have recorded : tree.event ∈ events := by
    obtain ⟨place, placed, _, same⟩ := root_placed member
    have listed : place ∈ placesEach (ofEvents events) := mem_placesEach_append.mpr (.inr placed)
    exact same ▸ (ofEvents_progress events).recorded listed
  obtain ⟨n, ancestors, _⟩ := ofEvents_place nested.distinct nested.ascending recorded
  obtain ⟨place, placed, same⟩ := attached_complete nested.distinct ancestors recorded (near _ recorded n ancestors)
  have apart := attached_not_promoted nested.distinct placed
  rw [same] at apart
  exact apart (List.mem_map_of_mem member)

theorem Nested.parentId_eq (nested : Nested events) (recorded : e ∈ events) (none : parent? events e = none) :
    e.parentId = rootId := by
  by_contra inner
  rcases nested.recorded e recorded with root | ⟨upper, found, same⟩
  · exact inner root
  · rw [parent?_eq_some nested.distinct found same inner] at none
    contradiction

/-- Nested steps are listed in the order of their starts, each under its parent. -/
theorem nested_listing (nested : Nested events) (near : ∀ e ∈ events, ∀ n, Ancestors events e n → n < levels) :
    (placesEach (ofEvents events)).Pairwise (fun first second => first.event.id < second.event.id) ∧
      ∀ place ∈ placesEach (ofEvents events), (place.above.map Event.id).getD rootId = place.event.parentId := by
  have whole : ofEvents events = (attached events).1 := by
    rw [ofEvents_eq, promoted_eq_nil nested near, List.append_nil]
  rw [whole]
  refine ⟨(attached_ascending nested).pairwise nested, ?_⟩
  intro place member
  have progress := attached_progress events
  cases hangs : place.above with
  | none =>
    have tops := attached_tops member ((above_eq_none_iff member).mp hangs)
    exact (nested.parentId_eq (progress.recorded member) tops).symm
  | some above => exact (progress.linked place member above hangs).1.symm

end LaunchTrace.StepTree
