import LaunchTrace.Proofs.Tree.Ancestry
import LaunchTrace.Proofs.Tree.Groups

/-! The order of the trees of a recording. Siblings go by their ids. The trees of events without a recorded parent come
first, and behind them those that were promoted, each of which had the lowest id of all that had no place by then. -/
namespace LaunchTrace.StepTree
open scoped List

def children : StepTree → List StepTree
  | .node _ children => children

mutual

/-- A tree and all that are nested in it. -/
def subtrees : StepTree → List StepTree
  | .node e children => .node e children :: subtreesEach children

def subtreesEach : List StepTree → List StepTree
  | [] => []
  | tree :: rest => tree.subtrees ++ subtreesEach rest

end

/-- The tops of the trees go by their ids. -/
def Ordered (trees : List StepTree) : Prop :=
  trees.Pairwise fun a b => a.event.id ≤ b.event.id

variable {events : List Event} {e : Event} {levels n : Nat} {parent : StepId} {p q : Pending}
  {queue rest left : List Pending} {tree : StepTree} {before after trees more : List StepTree} {place : Place}

theorem mem_subtreesEach_cons {children : List StepTree} : tree ∈ subtreesEach (.node e children :: more) ↔
    tree = .node e children ∨ tree ∈ subtreesEach children ∨ tree ∈ subtreesEach more := by
  simp only [subtreesEach, subtrees, List.cons_append, List.mem_cons, List.mem_append]

theorem subtreesEach_append (trees more : List StepTree) :
    subtreesEach (trees ++ more) = subtreesEach trees ++ subtreesEach more := by
  induction trees with
  | nil => rfl
  | cons tree rest ih => simp only [List.cons_append, subtreesEach, ih, List.append_assoc]

theorem ordered_of_tops (tops : trees.map StepTree.event = queue.map Pending.event)
    (ordered : queue.Pairwise fun a b => Pending.le a b = true) : Ordered trees := by
  have ids : (trees.map StepTree.event).Pairwise fun a b => a.id ≤ b.id := by
    rw [tops]
    exact List.pairwise_map.mpr (ordered.imp id_le_of_le)
  rwa [List.pairwise_map] at ids

theorem growEach_subtrees
    (takes : ∀ parent rest, rest.Pairwise (fun a b => Pending.le a b = true) →
      Ordered (grow levels parent rest).1 ∧ ∀ tree ∈ subtreesEach (grow levels parent rest).1, Ordered tree.children)
    (queue : List Pending) (ordered : rest.Pairwise fun a b => Pending.le a b = true) :
    ∀ tree ∈ subtreesEach (growEach (grow levels) queue rest).1, Ordered tree.children := by
  induction queue generalizing rest with
  | nil => exact fun tree member => absurd member List.not_mem_nil
  | cons p queue ih =>
    intro tree member
    obtain ⟨siblings, below⟩ := takes p.event.id rest ordered
    have others := ordered.sublist (grow_taken levels p.event.id rest).kept
    rcases mem_subtreesEach_cons.mp member with rfl | member | member
    · exact siblings
    · exact below tree member
    · exact ih others tree member

theorem grow_ordered (levels : Nat) (parent : StepId) (rest : List Pending)
    (ordered : rest.Pairwise fun a b => Pending.le a b = true) :
    Ordered (grow levels parent rest).1 ∧ ∀ tree ∈ subtreesEach (grow levels parent rest).1, Ordered tree.children := by
  induction levels generalizing parent rest with
  | zero => exact ⟨List.Pairwise.nil, fun tree member => absurd member List.not_mem_nil⟩
  | succ levels ih =>
    have tops := (growEach_grown (grow_taken levels) (rest.filter (·.parent = parent))
      (rest.filter (·.parent ≠ parent))).tops
    exact ⟨ordered_of_tops tops (ordered.filter _), growEach_subtrees ih _ (ordered.filter _)⟩

/-! ## Promotion -/

theorem promotion_subtrees (p : Pending) (ordered : rest.Pairwise fun a b => Pending.le a b = true) :
    ∀ tree ∈ subtreesEach [promotion p rest], Ordered tree.children :=
  growEach_subtrees (grow_ordered (StepTree.levels - 1)) [p] ordered

/-- Promotion places just what is pending. -/
theorem promote_perm (enough : left.length ≤ n) :
    ((placesEach (promote n left)).map Place.event).Perm (left.map Pending.event) := by
  have finished := promote_induction
    (P := fun trees rest => ((placesEach trees).map Place.event ++ rest.map Pending.event).Perm
      (left.map Pending.event))
    (by
      intro trees p rest conserved
      rw [placesEach_append, List.map_append, List.append_assoc]
      exact ((promotion_grown p rest).conserved.append_left _).trans conserved)
    n [] left enough (List.Perm.refl _)
  simpa only [List.nil_append, List.map_nil, List.append_nil] using finished

/-- Whenever an event is promoted, the rest of the promoted trees is made of it and of what is pending behind it. -/
theorem promote_split (enough : left.length ≤ n) (split : promote n left = before ++ tree :: after) :
    ∃ m p rest, rest.length < m ∧ (p :: rest).Sublist left ∧ tree.event = p.event ∧
      tree :: after = promote m (p :: rest) := by
  induction before generalizing n left with
  | nil =>
    cases n with
    | zero => contradiction
    | succ n =>
      cases left with
      | nil => contradiction
      | cons p rest =>
        have first : promotion p rest = tree := (List.cons.inj split).1
        exact ⟨n + 1, p, rest, enough, List.Sublist.refl _, first ▸ rfl, split.symm⟩
  | cons earlier before ih =>
    cases n with
    | zero => contradiction
    | succ n =>
      cases left with
      | nil => contradiction
      | cons q rest =>
        have kept := (promotion_grown q rest).kept
        have shorter : (afterPromotion q rest).length ≤ n := kept.length_le.trans (Nat.le_of_succ_le_succ enough)
        obtain ⟨m, p, others, room, pending, top, same⟩ := ih shorter (List.cons.inj split).2
        exact ⟨m, p, others, room, (pending.trans kept).cons q, top, same⟩

/-- Nothing that is promoted later has a lower id. -/
theorem promoted_lowest (split : promoted events = before ++ tree :: after)
    (member : place ∈ placesEach (tree :: after)) : tree.event.id ≤ place.event.id := by
  obtain ⟨m, p, rest, room, pending, top, same⟩ := promote_split (Nat.le_refl _) split
  have found : place.event ∈ (p :: rest).map Pending.event :=
    (promote_perm room).subset (same ▸ List.mem_map_of_mem member)
  obtain ⟨q, waiting, known⟩ := List.mem_map.mp found
  rw [top, ← known]
  rcases List.mem_cons.mp waiting with rfl | behind
  · exact UInt64.le_refl _
  · have ordered := (attached_progress events).ordered.sublist pending
    exact id_le_of_le ((List.pairwise_cons.mp ordered).1 q behind)

theorem promote_ordered (enough : left.length ≤ n) (ordered : left.Pairwise fun a b => Pending.le a b = true) :
    Ordered (promote n left) := by
  induction n generalizing left with
  | zero => exact List.Pairwise.nil
  | succ n ih =>
    cases left with
    | nil => exact List.Pairwise.nil
    | cons p rest =>
      obtain ⟨lowest, ordered⟩ := List.pairwise_cons.mp ordered
      have kept := (promotion_grown p rest).kept
      have shorter : (afterPromotion p rest).length ≤ n := kept.length_le.trans (Nat.le_of_succ_le_succ enough)
      refine List.Pairwise.cons ?_ (ih shorter (ordered.sublist kept))
      intro tree member
      obtain ⟨place, placed, _, same⟩ := root_placed member
      obtain ⟨q, waiting, known⟩ := List.mem_map.mp ((promote_perm shorter).subset (List.mem_map_of_mem placed))
      rw [← same, ← known]
      exact id_le_of_le (lowest q (kept.subset waiting))

/-! ## The whole listing -/

theorem ofEvents_subtrees (events : List Event) : ∀ tree ∈ subtreesEach (ofEvents events), Ordered tree.children := by
  have finished := promote_induction
    (P := fun trees left => left.Pairwise (fun a b => Pending.le a b = true) ∧
      ∀ tree ∈ subtreesEach trees, Ordered tree.children)
    (by
      intro trees p rest ⟨ordered, arranged⟩
      have ordered := (List.pairwise_cons.mp ordered).2
      refine ⟨ordered.sublist (promotion_grown p rest).kept, ?_⟩
      intro tree member
      rw [subtreesEach_append] at member
      rcases List.mem_append.mp member with member | member
      · exact arranged tree member
      · exact promotion_subtrees p ordered tree member)
    (attached events).2.length (attached events).1 (attached events).2 (Nat.le_refl _)
    ⟨(attached_progress events).ordered, (grow_ordered _ _ _ (sorted_ordered events)).2⟩
  exact finished.2

/-! ## The trees under the root -/

/-- There is no recorded event that the event belongs under. -/
def Parentless (events : List Event) (e : Event) : Prop :=
  e.parentId = rootId ∨ e.parentId ∉ events.map Event.id

instance (events : List Event) (e : Event) : Decidable (Parentless events e) :=
  inferInstanceAs (Decidable (_ ∨ _))

theorem root_iff (member : p ∈ pending events) : p.parent = rootId ↔ Parentless events p.event := by
  constructor
  · intro top
    refine (unrecorded_of_pending member top).imp_right fun missing found => ?_
    obtain ⟨upper, recorded, same⟩ := List.mem_map.mp found
    exact missing upper recorded same
  · intro parentless
    by_contra detached
    obtain ⟨same, upper, recorded, found⟩ := parent_of_pending member detached
    rcases parentless with top | missing
    · exact detached (same.trans top)
    · exact missing (found ▸ List.mem_map_of_mem recorded)

theorem filter_pending (events : List Event) :
    ((pending events).filter (·.parent = rootId)).map Pending.event = events.filter (Parentless events) := by
  have same : (pending events).filter (·.parent = rootId) =
      (pending events).filter ((fun e => decide (Parentless events e)) ∘ Pending.event) :=
    List.filter_congr fun p member => decide_eq_decide.mpr (root_iff member)
  rw [same, ← List.filter_map, pending_events]

/-- Before anything is promoted, the tops are the events without a recorded parent. -/
theorem attached_sorted (events : List Event) :
    (attached events).1.map StepTree.event = (events.filter (Parentless events)).mergeSort byId := by
  calc (attached events).1.map StepTree.event
    _ = ((sorted events).filter (·.parent = rootId)).map Pending.event := (attached_grown events).tops
    _ = (((pending events).filter (·.parent = rootId)).map Pending.event).mergeSort byId := sorted_siblings events rootId
    _ = (events.filter (Parentless events)).mergeSort byId := by rw [filter_pending]

/-! ## All trees -/

/-- The events that have no place in the trees yet. -/
def waiting (events : List Event) (trees : List StepTree) : List Event :=
  events.diff ((placesEach trees).map Place.event)

theorem waiting_perm (whole : ofEvents events = before ++ after) :
    (waiting events before).Perm ((placesEach after).map Place.event) := by
  have all := ofEvents_perm events
  rw [whole, placesEach_append, List.map_append, List.perm_iff_count] at all
  refine List.perm_iff_count.mpr fun e => ?_
  have total := all e
  rw [List.count_append] at total
  rw [waiting, List.count_diff]
  omega

/-- Whether the lowest of all pending events is promoted or the lowest of those that come first in their groups, the
trees are the same. Siblings go by their ids. The first trees are those of the events without a recorded parent, sorted
by their ids. Behind them stand the promoted ones, which go by their ids too: whenever an event is promoted, it has the
lowest id of all that have no place yet. -/
theorem ofEvents_order (events : List Event) :
    ofGroups events = ofEvents events ∧
      (∀ tree ∈ subtreesEach (ofEvents events), Ordered tree.children) ∧
      ofEvents events = (attached events).1 ++ promoted events ∧
      (attached events).1.map StepTree.event = (events.filter (Parentless events)).mergeSort byId ∧
      Ordered (promoted events) ∧
      ∀ before tree after, promoted events = before ++ tree :: after →
        tree.event ∈ waiting events ((attached events).1 ++ before) ∧
          ∀ e ∈ waiting events ((attached events).1 ++ before), tree.event.id ≤ e.id := by
  refine ⟨ofGroups_eq events, ofEvents_subtrees events, ofEvents_eq events, attached_sorted events,
    promote_ordered (Nat.le_refl _) (attached_progress events).ordered, ?_⟩
  intro before tree after split
  have whole : ofEvents events = ((attached events).1 ++ before) ++ tree :: after := by
    rw [ofEvents_eq, split, List.append_assoc]
  have unplaced := waiting_perm whole
  constructor
  · obtain ⟨place, placed, _, same⟩ := root_placed (List.mem_cons_self (a := tree) (l := after))
    exact unplaced.symm.subset (same ▸ List.mem_map_of_mem placed)
  · intro e member
    obtain ⟨place, placed, rfl⟩ := List.mem_map.mp (unplaced.subset member)
    exact promoted_lowest split placed

/-- Two circles beside an event whose parent is not recorded. -/
def circles : List Event :=
  [link 2 3, link 3 2, link 4 5, link 5 4, link 7 9]

theorem circles_order :
    (attached circles).1.map StepTree.event = [link 7 9] ∧
      ∃ first second, promoted circles = [first, second] ∧ first.event = link 2 3 ∧ second.event = link 4 5 ∧
        second.event ∈ waiting circles ((attached circles).1 ++ [first]) ∧
          ∀ e ∈ waiting circles ((attached circles).1 ++ [first]), second.event.id ≤ e.id := by
  obtain ⟨_, _, _, _, _, lowest⟩ := ofEvents_order circles
  have arranged : sorted circles = pending circles := List.mergeSort_of_pairwise (by decide)
  have top : (attached circles).1.map StepTree.event = [link 7 9] := by
    rw [attached, arranged]
    decide +kernel
  have tops : (promoted circles).map StepTree.event = [link 2 3, link 4 5] := by
    rw [promoted, attached, arranged]
    decide +kernel
  obtain ⟨first, rest, split, one, tail⟩ := List.map_eq_cons_iff.mp tops
  obtain ⟨second, rest, rfl, two, none⟩ := List.map_eq_cons_iff.mp tail
  obtain rfl := List.map_eq_nil_iff.mp none
  exact ⟨top, first, second, split, one, two, lowest [first] second [] split⟩

end LaunchTrace.StepTree
