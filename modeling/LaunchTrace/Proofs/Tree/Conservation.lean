import LaunchTrace.Proofs.Tree.Growth
import Mathlib.Data.UInt

/-! The trees of a recording hold each of its events once, whatever their ids and parents are. The order of pending
events, the trees under the root and the promotion of what they leave are steps of one loop, and `Progress` is what
every step of it keeps. -/
namespace LaunchTrace.StepTree
open scoped List

variable {events : List Event} {e : Event} {p a b c : Pending} {queue rest left : List Pending}
  {trees more : List StepTree}

theorem pending_events (events : List Event) : (pending events).map Pending.event = events := by
  simp only [pending, List.map_map, Function.comp_def, List.map_id']

theorem parent_of_pending (member : p ∈ pending events) (detached : p.parent ≠ rootId) :
    p.parent = p.event.parentId ∧ ∃ upper ∈ events, upper.id = p.event.parentId := by
  obtain ⟨e, _, rfl⟩ := List.mem_map.mp member
  by_cases recorded : events.any (·.id = e.parentId)
  · simp only [recorded, if_true, true_and]
    obtain ⟨upper, found, same⟩ := List.any_eq_true.mp recorded
    exact ⟨upper, found, of_decide_eq_true same⟩
  · simp [recorded] at detached

theorem unrecorded_of_pending (member : p ∈ pending events) (top : p.parent = rootId) :
    p.event.parentId = rootId ∨ ∀ upper ∈ events, upper.id ≠ p.event.parentId := by
  obtain ⟨e, _, rfl⟩ := List.mem_map.mp member
  by_cases recorded : events.any (·.id = e.parentId)
  · simp only [recorded, if_true] at top
    exact .inl top
  · right
    intro upper found same
    exact recorded (List.any_eq_true.mpr ⟨upper, found, decide_eq_true same⟩)

theorem le_iff : Pending.le a b = true ↔
    a.event.id < b.event.id ∨ (a.event.id = b.event.id ∧ a.parent ≤ b.parent) := by
  simp [Pending.le]

theorem le_trans (first : Pending.le a b = true) (second : Pending.le b c = true) : Pending.le a c = true := by
  rw [le_iff, UInt64.lt_iff_toNat_lt, ← UInt64.toNat_inj, UInt64.le_iff_toNat_le] at *
  omega

theorem le_total (a b : Pending) : (Pending.le a b || Pending.le b a) = true := by
  rw [Bool.or_eq_true, le_iff, le_iff, UInt64.lt_iff_toNat_lt, ← UInt64.toNat_inj, UInt64.le_iff_toNat_le,
    UInt64.lt_iff_toNat_lt, ← UInt64.toNat_inj, UInt64.le_iff_toNat_le]
  omega

theorem id_le_of_le (first : Pending.le a b = true) : a.event.id ≤ b.event.id := by
  rw [le_iff, UInt64.lt_iff_toNat_lt, ← UInt64.toNat_inj] at first
  rw [UInt64.le_iff_toNat_le]
  omega

def sorted (events : List Event) : List Pending :=
  (pending events).mergeSort Pending.le

theorem sorted_perm (events : List Event) : (sorted events).Perm (pending events) :=
  List.mergeSort_perm _ _

theorem sorted_ordered (events : List Event) : (sorted events).Pairwise fun a b => Pending.le a b = true :=
  @List.pairwise_mergeSort Pending Pending.le (fun _ _ _ => le_trans) le_total (pending events)

/-- How far the trees of `events` have come: `trees` stand already, `queue` goes to the top next, and `left` is
pending behind it. -/
structure Progress (events : List Event) (trees : List StepTree) (queue left : List Pending) : Prop where
  conserved : ((placesEach trees).map Place.event ++ (queue ++ left).map Pending.event).Perm events
  ordered : left.Pairwise fun a b => Pending.le a b = true
  detached : ∀ p ∈ left, p ∈ pending events ∧ p.parent ≠ rootId
  linked : ∀ place ∈ placesEach trees, ∀ above, place.above = some above →
    place.event.parentId = above.id ∧ above.id ≠ rootId
  shallow : ∀ place ∈ placesEach trees, place.depth < levels
  closed : ∀ place ∈ placesEach trees, place.depth + 1 < levels →
    ∀ p ∈ left, p.event.parentId ≠ place.event.id

theorem progress_start (events : List Event) :
    Progress events [] ((sorted events).filter (·.parent = rootId)) ((sorted events).filter (·.parent ≠ rootId)) where
  conserved := by
    have split : ((sorted events).filter (·.parent = rootId) ++ (sorted events).filter (·.parent ≠ rootId)).Perm
        (sorted events) := by
      simpa only [ne_eq, decide_not] using
        List.filter_append_perm (fun p : Pending => decide (p.parent = rootId)) (sorted events)
    have all := (split.trans (sorted_perm events)).map Pending.event
    rwa [pending_events] at all
  ordered := (sorted_ordered events).filter _
  detached := by
    intro p member
    obtain ⟨member, detached⟩ := List.mem_filter.mp member
    exact ⟨(sorted_perm events).subset member, of_decide_eq_true detached⟩
  linked := by simp
  shallow := by simp
  closed := by simp

theorem Progress.dequeue (progress : Progress events trees [] (p :: rest)) : Progress events trees [p] rest where
  conserved := progress.conserved
  ordered := (List.pairwise_cons.mp progress.ordered).2
  detached := fun q member => progress.detached q (List.mem_cons_of_mem _ member)
  linked := progress.linked
  shallow := progress.shallow
  closed := fun place member inside q pending =>
    progress.closed place member inside q (List.mem_cons_of_mem _ pending)

theorem Progress.parent_eq (progress : Progress events trees queue left) (member : p ∈ left) :
    p.parent = p.event.parentId :=
  (parent_of_pending (progress.detached p member).1 (progress.detached p member).2).1

theorem Progress.extend (progress : Progress events trees queue rest) (grown : Grown levels queue rest more left) :
    Progress events (trees ++ more) [] left where
  conserved := by
    rw [placesEach_append, List.map_append, List.append_assoc]
    exact (grown.conserved.append_left _).trans progress.conserved
  ordered := progress.ordered.sublist grown.kept
  detached := fun p member => progress.detached p (grown.kept.subset member)
  linked := by
    intro place member above hangs
    rcases mem_placesEach_append.mp member with member | member
    · exact progress.linked place member above hangs
    · have belongs := grown.linked place member above hangs
      have recorded : above.id = place.event.parentId := progress.parent_eq belongs
      exact ⟨recorded.symm, (progress.detached _ belongs).2⟩
  shallow := by
    intro place member
    rcases mem_placesEach_append.mp member with member | member
    · exact progress.shallow place member
    · exact grown.shallow place member
  closed := by
    intro place member inside p pending
    have remained := grown.kept.subset pending
    rcases mem_placesEach_append.mp member with member | member
    · exact progress.closed place member inside p remained
    · rw [← progress.parent_eq remained]
      exact grown.closed place member inside p pending

/-- The trees under the root, and what they leave pending. -/
def attached (events : List Event) : List StepTree × List Pending :=
  grow levels rootId (sorted events)

theorem attached_grown (events : List Event) :
    Grown levels ((sorted events).filter (·.parent = rootId)) ((sorted events).filter (·.parent ≠ rootId))
      (attached events).1 (attached events).2 :=
  growEach_grown (grow_taken (levels - 1)) _ _

theorem attached_progress (events : List Event) :
    Progress events (attached events).1 [] (attached events).2 :=
  (progress_start events).extend (attached_grown events)

def promotion (p : Pending) (rest : List Pending) : StepTree :=
  .node p.event (grow (levels - 1) p.event.id rest).1

/-- What the promotion of an event leaves pending. -/
def afterPromotion (p : Pending) (rest : List Pending) : List Pending :=
  (grow (levels - 1) p.event.id rest).2

theorem promotion_grown (p : Pending) (rest : List Pending) :
    Grown levels [p] rest [promotion p rest] (afterPromotion p rest) :=
  grown_cons (grow_taken (levels - 1) p.event.id rest) (grown_nil _ _)

theorem Progress.promote (progress : Progress events trees [] (p :: rest)) :
    Progress events (trees ++ [promotion p rest]) [] (afterPromotion p rest) :=
  progress.dequeue.extend (promotion_grown p rest)

/-- What each promotion keeps holds at the end, where nothing is pending. -/
theorem promote_induction {P : List StepTree → List Pending → Prop}
    (step : ∀ trees p rest, P trees (p :: rest) → P (trees ++ [promotion p rest]) (afterPromotion p rest))
    (n : Nat) (trees : List StepTree) (left : List Pending) (enough : left.length ≤ n) (start : P trees left) :
    P (trees ++ promote n left) [] := by
  induction n generalizing trees left with
  | zero =>
    obtain rfl := List.length_eq_zero_iff.mp (Nat.le_zero.mp enough)
    simpa only [promote, List.append_nil] using start
  | succ n ih =>
    cases left with
    | nil => simpa only [promote, List.append_nil] using start
    | cons p rest =>
      have shorter : (afterPromotion p rest).length ≤ n :=
        (promotion_grown p rest).kept.length_le.trans (Nat.le_of_succ_le_succ enough)
      have finished := ih _ _ shorter (step trees p rest start)
      rwa [List.append_assoc] at finished

/-- The trees of the events that nothing reaches from the root. -/
def promoted (events : List Event) : List StepTree :=
  promote (attached events).2.length (attached events).2

theorem ofEvents_eq (events : List Event) : ofEvents events = (attached events).1 ++ promoted events := rfl

theorem ofEvents_progress (events : List Event) : Progress events (ofEvents events) [] [] :=
  promote_induction (P := fun trees left => Progress events trees [] left) (fun _ _ _ progress => progress.promote)
    _ _ _ (Nat.le_refl _) (attached_progress events)

theorem ofEvents_perm (events : List Event) : ((placesEach (ofEvents events)).map Place.event).Perm events := by
  simpa only [List.append_nil, List.map_nil] using (ofEvents_progress events).conserved

/-- No event is lost or shown twice, each stands under the event it belongs to, and no tree has more than 256
levels. -/
theorem ofEvents_lossless (events : List Event) :
    ((preorder (ofEvents events)).map Prod.snd).Perm events ∧
      sizeEach (ofEvents events) = events.length ∧
      ((ofEvents events).isEmpty = true ↔ events = []) ∧
      (∀ place ∈ placesEach (ofEvents events), (place.above = none ↔ place.depth = 0) ∧
        ∀ above, place.above = some above → place.event.parentId = above.id) ∧
      ∀ node ∈ preorder (ofEvents events), node.1 ≤ 255 := by
  have progress := ofEvents_progress events
  have all := ofEvents_perm events
  have listed : (preorder (ofEvents events)).map Prod.snd = (placesEach (ofEvents events)).map Place.event := by
    simp only [preorder_eq, List.map_map, Function.comp_def]
  refine ⟨listed ▸ all, ?_, ?_, ?_, ?_⟩
  · rw [sizeEach_eq, ← all.length_eq, List.length_map]
  · rw [List.isEmpty_iff, ← placesEach_eq_nil_iff]
    constructor
    · intro empty
      rw [empty] at all
      exact List.nil_perm.mp all
    · rintro rfl
      exact List.map_eq_nil_iff.mp (List.perm_nil.mp all)
  · intro place member
    exact ⟨above_eq_none_iff member, fun above hangs => (progress.linked place member above hangs).1⟩
  · intro node member
    rw [preorder_eq] at member
    obtain ⟨place, found, rfl⟩ := List.mem_map.mp member
    exact Nat.le_of_lt_succ (progress.shallow place found)

end LaunchTrace.StepTree
