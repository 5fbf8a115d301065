import LaunchTrace.Proofs.Tree.Conservation
import Mathlib.Data.List.Nodup

/-! Where events stand whose ids are distinct. The number of recorded ancestors gives the level of an event, and
longer chains go on in a new tree after every 256 events if parents have lower ids. -/
namespace LaunchTrace.StepTree

/-- The recorded event that an event belongs under, if there is one and it is not the root. -/
def parent? (events : List Event) (e : Event) : Option Event :=
  if e.parentId = rootId then none else events.find? (·.id = e.parentId)

/-- The number of recorded events above an event. On a circle of parents there is none. -/
inductive Ancestors (events : List Event) : Event → Nat → Prop where
  | top {e} : parent? events e = none → Ancestors events e 0
  | under {e upper n} : parent? events e = some upper → Ancestors events upper n → Ancestors events e (n + 1)

variable {events : List Event} {e upper : Event} {n m : Nat} {p : Pending} {queue rest left : List Pending}
  {trees : List StepTree} {place : Place}

theorem ancestors_unique (first : Ancestors events e n) (second : Ancestors events e m) : n = m := by
  induction first generalizing m with
  | top none =>
    cases second with
    | top _ => rfl
    | under some _ => simp [none] at some
  | @under e upper n some _ ih =>
    cases second with
    | top none => simp [none] at some
    | @under _ other m again above =>
      obtain rfl : upper = other := Option.some.inj (some.symm.trans again)
      exact congrArg (· + 1) (ih above)

theorem parent?_eq_none (unrecorded : e.parentId = rootId ∨ ∀ upper ∈ events, upper.id ≠ e.parentId) :
    parent? events e = none := by
  rcases unrecorded with top | missing
  · exact if_pos top
  · unfold parent?
    split
    · rfl
    · simpa using missing

theorem recorded_of_parent? (found : parent? events e = some upper) :
    upper ∈ events ∧ upper.id = e.parentId ∧ e.parentId ≠ rootId := by
  unfold parent? at found
  split at found
  · contradiction
  · rename_i inner
    exact ⟨List.mem_of_find?_eq_some found, by simpa using List.find?_some found, inner⟩

theorem parent?_eq_some (distinct : (events.map Event.id).Nodup) (recorded : upper ∈ events)
    (same : upper.id = e.parentId) (inner : e.parentId ≠ rootId) : parent? events e = some upper := by
  unfold parent?
  rw [if_neg inner]
  cases found : events.find? (·.id = e.parentId) with
  | none => simpa [same] using List.find?_eq_none.mp found upper recorded
  | some other =>
    have other_id : other.id = e.parentId := by simpa using List.find?_some found
    exact congrArg some (List.inj_on_of_nodup_map distinct (List.mem_of_find?_eq_some found) recorded
      (other_id.trans same.symm))

/-- A chain of parents with lower ids ends before it comes to the root. -/
theorem ancestors_lt (ascending : ∀ e ∈ events, e.parentId < e.id) (ancestors : Ancestors events e n)
    (recorded : e ∈ events) : n < e.id.toNat := by
  induction ancestors with
  | top _ =>
    have lower := UInt64.lt_iff_toNat_lt.mp (ascending _ recorded)
    omega
  | under some _ ih =>
    obtain ⟨found, same, _⟩ := recorded_of_parent? some
    have deeper := ih found
    have lower := UInt64.lt_iff_toNat_lt.mp (ascending _ recorded)
    rw [← same] at lower
    omega

theorem Progress.placed_or_left (progress : Progress events trees [] left) (recorded : e ∈ events) :
    (∃ place ∈ placesEach trees, place.event = e) ∨ ∃ p ∈ left, p.event = e := by
  have member := progress.conserved.symm.subset recorded
  simpa only [List.nil_append, List.mem_append, List.mem_map] using member

theorem Progress.recorded (progress : Progress events trees queue left) (member : place ∈ placesEach trees) :
    place.event ∈ events :=
  progress.conserved.subset (List.mem_append_left _ (List.mem_map_of_mem member))

/-- Below the top, events hang under the recorded events they belong to. -/
theorem Progress.above_eq (progress : Progress events trees queue left) (distinct : (events.map Event.id).Nodup)
    (member : place ∈ placesEach trees) :
    place.above = if place.depth = 0 then none else parent? events place.event := by
  split
  · exact (above_eq_none_iff member).mpr ‹_›
  · rename_i inner
    cases hangs : place.above with
    | none => exact absurd ((above_eq_none_iff member).mp hangs) inner
    | some above =>
      obtain ⟨same, detached⟩ := progress.linked place member above hangs
      obtain ⟨upper, found, rfl, _⟩ := above_placed member hangs
      exact (parent?_eq_some distinct (progress.recorded found) same.symm (same ▸ detached)).symm

/-- In a tree, the number of ancestors grows by one from level to level. -/
theorem Progress.ancestors {Top : Nat → Prop} (progress : Progress events trees queue left)
    (distinct : (events.map Event.id).Nodup)
    (tops : ∀ place ∈ placesEach trees, place.depth = 0 → ∃ n, Top n ∧ Ancestors events place.event n)
    (member : place ∈ placesEach trees) : ∃ n, Top n ∧ Ancestors events place.event (n + place.depth) := by
  generalize level : place.depth = depth
  induction depth generalizing place with
  | zero => exact tops place member level
  | succ depth ih =>
    have hangs := progress.above_eq distinct member
    rw [if_neg (by omega)] at hangs
    cases above : place.above with
    | none => simp [(above_eq_none_iff member).mp above] at level
    | some e =>
      obtain ⟨upper, found, rfl, deeper⟩ := above_placed member above
      obtain ⟨n, top, ancestors⟩ := ih found (by omega)
      exact ⟨n, top, .under (hangs.symm.trans above) ancestors⟩

theorem attached_tops (member : place ∈ placesEach (attached events).1) (top : place.depth = 0) :
    parent? events place.event = none := by
  have queued := root_of_top member top
  rw [(attached_grown events).tops] at queued
  obtain ⟨p, queued, same⟩ := List.mem_map.mp queued
  obtain ⟨member, root⟩ := List.mem_filter.mp queued
  exact same ▸ parent?_eq_none
    (unrecorded_of_pending ((sorted_perm events).subset member) (of_decide_eq_true root))

theorem attached_ancestors (distinct : (events.map Event.id).Nodup)
    (member : place ∈ placesEach (attached events).1) : Ancestors events place.event place.depth := by
  have tops : ∀ place ∈ placesEach (attached events).1, place.depth = 0 →
      ∃ n, n = 0 ∧ Ancestors events place.event n :=
    fun place member top => ⟨0, rfl, .top (attached_tops member top)⟩
  obtain ⟨n, rfl, ancestors⟩ := (attached_progress events).ancestors distinct tops member
  rwa [Nat.zero_add] at ancestors

/-- Every event with fewer than 256 ancestors has a place under the root before anything is promoted. -/
theorem attached_complete (distinct : (events.map Event.id).Nodup) (ancestors : Ancestors events e n)
    (recorded : e ∈ events) (near : n < levels) : ∃ place ∈ placesEach (attached events).1, place.event = e := by
  have progress := attached_progress events
  induction ancestors with
  | @top e none =>
    rcases progress.placed_or_left recorded with placed | ⟨p, pending, rfl⟩
    · exact placed
    · obtain ⟨member, detached⟩ := progress.detached p pending
      obtain ⟨same, upper, found, belongs⟩ := parent_of_pending member detached
      have some := parent?_eq_some distinct found belongs (same ▸ detached)
      simp [none] at some
  | @under e upper n some above ih =>
    obtain ⟨found, same, _⟩ := recorded_of_parent? some
    obtain ⟨place, member, rfl⟩ := ih found (by omega)
    have level : place.depth = n := ancestors_unique (attached_ancestors distinct member) above
    rcases progress.placed_or_left recorded with placed | ⟨p, pending, rfl⟩
    · exact placed
    · exact absurd same.symm (progress.closed place member (by omega) p pending)

theorem attached_place (distinct : (events.map Event.id).Nodup) (ancestors : Ancestors events e n)
    (recorded : e ∈ events) (near : n < levels) :
    ⟨n, parent? events e, e⟩ ∈ placesEach (attached events).1 := by
  obtain ⟨place, member, rfl⟩ := attached_complete distinct ancestors recorded near
  have level : place.depth = n := ancestors_unique (attached_ancestors distinct member) ancestors
  have hangs := (attached_progress events).above_eq distinct member
  have above : place.above = parent? events place.event := by
    split at hangs
    · exact hangs.trans (attached_tops member ‹_›).symm
    · exact hangs
  rw [← level, ← above]
  exact member

theorem attached_not_promoted (distinct : (events.map Event.id).Nodup)
    (member : place ∈ placesEach (attached events).1) : place.event ∉ (promoted events).map StepTree.event := by
  intro again
  obtain ⟨tree, top, same⟩ := List.mem_map.mp again
  obtain ⟨second, placed, _, twice⟩ := root_placed top
  have all := ofEvents_perm events
  rw [ofEvents_eq, placesEach_append, List.map_append] at all
  have once := (List.nodup_append.mp (all.nodup_iff.mpr distinct.of_map)).2.2
  exact once _ (List.mem_map_of_mem member) _ (List.mem_map_of_mem placed) (same.symm.trans twice.symm)

/-- If parents have lower ids, an event is promoted only where the events above it fill a tree. -/
theorem promotion_ancestors (distinct : (events.map Event.id).Nodup)
    (ascending : ∀ e ∈ events, e.parentId < e.id) (progress : Progress events trees [] (p :: rest))
    (tops : ∀ place ∈ placesEach trees, place.depth = 0 → ∃ n, n % levels = 0 ∧ Ancestors events place.event n) :
    ∃ n, n % levels = 0 ∧ Ancestors events p.event n := by
  obtain ⟨member, detached⟩ := progress.detached p List.mem_cons_self
  obtain ⟨same, upper, found, belongs⟩ := parent_of_pending member detached
  have recorded : p.event ∈ events := by
    rw [← pending_events events]
    exact List.mem_map_of_mem member
  -- The parent has a lower id than the lowest pending event, so it is not pending any more.
  have placed : ∃ place ∈ placesEach trees, place.event = upper := by
    rcases progress.placed_or_left found with placed | ⟨q, pending, rfl⟩
    · exact placed
    · have lower : q.event.id < p.event.id := belongs ▸ ascending p.event recorded
      have lowest : p.event.id ≤ q.event.id := by
        rcases List.mem_cons.mp pending with rfl | behind
        · exact UInt64.le_refl _
        · exact id_le_of_le ((List.pairwise_cons.mp progress.ordered).1 q behind)
      exact absurd lower (UInt64.not_lt.mpr lowest)
  obtain ⟨place, placed, rfl⟩ := placed
  have last : place.depth + 1 = levels := by
    have inside := progress.shallow place placed
    by_contra different
    exact progress.closed place placed (by omega) p List.mem_cons_self belongs.symm
  obtain ⟨n, full, ancestors⟩ := progress.ancestors distinct tops placed
  refine ⟨n + place.depth + 1, ?_, .under (parent?_eq_some distinct found belongs (same ▸ detached)) ancestors⟩
  rw [Nat.add_assoc, last, Nat.add_mod_right, full]

theorem ofEvents_tops (distinct : (events.map Event.id).Nodup) (ascending : ∀ e ∈ events, e.parentId < e.id)
    (member : place ∈ placesEach (ofEvents events)) (top : place.depth = 0) :
    ∃ n, n % levels = 0 ∧ Ancestors events place.event n := by
  have finished := promote_induction
    (P := fun trees left => Progress events trees [] left ∧ ∀ place ∈ placesEach trees, place.depth = 0 →
      ∃ n, n % levels = 0 ∧ Ancestors events place.event n)
    (by
      intro trees p rest ⟨progress, tops⟩
      refine ⟨progress.promote, ?_⟩
      intro place member top
      rcases mem_placesEach_append.mp member with member | member
      · exact tops place member top
      · have same := root_of_top member top
        obtain same : place.event = p.event := by simpa [promotion, StepTree.event] using same
        exact same ▸ promotion_ancestors distinct ascending progress tops)
    (attached events).2.length (attached events).1 (attached events).2 (Nat.le_refl _)
    ⟨attached_progress events, fun place member top =>
      ⟨0, Nat.zero_mod _, .top (attached_tops member top)⟩⟩
  exact finished.2 place member top

/-- Every 256th event of a chain stands at the top of a tree if parents have lower ids, and the others hang under
their parents. -/
theorem ofEvents_place (distinct : (events.map Event.id).Nodup) (ascending : ∀ e ∈ events, e.parentId < e.id)
    (recorded : e ∈ events) : ∃ n, Ancestors events e n ∧
      ⟨n % 256, if n % 256 = 0 then none else parent? events e, e⟩ ∈ placesEach (ofEvents events) := by
  have progress := ofEvents_progress events
  obtain ⟨place, member, rfl⟩ : ∃ place ∈ placesEach (ofEvents events), place.event = e := by
    simpa using progress.placed_or_left recorded
  obtain ⟨n, full, ancestors⟩ := progress.ancestors distinct
    (fun place member top => ofEvents_tops distinct ascending member top) member
  have level : (n + place.depth) % 256 = place.depth := by
    have inside := progress.shallow place member
    change n % 256 = 0 at full
    change place.depth < 256 at inside
    omega
  refine ⟨n + place.depth, ancestors, ?_⟩
  rw [level, ← progress.above_eq distinct member]
  exact member

/-- With distinct ids, an event with fewer than 256 ancestors stands as many levels deep under its parent and is not
promoted. If parents have lower ids, all events have ancestors, and of a longer chain every 256th event stands at the
top of a tree. -/
theorem ofEvents_depth (events : List Event) (distinct : (events.map Event.id).Nodup) :
    (∀ e ∈ events, ∀ n, Ancestors events e n → n < 256 →
      ⟨n, parent? events e, e⟩ ∈ placesEach (ofEvents events) ∧ e ∉ (promoted events).map StepTree.event) ∧
    ((∀ e ∈ events, e.parentId < e.id) → ∀ e ∈ events, ∃ n, Ancestors events e n ∧
      ⟨n % 256, if n % 256 = 0 then none else parent? events e, e⟩ ∈ placesEach (ofEvents events)) := by
  constructor
  · intro e recorded n ancestors near
    have member := attached_place distinct ancestors recorded near
    exact ⟨mem_placesEach_append.mpr (.inl member), attached_not_promoted distinct member⟩
  · intro ascending e recorded
    exact ofEvents_place distinct ascending recorded

def link (id parentId : StepId) : Event :=
  ⟨Event.stepEventName, id, parentId, "link", "[]", ⟨⟨2024, 1, 1⟩, 0, 0, 0, 0⟩, 0⟩

/-- A chain whose innermost step ended first. -/
def chain : List Event :=
  [link 3 2, link 1 0, link 2 1]

theorem chain_depth :
    (chain.map Event.id).Nodup ∧ (∀ e ∈ chain, e.parentId < e.id) ∧ Ancestors chain (link 3 2) 2 ∧
      (⟨2, some (link 2 1), link 3 2⟩ ∈ placesEach (ofEvents chain) ∧
        link 3 2 ∉ (promoted chain).map StepTree.event) ∧
      ∃ n, Ancestors chain (link 2 1) n ∧
        ⟨n % 256, if n % 256 = 0 then none else some (link 1 0), link 2 1⟩ ∈ placesEach (ofEvents chain) := by
  have distinct : (chain.map Event.id).Nodup := by decide
  have ascending : ∀ e ∈ chain, e.parentId < e.id := by decide
  have ancestors : Ancestors chain (link 3 2) 2 := .under rfl (.under rfl (.top rfl))
  obtain ⟨near, every⟩ := ofEvents_depth chain distinct
  refine ⟨distinct, ascending, ancestors, ?_, ?_⟩
  · exact near (link 3 2) (by decide) 2 ancestors (by decide)
  · exact every ascending (link 2 1) (by decide)

end LaunchTrace.StepTree
