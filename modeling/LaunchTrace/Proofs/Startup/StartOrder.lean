import LaunchTrace.Proofs.Startup.Memory
import LaunchTrace.Proofs.Tree.Nesting

/-! The trees of a session whose steps have all ended. They show the steps in the order of their starts, each
under the step that was the innermost one then, although the events arrive in the order of the ends. -/
namespace LaunchTrace.Session
open Mark StepTree
open scoped List

variable {σ : Type} {f : Flight} {steps : List (Step σ)} {events : List Event} {history : List Mark}

/-- Once all steps have ended, their events are nested. -/
theorem Consistent.nested (consistent : Consistent f steps history) (remembered : Remembered events history)
    (closed : openIds history = []) : Nested events where
  distinct := remembered.ids ▸ ends_nodup history
  recorded := by
    intro e member
    obtain ⟨later, name, earlier, split, _, parent⟩ := remembered.origin consistent.numbered member
    rcases innermost_cases earlier with inside | ⟨_, root⟩
    · have started : innermost earlier ∈ startedIds history := by
        rw [split, startedIds_append]
        exact List.mem_append_right _ (List.mem_cons_of_mem _ (mem_openIds.mp inside).1)
      have ended := (ends_perm consistent.numbered consistent.ended closed).symm.subset started
      rw [← remembered.ids] at ended
      obtain ⟨upper, found, same⟩ := List.mem_map.mp ended
      exact .inr ⟨upper, found, same.trans parent.symm⟩
    · exact .inl (parent.trans root)
  ascending := by
    intro e member
    obtain ⟨later, name, earlier, split, _, parent⟩ := remembered.origin consistent.numbered member
    rw [parent]
    exact parent_lt (split ▸ consistent.numbered)
  nested := by
    intro e member second inside below ahead
    have numbered := consistent.numbered
    obtain ⟨later, name, earlier, split, _, parent⟩ := remembered.origin numbered inside
    obtain ⟨_, started, _⟩ := remembered.started e member
    rw [split] at numbered started
    obtain ⟨between, before, splitEarlier⟩ := List.append_of_mem (mark_of_lt numbered started ahead)
    obtain ⟨_, _, numbered⟩ := numbered_split numbered
    rw [parent, splitEarlier] at below
    rw [splitEarlier] at numbered
    obtain ⟨_, upper, _⟩ := numbered_split numbered
    have bound := innermost_le numbered below
    rw [← upper] at bound
    rw [parent, splitEarlier]
    exact bound

/-- Once all steps have ended, the trees list them in the order of their starts. -/
theorem listed_started (consistent : Consistent f steps history) (remembered : Remembered events history)
    (closed : openIds history = []) (near : ∀ e ∈ events, ∀ n, Ancestors events e n → n < levels) :
    (preorder (ofEvents events)).map (fun node => node.2.id) = (startedIds history).reverse := by
  have listed : (preorder (ofEvents events)).map (fun node => node.2.id) =
      ((placesEach (ofEvents events)).map Place.event).map Event.id := by
    simp only [preorder_eq, List.map_map, Function.comp_def]
  have same : ((placesEach (ofEvents events)).map Place.event).map Event.id ~ (startedIds history).reverse :=
    calc ((placesEach (ofEvents events)).map Place.event).map Event.id
      _ ~ events.map Event.id := (ofEvents_perm events).map Event.id
      _ ~ ends history := List.Perm.of_eq remembered.ids
      _ ~ startedIds history := ends_perm consistent.numbered consistent.ended closed
      _ ~ (startedIds history).reverse := (List.reverse_perm _).symm
  have ascending : (((placesEach (ofEvents events)).map Place.event).map Event.id).Pairwise (· < ·) := by
    rw [List.map_map]
    exact List.pairwise_map.mpr (nested_listing (consistent.nested remembered closed) near).1
  have counted : (startedIds history).reverse.Pairwise (· < ·) :=
    List.pairwise_reverse.mpr (startedIds_descending consistent.numbered)
  rw [listed]
  refine same.eq_of_pairwise ?_ ascending counted
  intro a b _ _ lower higher
  exact absurd (UInt64.lt_trans lower higher) (UInt64.lt_irrefl _)

/-- The trees of a memory show all steps in the order of their starts, once all of them have ended. Each stands under
the step that was the innermost one at its start, and nothing is promoted. No list of events has 2^64 of them. -/
theorem run_startOrder (host : Host) (clock : Clock) (state : σ) (ops : List (Operation σ)) {s : Session σ}
    (ran : (ofRecorder (.sink (.memory [])) host clock state).run ops = s) (internal : ∀ op ∈ ops, op.Internal)
    (fits : s.recorded.length < UInt64.size) (closed : openIds s.history = [])
    (near : ∀ e ∈ s.recorded, ∀ n, Ancestors s.recorded e n → n ≤ 255) :
    s.recorded.map Event.id = ends s.history ∧
      (preorder (ofEvents s.recorded)).map (fun node => node.2.id) = (startedIds s.history).reverse ∧
      (preorder (ofEvents s.recorded)).map (fun node => node.2.id.toNat) =
        List.range' 1 (startedIds s.history).length ∧
      (∀ place ∈ placesEach (ofEvents s.recorded), ∃ later name earlier,
        s.history = later ++ .started place.event.id (innermost earlier) name :: earlier ∧
          place.event.name = name.text ∧ (place.above.map Event.id).getD rootId = innermost earlier) ∧
      promoted s.recorded = [] := by
  obtain ⟨tracked, f, events, recording, filed, remembered⟩ := ran ▸ run_remembering host clock state internal
  have kept : s.recorded = events := by
    simp only [recorded, recording, filed.memory, Recorder.memories, Recorder.sinks, List.filterMap_cons,
      Sink.events?, List.filterMap_nil, List.flatten_cons, List.flatten_nil, List.append_nil]
  rw [kept] at fits near ⊢
  have few := filed.few closed fits
  have consistent := tracked f recording few
  have remembered := remembered few
  have nested := consistent.nested remembered closed
  have shallow : ∀ e ∈ events, ∀ n, Ancestors events e n → n < levels :=
    fun e member n ancestors => Nat.lt_succ_of_le (near e member n ancestors)
  have listed := listed_started consistent remembered closed shallow
  refine ⟨remembered.ids, listed, ?_, ?_, promoted_eq_nil nested shallow⟩
  · rw [← startedIds_numbers consistent.numbered, ← listed, List.map_map]
    rfl
  · intro place member
    have recorded := (ofEvents_progress events).recorded member
    obtain ⟨later, name, earlier, split, named, parent⟩ := remembered.origin consistent.numbered recorded
    exact ⟨later, name, earlier, split, named, ((nested_listing nested shallow).2 place member).trans parent⟩

def unwound : Session Unit :=
  (ofRecorder (.sink (.memory [])) bareHost (.still newYear) ()).run
    (overlapping ++ [.unwind ["serve", "scan", "bind"]])

theorem unwound_startOrder :
    unwound.recorded.map Event.id = [1, 3, 4, 2] ∧
      (preorder (ofEvents unwound.recorded)).map (fun node => node.2.id.toNat) = [1, 2, 3, 4] ∧
      promoted unwound.recorded = [] := by
  have internal : ∀ op ∈ overlapping ++ [.unwind ["serve", "scan", "bind"]], op.Internal := by
    simp [overlapping, Operation.Internal]
  have near : ∀ e ∈ unwound.recorded, ∀ n, Ancestors unwound.recorded e n → n ≤ 255 := by
    intro e member n ancestors
    have ascending : ∀ e ∈ unwound.recorded, e.parentId < e.id := by decide +kernel
    have low : ∀ e ∈ unwound.recorded, e.id.toNat ≤ 255 := by decide +kernel
    exact Nat.le_of_lt (Nat.lt_of_lt_of_le (ancestors_lt ascending ancestors member) (low e member))
  obtain ⟨arrived, _, listed, _, none⟩ :=
    run_startOrder bareHost (.still newYear) () _ rfl internal (by decide +kernel) (by decide +kernel) near
  exact ⟨arrived.trans (by decide +kernel), listed.trans (by decide +kernel), none⟩

end LaunchTrace.Session
