import LaunchTrace.Proofs.Startup.History
import LaunchTrace.Proofs.Startup.Moves

/-! The open steps of a flight are the started steps that have not ended, the last one first, in every session of
fewer than 2^64 starts. The starts and ends are read off the history, which no recorder can change. -/
namespace LaunchTrace

variable {σ : Type}

theorem OpenSteps.remove_ids {o : OpenSteps} {id : StepId} (distinct : o.ids.Nodup) (inner : rootId ∉ o.ids) :
    (o.remove id).2.ids = o.ids.filter (· ≠ id) := by
  unfold OpenSteps.remove
  split
  · simp only [distinct.erase_eq_filter id, decide_not, ne_eq]
    exact List.filter_congr fun other _ => by simp [bne, beq_eq_decide]
  · rename_i missing
    symm
    rw [List.filter_eq_self]
    intro other member
    rw [decide_eq_true_eq]
    rintro rfl
    exact missing ⟨fun root => inner (root ▸ member), member⟩

def StepHandle.step? : StepHandle σ → Option (Step σ)
  | .off => none
  | .step s => some s

namespace Session
open Mark Relation

def stepsOf (held : List (String × Held σ)) : List (Step σ) :=
  held.filterMap fun entry => entry.2.handle.step?

/-- How a flight and the steps that are held agree with the history. -/
structure Consistent (f : Flight) (steps : List (Step σ)) (history : List Mark) : Prop where
  counted : f.current.toNat = (startedIds history).length
  opened : f.openSteps.ids = openIds history
  numbered : Numbered history
  ended : ∀ id ∈ endedIds history, id ∈ startedIds history
  known : ∀ step ∈ steps, .started step.id step.parentId step.name ∈ history ∧
    (step.ended = true ↔ step.id ∈ endedIds history)
  kept : ∀ id ∈ openIds history, id ∈ steps.map Step.id
  distinct : (steps.map Step.id).Nodup

variable {f g : Flight} {steps next : List (Step σ)} {step other : Step σ} {state : σ} {history : List Mark}
  {name : StepName} {s t : Session σ}

theorem consistent_launch (recorder : Recorder) (host : Host) (clock : Clock) :
    Consistent (σ := σ) (.launch recorder host clock) [] [] where
  counted := rfl
  opened := rfl
  numbered := trivial
  ended := by simp [endedIds]
  known := by simp
  kept := by simp [openIds, startedIds]
  distinct := List.nodup_nil

theorem Consistent.start (consistent : Consistent f steps history)
    (few : (startedIds history).length + 1 < UInt64.size) (name : StepName) :
    Consistent (f.start (σ := σ) name).2 ((f.start name).1 :: steps)
      (.started (f.current + 1) f.openSteps.head name :: history) := by
  have number : (f.current + 1).toNat = (startedIds history).length + 1 := by
    rw [UInt64.toNat_add, consistent.counted]
    exact Nat.mod_eq_of_lt few
  -- The new id lies above all others.
  have fresh : f.current + 1 ∉ startedIds history := by
    intro member
    have bound := (numbered_bound consistent.numbered member).2
    omega
  have unended : f.current + 1 ∉ endedIds history := fun member => fresh (consistent.ended _ member)
  exact {
    counted := number
    opened := by rw [Flight.start_ids, consistent.opened, openIds_started unended]
    numbered := ⟨number, by rw [OpenSteps.head, consistent.opened, innermost], consistent.numbered⟩
    ended := fun id member => List.mem_cons_of_mem _ (consistent.ended id member)
    known := by
      intro step member
      rcases List.mem_cons.mp member with rfl | member
      · refine ⟨List.mem_cons_self, ?_⟩
        simpa only [Flight.start_ended, Flight.start_id, endedIds, Bool.false_eq_true, false_iff] using unended
      · obtain ⟨started, past⟩ := consistent.known step member
        exact ⟨List.mem_cons_of_mem _ started, past⟩
    kept := by
      intro id member
      rw [openIds_started unended] at member
      rcases List.mem_cons.mp member with rfl | member
      · exact List.mem_cons_self
      · exact List.mem_cons_of_mem _ (consistent.kept id member)
    distinct := by
      refine List.nodup_cons.mpr ⟨?_, consistent.distinct⟩
      intro member
      obtain ⟨step, held, same⟩ := List.mem_map.mp member
      have started := started_of_mark (consistent.known step held).1
      rw [same, Flight.start_id] at started
      exact fresh started }

/-- A step may be replaced by one that differs in its tags. -/
theorem Consistent.replace (consistent : Consistent f (step :: steps) history) (id : other.id = step.id)
    (parentId : other.parentId = step.parentId) (name : other.name = step.name) (ended : other.ended = step.ended) :
    Consistent f (other :: steps) history where
  counted := consistent.counted
  opened := consistent.opened
  numbered := consistent.numbered
  ended := consistent.ended
  known := by
    intro held member
    rcases List.mem_cons.mp member with rfl | member
    · rw [id, parentId, name, ended]
      exact consistent.known step List.mem_cons_self
    · exact consistent.known held (List.mem_cons_of_mem _ member)
  kept := by simpa only [List.map_cons, id] using consistent.kept
  distinct := by simpa only [List.map_cons, id] using consistent.distinct

theorem Consistent.callEnd (consistent : Consistent f (step :: steps) history) (state : σ) :
    Consistent (f.finish step state).2.2 ((f.finish step state).1 :: steps) (.ended step.id :: history) := by
  obtain ⟨started, past⟩ := consistent.known step List.mem_cons_self
  have begun := started_of_mark started
  have positive : rootId ∉ openIds history := fun member =>
    UInt64.lt_irrefl _ (openIds_positive consistent.numbered member)
  have ids : (f.finish step state).2.2.openSteps.ids = (openIds history).filter (· ≠ step.id) := by
    rw [Flight.finish_openSteps]
    split
    · rename_i ended
      rw [consistent.opened, eq_comm, List.filter_eq_self]
      intro id member
      rw [decide_eq_true_eq]
      rintro rfl
      exact (mem_openIds.mp member).2 (past.mp ended)
    · rw [← consistent.opened] at positive ⊢
      apply OpenSteps.remove_ids _ positive
      rw [consistent.opened]
      exact (startedIds_nodup consistent.numbered).filter _
  exact {
    counted := by rw [Flight.finish_current]; exact consistent.counted
    opened := by rw [ids, openIds_ended]
    numbered := consistent.numbered
    ended := by
      intro id member
      rcases List.mem_cons.mp member with rfl | earlier
      · exact begun
      · exact consistent.ended id earlier
    known := by
      intro held member
      rcases List.mem_cons.mp member with rfl | member
      · rw [Flight.finish_id, Flight.finish_parentId, Flight.finish_name, Flight.finish_ended]
        exact ⟨List.mem_cons_of_mem _ started, by simp [endedIds]⟩
      · have different : held.id ≠ step.id := by
          intro same
          exact (List.nodup_cons.mp consistent.distinct).1 (same ▸ List.mem_map_of_mem member)
        obtain ⟨started, past⟩ := consistent.known held (List.mem_cons_of_mem _ member)
        exact ⟨List.mem_cons_of_mem _ started, by simp [endedIds, different, past]⟩
    kept := by
      intro id member
      rw [openIds_ended] at member
      simpa only [List.map_cons, Flight.finish_id] using consistent.kept id (List.mem_filter.mp member).1
    distinct := by simpa only [List.map_cons, Flight.finish_id] using consistent.distinct }

theorem Consistent.leave (consistent : Consistent f (step :: steps) history) (ended : step.ended = true) :
    Consistent f steps history where
  counted := consistent.counted
  opened := consistent.opened
  numbered := consistent.numbered
  ended := consistent.ended
  known := fun held member => consistent.known held (List.mem_cons_of_mem _ member)
  kept := by
    intro id member
    rcases List.mem_cons.mp (consistent.kept id member) with rfl | kept
    · exact absurd ((consistent.known step List.mem_cons_self).2.mp ended) (mem_openIds.mp member).2
    · exact kept
  distinct := (List.nodup_cons.mp consistent.distinct).2

theorem Consistent.arrange (consistent : Consistent f steps history) (same : steps.Perm next) :
    Consistent f next history where
  counted := consistent.counted
  opened := consistent.opened
  numbered := consistent.numbered
  ended := consistent.ended
  known := fun step member => consistent.known step (same.symm.subset member)
  kept := fun id member => (same.map Step.id).subset (consistent.kept id member)
  distinct := (same.map Step.id).nodup_iff.mp consistent.distinct

theorem Consistent.surround (consistent : Consistent f steps history) (recorder : Recorder) (host : Host) :
    Consistent { f with recorder, host } steps history where
  counted := consistent.counted
  opened := consistent.opened
  numbered := consistent.numbered
  ended := consistent.ended
  known := consistent.known
  kept := consistent.kept
  distinct := consistent.distinct

/-- The open steps are those held ones that have not ended. -/
theorem Consistent.open_iff (consistent : Consistent f steps history) {id : StepId} :
    id ∈ openIds history ↔ ∃ step ∈ steps, step.id = id ∧ step.ended = false := by
  constructor
  · intro member
    obtain ⟨step, held, rfl⟩ := List.mem_map.mp (consistent.kept id member)
    refine ⟨step, held, rfl, ?_⟩
    rw [← Bool.not_eq_true, (consistent.known step held).2]
    exact (mem_openIds.mp member).2
  · rintro ⟨step, held, rfl, running⟩
    obtain ⟨started, past⟩ := consistent.known step held
    refine mem_openIds.mpr ⟨started_of_mark started, ?_⟩
    rw [← past, running]
    exact Bool.false_ne_true

/-- As long as the ids last, the flight of a session agrees with its history. -/
def Tracked (s : Session σ) : Prop :=
  ∀ f, s.startup = .recording f → (startedIds s.history).length < UInt64.size →
    Consistent f (stepsOf s.held) s.history

theorem tracked_iff {held : List (String × Held σ)} : Tracked ⟨.recording f, held, state, history⟩ ↔
    ((startedIds history).length < UInt64.size → Consistent f (stepsOf held) history) := by
  constructor
  · intro tracked
    exact tracked f rfl
  · intro consistent g same
    obtain rfl := Startup.recording.inj same
    exact consistent

theorem move_tracked (move : Move s t) (tracked : Tracked s) : Tracked t := by
  cases move with
  | start f held state history label name direct =>
    rw [tracked_iff] at *
    intro few
    exact (tracked (Nat.lt_of_succ_lt few)).start few name
  | callEnd f step held state history label direct =>
    rw [tracked_iff] at *
    intro few
    exact Consistent.callEnd (tracked few) state
  | attach f step held state history label direct tag =>
    rw [tracked_iff] at *
    intro few
    apply Consistent.replace (tracked few) <;> (unfold Step.attach; split <;> rfl)
  | leave f h held state history label past =>
    rw [tracked_iff] at *
    intro few
    obtain ⟨handle, direct⟩ := h
    cases handle with
    | off => exact tracked few
    | step step => exact Consistent.leave (tracked few) past
  | arrange f state history same =>
    rw [tracked_iff] at *
    intro few
    exact (tracked few).arrange (same.filterMap _)
  | change f held state history next =>
    rw [tracked_iff] at *
    exact tracked

theorem run_tracked (recorder : Recorder) (host : Host) (clock : Clock) (state : σ) (ops : List (Operation σ)) :
    ((ofRecorder recorder host clock state).run ops).Recording ∧
      Tracked ((ofRecorder recorder host clock state).run ops) := by
  refine run_induction (fun s t => move_tracked) ?_ ops _ ⟨_, rfl⟩ ?_
  · intro f held state history recorder host tracked
    rw [tracked_iff] at *
    intro few
    exact (tracked few).surround recorder host
  · exact tracked_iff.mpr fun _ => consistent_launch recorder host clock

theorem callEnd_history (s : Session σ) (h : Held σ) :
    (s.callEnd h).2.history = h.handle.endMarks ++ s.history := rfl

theorem letGo_history (s : Session σ) (h : Held σ) : ∃ later, (s.letGo h).history = later ++ s.history := by
  obtain ⟨handle, direct⟩ := h
  cases direct with
  | true => exact ⟨_, rfl⟩
  | false => exact ⟨_, (List.append_assoc _ _ _).symm⟩

theorem letGo_endedIds {id : StepId} (ended : id ∈ endedIds s.history) (h : Held σ) :
    id ∈ endedIds (s.letGo h).history := by
  obtain ⟨later, same⟩ := letGo_history s h
  rw [same, endedIds_append]
  exact List.mem_append_right _ ended

/-- The end of a step closes it, and so does its drop. -/
theorem closed_of_held {label : String} {direct : Bool} {rest : List (String × Held σ)}
    (found : Held.take? label s.held = some (⟨.step step, direct⟩, rest)) :
    step.id ∉ openIds (s.finish label).2.history ∧ step.id ∉ openIds (s.release label).2.history := by
  have called (t : Session σ) : step.id ∈ endedIds (t.callEnd ⟨.step step, direct⟩).2.history := List.mem_cons_self
  simp only [mem_openIds, not_and, Classical.not_not]
  constructor
  · intro _
    simp only [finish, withHeld, found]
    split
    · exact called _
    · exact letGo_endedIds (called _) _
  · intro _
    simp only [release, withHeld, found, letGo]
    split
    · exact called _
    · -- The wrapper has ended the step before the step ends itself.
      rw [callEnd_history, endedIds_append]
      exact List.mem_append_right _ (called _)

theorem release_history (s : Session σ) (label : String) :
    ∃ later, (s.release label).2.history = later ++ s.history := by
  unfold release withHeld
  split
  · exact ⟨[], rfl⟩
  · exact letGo_history _ _

theorem start_history {label : String} {route : Route} {text : String} (recording : s.startup = .recording f)
    (sound : StepName.validate text = .ok name) :
    ∃ later, (s.start label route text).2.history =
      later ++ .started (f.current + 1) f.openSteps.head name :: s.history := by
  obtain ⟨startup, held, state, history⟩ := s
  obtain rfl : startup = .recording f := recording
  rw [start_of_valid sound]
  exact release_history _ label

theorem snapshot_descending (numbered : Numbered history) : (openIds history ++ [rootId]).Pairwise (· > ·) := by
  rw [List.pairwise_append]
  refine ⟨openIds_descending numbered, List.pairwise_singleton _ _, ?_⟩
  intro id member root same
  obtain rfl := List.mem_singleton.mp same
  exact openIds_positive numbered member

/-- The id of a step counts the starts as far as its own, and its parent is the innermost of the steps open before. -/
theorem started_numbers {later earlier : List Mark} {id parentId : StepId}
    (numbered : Numbered (later ++ .started id parentId name :: earlier)) :
    id.toNat = (startedIds earlier).length + 1 ∧
      (parentId ∈ openIds earlier ∨ openIds earlier = [] ∧ parentId = rootId) ∧
      (∀ other ∈ openIds earlier, other ≤ parentId) ∧ parentId < id := by
  have lower := parent_lt numbered
  obtain ⟨count, rfl, before⟩ := numbered_split numbered
  exact ⟨count, innermost_cases earlier, fun other member => le_innermost before member, lower⟩

/-- In every session of fewer than 2^64 starts, the open steps are those started and not ended, and each of them is
held until it is ended or let go of. The id of a step counts the starts, and its parent is the innermost open step. A
bad name changes nothing. -/
theorem run_openSteps (recorder : Recorder) (host : Host) (clock : Clock) (state : σ) (ops : List (Operation σ))
    {s : Session σ} (ran : (ofRecorder recorder host clock state).run ops = s)
    (few : (startedIds s.history).length < UInt64.size) :
    ∃ f, s.startup = .recording f ∧
      f.openSteps.snapshot = openIds s.history ++ [rootId] ∧
      f.openSteps.snapshot.Pairwise (· > ·) ∧
      f.current.toNat = (startedIds s.history).length ∧
      (∀ later id parentId name earlier, s.history = later ++ .started id parentId name :: earlier →
        id.toNat = (startedIds earlier).length + 1 ∧
        (parentId ∈ openIds earlier ∨ openIds earlier = [] ∧ parentId = rootId) ∧
        (∀ other ∈ openIds earlier, other ≤ parentId) ∧ parentId < id) ∧
      (∀ label route text name, StepName.validate text = .ok name →
        (s.apply (.start label route text)).1 =
          .started (f.current + 1) (if f.openSteps.head = rootId then none else some f.openSteps.head) ∧
        ∃ later, (s.apply (.start label route text)).2.history =
          later ++ .started (f.current + 1) f.openSteps.head name :: s.history) ∧
      (∀ label route text error, StepName.validate text = .error error →
        s.apply (.start label route text) = (complaint error route, s)) ∧
      (∀ id, id ∈ openIds s.history ↔ ∃ step ∈ stepsOf s.held, step.id = id ∧ step.ended = false) ∧
      (∀ label step direct rest, Held.take? label s.held = some (⟨.step step, direct⟩, rest) →
        step.id ∉ openIds (s.apply (.finish label)).2.history ∧
        step.id ∉ openIds (s.apply (.release label)).2.history) ∧
      (s.held = [] → f.openSteps.snapshot = [rootId]) := by
  obtain ⟨⟨f, recording⟩, tracked⟩ := ran ▸ run_tracked recorder host clock state ops
  have consistent := tracked f recording few
  have snapshot : f.openSteps.snapshot = openIds s.history ++ [rootId] := by
    rw [OpenSteps.snapshot, consistent.opened]
  refine ⟨f, recording, snapshot, ?_, consistent.counted, ?_, ?_, ?_, fun id => consistent.open_iff,
    fun label step direct rest => closed_of_held, ?_⟩
  · rw [snapshot]
    exact snapshot_descending consistent.numbered
  · intro later id parentId name earlier split
    exact started_numbers (split ▸ consistent.numbered)
  · intro label route text name sound
    refine ⟨?_, start_history recording sound⟩
    obtain ⟨startup, held, state, history⟩ := s
    obtain rfl : startup = .recording f := recording
    exact congrArg Prod.fst (start_of_valid sound f held state history label route)
  · intro label route text error invalid
    exact start_of_invalid invalid ⟨f, recording⟩ label route
  · intro gone
    have none : openIds s.history = [] := by
      rw [List.eq_nil_iff_forall_not_mem]
      intro id member
      obtain ⟨step, held, _⟩ := consistent.open_iff.mp member
      simp [gone, stepsOf] at held
    rw [snapshot, none]
    rfl

def bareHost : Host :=
  ⟨⟨[], []⟩, [], false, ⟨0⟩⟩

def newYear : Timestamp :=
  ⟨⟨2024, 1, 1⟩, 0, 0, 0, 0⟩

/-- Steps that end in another order than they were started in. -/
def overlapping : List (Operation Unit) :=
  [.start "load" (.start .own) "app.load", .start "scan" (.tryStart (.shared .own)) "app.scan",
    .start "none" .direct "app..none", .start "bind" .direct "app.bind", .tag "scan" ⟨"files", .ready "3"⟩,
    .finish "load", .start "serve" (.start (.borrowed .own)) "app.serve", .finish "bind", .finish "bind"]

theorem overlapping_openSteps :
    let s := (ofRecorder (.sink (.panicking "full")) bareHost (.still newYear) ()).run overlapping
    ∃ f, s.startup = .recording f ∧ f.openSteps.snapshot = [4, 2, 0] ∧ f.current.toNat = 4 ∧
      ∀ id, id ∈ [4, 2] ↔ ∃ step ∈ stepsOf s.held, step.id = id ∧ step.ended = false := by
  intro s
  obtain ⟨f, recording, snapshot, _, counted, _, _, _, held, _⟩ :=
    run_openSteps (.sink (.panicking "full")) bareHost (.still newYear) () overlapping rfl (by decide +kernel)
  have still : openIds s.history = [4, 2] := by decide +kernel
  rw [still] at snapshot held
  refine ⟨f, recording, snapshot, ?_, held⟩
  rw [counted]
  decide +kernel

end Session
end LaunchTrace
