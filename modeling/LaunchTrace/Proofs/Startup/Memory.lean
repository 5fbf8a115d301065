import LaunchTrace.Proofs.Startup.Keeping
import LaunchTrace.Proofs.Startup.OpenSteps

/-! What a memory holds after a session of which it is the only recorder: the events of all steps that have ended, in
the order of their ends, with the ids, parents and names of their starts. -/
namespace LaunchTrace.Session
open Mark

variable {σ : Type} {f : Flight} {steps next : List (Step σ)} {step : Step σ} {state : σ} {s t : Session σ}
  {e : Event} {events : List Event} {history : List Mark}

/-- The events in the memories of a session. -/
def recorded (s : Session σ) : List Event :=
  match s.startup with
  | .off => []
  | .recording f => f.recorder.memories.flatten

/-- How the events of a memory agree with the history. -/
structure Remembered (events : List Event) (history : List Mark) : Prop where
  ids : events.map Event.id = ends history
  started : ∀ e ∈ events, ∃ name, .started e.id e.parentId name ∈ history ∧ e.name = name.text

theorem Remembered.mark (remembered : Remembered events history) {mark : Mark}
    (same : ends (mark :: history) = ends history) : Remembered events (mark :: history) where
  ids := remembered.ids.trans same.symm
  started := by
    intro e member
    obtain ⟨name, started, named⟩ := remembered.started e member
    exact ⟨name, List.mem_cons_of_mem _ started, named⟩

theorem Remembered.ended (remembered : Remembered events history) {name : StepName}
    (started : .started e.id e.parentId name ∈ history) (named : e.name = name.text)
    (running : e.id ∉ endedIds history) : Remembered (events ++ [e]) (.ended e.id :: history) where
  ids := by rw [List.map_append, remembered.ids, ends, if_neg running, List.map_cons, List.map_nil]
  started := by
    intro other member
    rcases List.mem_append.mp member with member | last
    · obtain ⟨name, started, named⟩ := remembered.started other member
      exact ⟨name, List.mem_cons_of_mem _ started, named⟩
    · obtain rfl := List.mem_singleton.mp last
      exact ⟨name, List.mem_cons_of_mem _ started, named⟩

/-- What holds of a memory even where ids are used again: it has an event for every id that has ended, and as many
ids have been used as there are starts, up to all of them. -/
structure Filed (f : Flight) (steps : List (Step σ)) (events : List Event) (history : List Mark) : Prop where
  memory : f.recorder = .sink (.memory events)
  current : f.current = UInt64.ofNat (startedIds history).length
  used : ∀ n, 0 < n → n ≤ (startedIds history).length → UInt64.ofNat n ∈ startedIds history
  held : ∀ step ∈ steps, step.ended = true → step.id ∈ events.map Event.id
  ended : ∀ id ∈ endedIds history, id ∈ events.map Event.id

theorem Filed.start (filed : Filed f steps events history) (name : StepName) :
    Filed (f.start (σ := σ) name).2 ((f.start name).1 :: steps) events
      (.started (f.current + 1) f.openSteps.head name :: history) where
  memory := filed.memory
  current := by
    rw [Flight.start_current, filed.current, startedIds, List.length_cons, UInt64.ofNat_add]
    rfl
  used := by
    intro n positive bound
    simp only [startedIds, List.length_cons] at bound
    by_cases last : n = (startedIds history).length + 1
    · rw [last, UInt64.ofNat_add, ← filed.current]
      exact List.mem_cons_self
    · exact List.mem_cons_of_mem _ (filed.used n positive (by omega))
  held := by
    intro step member ended
    rcases List.mem_cons.mp member with rfl | member
    · simp at ended
    · exact filed.held step member ended
  ended := filed.ended

/-- Ending a step again adds nothing. -/
theorem Filed.again (filed : Filed f (step :: steps) events history) (ended : step.ended = true) :
    Filed f (step :: steps) events (.ended step.id :: history) where
  memory := filed.memory
  current := filed.current
  used := filed.used
  held := filed.held
  ended := by
    intro id member
    rcases List.mem_cons.mp member with rfl | member
    · exact filed.held step List.mem_cons_self ended
    · exact filed.ended id member

theorem Filed.finish (filed : Filed f (step :: steps) events history) (state : σ) (same : e.id = step.id)
    (added : (f.finish step state).2.2.recorder = .sink (.memory (events ++ [e]))) :
    Filed (f.finish step state).2.2 ((f.finish step state).1 :: steps) (events ++ [e])
      (.ended step.id :: history) where
  memory := added
  current := by
    rw [Flight.finish_current]
    exact filed.current
  used := filed.used
  held := by
    intro other member ended
    rw [List.map_append, List.mem_append]
    rcases List.mem_cons.mp member with rfl | member
    · right
      simp [same]
    · exact .inl (filed.held other (List.mem_cons_of_mem _ member) ended)
  ended := by
    intro id member
    rw [List.map_append, List.mem_append]
    rcases List.mem_cons.mp member with rfl | member
    · right
      simp [same]
    · exact .inl (filed.ended id member)

/-- Steps may leave, and be replaced by others with their ids. -/
theorem Filed.keep (filed : Filed f steps events history)
    (kept : ∀ step ∈ next, ∃ old ∈ steps, old.id = step.id ∧ old.ended = step.ended) :
    Filed f next events history where
  memory := filed.memory
  current := filed.current
  used := filed.used
  held := by
    intro step member ended
    obtain ⟨old, found, same, past⟩ := kept step member
    exact same ▸ filed.held old found (past.trans ended)
  ended := filed.ended

/-- If no step is open and the memory has fewer events than there are ids, no id has been used twice. -/
theorem Filed.few (filed : Filed f steps events history) (closed : openIds history = [])
    (fits : events.length < UInt64.size) : (startedIds history).length < UInt64.size := by
  by_contra many
  have apart : ((List.range' 1 UInt64.size).map UInt64.ofNat).Nodup := by
    refine List.Nodup.map_on ?_ List.nodup_range'
    intro n member m other same
    have same := congrArg UInt64.toNat same
    simp only [List.mem_range'_1, UInt64.toNat_ofNat', UInt64.size] at member other same
    omega
  -- So many starts have used every id, none of them is open, and what has ended has an event.
  have filled : (List.range' 1 UInt64.size).map UInt64.ofNat ⊆ events.map Event.id := by
    intro id member
    obtain ⟨n, bound, rfl⟩ := List.mem_map.mp member
    rw [List.mem_range'_1] at bound
    have started := filed.used n bound.1 (by omega)
    by_contra missing
    have running : UInt64.ofNat n ∉ endedIds history := fun ended => missing (filed.ended _ ended)
    have member := mem_openIds.mpr ⟨started, running⟩
    simp [closed] at member
  have long := apart.length_le_of_subset filled
  rw [List.length_map, List.length_range', List.length_map] at long
  omega

/-- A session whose only recorder is a memory that agrees with the history as long as the ids last. -/
def Remembering (s : Session σ) : Prop :=
  ∃ f events, s.startup = .recording f ∧ Filed f (stepsOf s.held) events s.history ∧
    ((startedIds s.history).length < UInt64.size → Remembered events s.history)

theorem move_remembering (move : Move s t) (tracked : Tracked s) (remembering : Remembering s) : Remembering t := by
  obtain ⟨g, events, recording, filed, remembered⟩ := remembering
  cases move with
  | start f held state history label name direct =>
    obtain rfl := Startup.recording.inj recording
    refine ⟨_, events, rfl, filed.start name, ?_⟩
    intro few
    exact (remembered (Nat.lt_of_succ_lt few)).mark rfl
  | callEnd f step held state history label direct =>
    obtain rfl := Startup.recording.inj recording
    cases ended : step.ended with
    | true =>
      rw [Flight.finish_of_ended ended]
      refine ⟨f, events, rfl, Filed.again filed ended, ?_⟩
      intro few
      have known := (tracked_iff.mp tracked few).known step List.mem_cons_self
      exact (remembered few).mark (if_pos (known.2.mp ended))
    | false =>
      obtain ⟨e, added, id, parentId, name⟩ := Flight.finish_memory filed.memory state ended
      refine ⟨_, _, rfl, Filed.finish filed state id added, ?_⟩
      intro few
      obtain ⟨started, past⟩ := (tracked_iff.mp tracked few).known step List.mem_cons_self
      have running : step.id ∉ endedIds history := by
        intro member
        rw [past.mpr member] at ended
        contradiction
      rw [← id] at started running ⊢
      rw [← parentId] at started
      exact (remembered few).ended started name running
  | attach f step held state history label direct tag =>
    refine ⟨g, events, recording, filed.keep ?_, remembered⟩
    intro other member
    rcases List.mem_cons.mp member with rfl | member
    · refine ⟨step, List.mem_cons_self, ?_⟩
      unfold Step.attach
      split <;> exact ⟨rfl, rfl⟩
    · exact ⟨other, List.mem_cons_of_mem _ member, rfl, rfl⟩
  | leave f h held state history label past =>
    refine ⟨g, events, recording, filed.keep ?_, remembered⟩
    intro step member
    exact ⟨step, (List.sublist_cons_self _ held).filterMap _ |>.subset member, rfl, rfl⟩
  | arrange f state history same =>
    refine ⟨g, events, recording, filed.keep ?_, remembered⟩
    intro step member
    exact ⟨step, (same.filterMap _).symm.subset member, rfl, rfl⟩
  | change f held state history next => exact ⟨g, events, recording, filed, remembered⟩

theorem run_remembering (host : Host) (clock : Clock) (state : σ) {ops : List (Operation σ)}
    (internal : ∀ op ∈ ops, op.Internal) :
    Tracked ((ofRecorder (.sink (.memory [])) host clock state).run ops) ∧
      Remembering ((ofRecorder (.sink (.memory [])) host clock state).run ops) := by
  refine moves_induction (P := fun s => Tracked s ∧ Remembering s) ?_ (run_moves ⟨_, rfl⟩ internal) ⟨?_, ?_⟩
  · rintro s t move ⟨tracked, remembering⟩
    exact ⟨move_tracked move tracked, move_remembering move tracked remembering⟩
  · exact tracked_iff.mpr fun _ => consistent_launch _ host clock
  · refine ⟨_, [], rfl, ⟨rfl, rfl, ?_, ?_, ?_⟩, fun _ => ⟨rfl, ?_⟩⟩
    · intro n positive bound
      exact absurd positive (Nat.not_lt.mpr bound)
    · exact fun step member => absurd member List.not_mem_nil
    · exact fun id member => absurd member List.not_mem_nil
    · exact fun e member => absurd member List.not_mem_nil

/-- Each event was started under the step that was the innermost one then. -/
theorem Remembered.origin (remembered : Remembered events history) (numbered : Numbered history)
    (member : e ∈ events) : ∃ later name earlier,
      history = later ++ .started e.id (innermost earlier) name :: earlier ∧ e.name = name.text ∧
        e.parentId = innermost earlier := by
  obtain ⟨name, started, named⟩ := remembered.started e member
  obtain ⟨later, earlier, split⟩ := List.append_of_mem started
  obtain ⟨_, parent, _⟩ := numbered_split (split ▸ numbered)
  exact ⟨later, name, earlier, parent ▸ split, named, parent⟩

end LaunchTrace.Session
