import LaunchTrace.Proofs.Startup.Keeping
import LaunchTrace.Proofs.Startup.Moves

/-! Sessions do what their journals say. This holds of every session whose recorder keeps the events that it gets,
and however many steps there are. -/
namespace LaunchTrace

variable {σ : Type} {sink : List Event → Sink} {on : Bool}

namespace Session
open Deed

/-- What is fixed at a start: id, parent and name. -/
abbrev Origin := StepId × StepId × String

/-- The first start comes first. -/
def origins : List Mark → List Origin
  | [] => []
  | .started id parentId name :: earlier => origins earlier ++ [(id, parentId, name.text)]
  | .ended _ :: earlier => origins earlier

/-- How a held step agrees with what is noted of the step with a number. -/
structure Noted (step : Step σ) (n : Nat) (deeds : List (Deed σ)) (born : List Origin) : Prop where
  started : n < starts deeds
  id : step.id = UInt64.ofNat (n + 1)
  origin : born[n]? = some (step.id, step.parentId, step.name.text)
  ended : step.ended = hasEnded n deeds
  tags : step.ended = false → step.tags.entries = kept n deeds

/-- How what is held agrees with a journal. -/
structure Listed (held : List (String × Held σ)) (born : List Origin) (j : Journal σ) : Prop where
  labels : (held.map Prod.fst).Nodup
  shown : ∀ label h, (label, h) ∈ held → ∃ n step, j.steps label = some (n, h.direct) ∧ h.handle = .step step ∧
    Noted step n j.deeds born
  known : ∀ label n direct, j.steps label = some (n, direct) → label ∈ held.map Prod.fst
  apart : ∀ label other n a b, j.steps label = some (n, a) → j.steps other = some (n, b) → label = other
  fresh : ∀ n, starts j.deeds ≤ n → hasEnded n j.deeds = false ∧ kept n j.deeds = []

/-- How the events of a memory agree with the commits of a journal. -/
structure Committed (initial : σ) (events : List Event) (born : List Origin) (deeds : List (Deed σ)) : Prop where
  entries : events.map (fun e => (e.id, e.tags)) = (commits deeds).map (entry initial)
  origins : events.map (fun e => some (e.id, e.parentId, e.name)) = (commits deeds).map fun commit => born[commit.1]?

/-- How a session agrees with a journal. The state was `initial` when the journal began. -/
structure Told (sink : List Event → Sink) (initial : σ) (on : Bool) (s : Session σ) (j : Journal σ) : Prop where
  flight : ∃ f events, s.startup = .recording f ∧ f.current = UInt64.ofNat (starts j.deeds) ∧
    f.Keeps sink on events ∧ Committed initial events (origins s.history) j.deeds
  state : s.state = stateAfter initial j.deeds
  counted : (origins s.history).length = starts j.deeds
  listed : Listed s.held (origins s.history) j

variable {initial : σ} {s : Session σ} {j : Journal σ} {h : Held σ} {held next : List (String × Held σ)}
  {label : String} {n : Nat} {direct : Bool} {step : Step σ} {deed : Deed σ} {deeds : List (Deed σ)}
  {born : List Origin} {events : List Event} {f : Flight}

theorem Noted.later (noted : Noted step n deeds born) (unconcerned : ¬deed.Concerns n) (more : List Origin) :
    Noted step n (deed :: deeds) (born ++ more) where
  started := Nat.lt_of_lt_of_le noted.started (starts_cons deed deeds)
  id := noted.id
  origin := by
    obtain ⟨bound, _⟩ := List.getElem?_eq_some_iff.mp noted.origin
    rw [List.getElem?_append_left bound, noted.origin]
  ended := by rw [hasEnded_cons unconcerned, noted.ended]
  tags := by
    rw [kept_cons unconcerned]
    exact noted.tags

theorem Listed.arrange (listed : Listed held born j) (same : held.Perm next) : Listed next born j where
  labels := (same.map Prod.fst).nodup_iff.mp listed.labels
  shown := fun label h member => listed.shown label h (same.symm.subset member)
  known := fun label n direct found => (same.map Prod.fst).subset (listed.known label n direct found)
  apart := listed.apart
  fresh := listed.fresh

theorem Listed.ne_of_mem (listed : Listed ((label, h) :: held) born j) {other : String} {k : Held σ}
    (member : (other, k) ∈ held) : other ≠ label := by
  rintro rfl
  exact (List.nodup_cons.mp listed.labels).1 (List.mem_map.mpr ⟨_, member, rfl⟩)

theorem Listed.leave (listed : Listed ((label, h) :: held) born j) : Listed held born (j.assign label none) where
  labels := (List.nodup_cons.mp listed.labels).2
  shown := by
    intro other k member
    obtain ⟨n, step, found, handle, noted⟩ := listed.shown other k (List.mem_cons_of_mem _ member)
    exact ⟨n, step, Journal.assign_none.mpr ⟨listed.ne_of_mem member, found⟩, handle, noted⟩
  known := by
    intro other n direct found
    obtain ⟨different, found⟩ := Journal.assign_none.mp found
    rcases List.mem_cons.mp (listed.known other n direct found) with same | member
    · exact absurd same different
    · exact member
  apart := by
    intro first second n a b left right
    exact listed.apart first second n a b (Journal.assign_none.mp left).2 (Journal.assign_none.mp right).2
  fresh := listed.fresh

/-- What is done to one step does not matter to the others. -/
theorem Listed.note (listed : Listed ((label, h) :: held) born j) {k : Held σ}
    (found : j.steps label = some (n, k.direct)) (handle : k.handle = .step step)
    (noted : Noted step n (deed :: j.deeds) born) (alone : ∀ m, m ≠ n → ¬deed.Concerns m)
    (silent : starts (deed :: j.deeds) = starts j.deeds) : Listed ((label, k) :: held) born (j.note deed) where
  labels := listed.labels
  shown := by
    intro other k' member
    rcases List.mem_cons.mp member with same | member
    · obtain ⟨rfl, rfl⟩ := Prod.mk.inj same
      exact ⟨n, step, found, handle, noted⟩
    · obtain ⟨m, step, foundOther, handle, noted⟩ := listed.shown other k' (List.mem_cons_of_mem _ member)
      have different : m ≠ n := by
        rintro rfl
        exact listed.ne_of_mem member (listed.apart other label m _ _ foundOther found)
      exact ⟨m, step, foundOther, handle, by simpa using noted.later (alone m different) []⟩
  known := listed.known
  apart := listed.apart
  fresh := by
    intro m bound
    rw [Journal.note_deeds, silent] at bound
    have started := noted.started
    have different : m ≠ n := by omega
    rw [Journal.note_deeds, hasEnded_cons (alone m different), kept_cons (alone m different)]
    exact listed.fresh m bound

/-- What is not done to a step is of no account to the steps that are held. -/
theorem Listed.aside (listed : Listed held born j) (unconcerned : ∀ n, ¬deed.Concerns n) (more : List Origin) :
    Listed held (born ++ more) (j.note deed) where
  labels := listed.labels
  shown := by
    intro label h member
    obtain ⟨n, step, found, handle, noted⟩ := listed.shown label h member
    exact ⟨n, step, found, handle, noted.later (unconcerned n) more⟩
  known := listed.known
  apart := listed.apart
  fresh := by
    intro n bound
    rw [Journal.note_deeds, hasEnded_cons (unconcerned n), kept_cons (unconcerned n)]
    exact listed.fresh n (Nat.le_trans (starts_cons deed j.deeds) bound)

theorem Listed.put (listed : Listed held born j) (missing : j.steps label = none)
    (unheld : ∀ other direct, j.steps other ≠ some (n, direct)) (handle : h.handle = .step step)
    (noted : Noted step n j.deeds born) :
    Listed ((label, h) :: held) born (j.assign label (some (n, h.direct))) where
  labels := by
    refine List.nodup_cons.mpr ⟨?_, listed.labels⟩
    intro member
    obtain ⟨⟨other, k⟩, inside, same⟩ := List.mem_map.mp member
    obtain rfl : other = label := same
    obtain ⟨m, step, found, _⟩ := listed.shown other k inside
    rw [missing] at found
    contradiction
  shown := by
    intro other k member
    rcases List.mem_cons.mp member with same | member
    · obtain ⟨rfl, rfl⟩ := Prod.mk.inj same
      exact ⟨n, step, Journal.assign_self, handle, noted⟩
    · obtain ⟨m, step, found, handle, noted⟩ := listed.shown other k member
      have different : other ≠ label := by
        rintro rfl
        rw [missing] at found
        contradiction
      exact ⟨m, step, (Journal.assign_other different).trans found, handle, noted⟩
  known := by
    intro other m direct found
    by_cases same : other = label
    · exact List.mem_cons.mpr (.inl same)
    · rw [Journal.assign_other same] at found
      exact List.mem_cons_of_mem _ (listed.known other m direct found)
  apart := by
    intro first second m a b left right
    by_cases one : first = label
    · by_cases two : second = label
      · rw [one, two]
      · rw [one, Journal.assign_self] at left
        rw [Journal.assign_other two] at right
        obtain ⟨rfl, _⟩ := Prod.mk.inj (Option.some.inj left)
        exact absurd right (unheld second b)
    · rw [Journal.assign_other one] at left
      by_cases two : second = label
      · rw [two, Journal.assign_self] at right
        obtain ⟨rfl, _⟩ := Prod.mk.inj (Option.some.inj right)
        exact absurd left (unheld first a)
      · rw [Journal.assign_other two] at right
        exact listed.apart first second m a b left right
  fresh := listed.fresh

theorem Committed.add (committed : Committed initial events born deeds) (first : hasEnded n deeds = false)
    {e : Event} (added : (e.id, e.tags) = entry initial (n, deeds))
    (origin : born[n]? = some (e.id, e.parentId, e.name)) :
    Committed initial (events ++ [e]) born (.finish n true :: deeds) where
  entries := by
    rw [commits_finish_first first, List.map_append, List.map_append, committed.entries, List.map_singleton,
      List.map_singleton, added]
  origins := by
    rw [commits_finish_first first, List.map_append, List.map_append, committed.origins, List.map_singleton,
      List.map_singleton, origin]

/-- Only the commits matter. -/
theorem Committed.same (committed : Committed initial events born deeds)
    (silent : commits (deed :: deeds) = commits deeds) : Committed initial events born (deed :: deeds) where
  entries := by rw [silent, committed.entries]
  origins := by rw [silent, committed.origins]

theorem Committed.begun (committed : Committed initial events born deeds)
    (bound : ∀ commit ∈ commits deeds, commit.1 < born.length) (origin : Origin) :
    Committed initial events (born ++ [origin]) deeds where
  entries := committed.entries
  origins := by
    rw [committed.origins]
    apply List.map_congr_left
    intro commit member
    rw [List.getElem?_append_left (bound commit member)]

theorem Told.arrange (told : Told sink initial on s j) (same : s.held.Perm held) :
    Told sink initial on { s with held } j where
  flight := told.flight
  state := told.state
  counted := told.counted
  listed := told.listed.arrange same

theorem Told.leave (told : Told sink initial on (s.put label h) j) :
    Told sink initial on s (j.assign label none) where
  flight := told.flight
  state := told.state
  counted := told.counted
  listed := told.listed.leave

/-- What is known of the step that is held first. -/
theorem Told.first (told : Told sink initial on (s.put label h) j) (found : j.steps label = some (n, direct)) :
    direct = h.direct ∧ ∃ step, h.handle = .step step ∧ Noted step n j.deeds (origins s.history) := by
  obtain ⟨m, step, shown, handle, noted⟩ := told.listed.shown label h List.mem_cons_self
  obtain ⟨rfl, same⟩ := Prod.mk.inj (Option.some.inj (shown.symm.trans found))
  exact ⟨same.symm, step, handle, noted⟩

theorem callEnd_eq (recording : s.startup = .recording f) (handle : h.handle = .step step) :
    s.callEnd h = (⟨.step (f.finish step s.state).1, h.direct⟩,
      { s with
        startup := .recording (f.finish step s.state).2.2
        state := (f.finish step s.state).2.1
        history := .ended step.id :: s.history }) := by
  obtain ⟨startup, held, state, history⟩ := s
  obtain ⟨_, direct⟩ := h
  obtain rfl : startup = .recording f := recording
  obtain rfl := handle
  rfl

theorem callEnd_of_ended (recording : s.startup = .recording f) (handle : h.handle = .step step)
    (ended : step.ended = true) : s.callEnd h = (h, { s with history := .ended step.id :: s.history }) := by
  rw [callEnd_eq recording handle, Flight.finish_of_ended ended, ← recording, ← handle]

/-- Ending a step again is of no account. -/
theorem Told.again (told : Told sink initial on (s.put label h) j) (found : j.steps label = some (n, direct))
    (ended : hasEnded n j.deeds = true) : Told sink initial on ((s.callEnd h).2.put label (s.callEnd h).1) j := by
  obtain ⟨rfl, step, handle, noted⟩ := told.first found
  obtain ⟨f, events, recording, rest⟩ := told.flight
  have same : s.callEnd h = (h, { s with history := .ended step.id :: s.history }) :=
    callEnd_of_ended recording handle (noted.ended.trans ended)
  rw [same]
  exact ⟨⟨f, events, recording, rest⟩, told.state, told.counted, told.listed⟩

theorem Noted.finish (noted : Noted step n deeds born) (f : Flight) (state : σ) (on : Bool) :
    Noted (f.finish step state).1 n (.finish n on :: deeds) born where
  started := noted.started
  id := by rw [Flight.finish_id, noted.id]
  origin := by rw [Flight.finish_id, Flight.finish_parentId, Flight.finish_name, noted.origin]
  ended := by simp [hasEnded]
  tags := by simp

/-- What the end of a step does to the recorder and to the state. -/
theorem Committed.finish (keeping : Sink.Keeping sink) (committed : Committed initial events born deeds)
    (keeps : f.Keeps sink on events) (noted : Noted step n deeds born) :
    (f.finish step (stateAfter initial deeds)).2.1 = stateAfter initial (.finish n on :: deeds) ∧
      ∃ later, (f.finish step (stateAfter initial deeds)).2.2.Keeps sink on later ∧
        Committed initial later born (.finish n on :: deeds) := by
  cases ended : hasEnded n deeds with
  | true =>
    rw [Flight.finish_of_ended (noted.ended.trans ended)]
    exact ⟨by simp [stateAfter, ended], events, keeps, committed.same (commits_finish_again ended)⟩
  | false =>
    have running := noted.ended.trans ended
    cases on with
    | false =>
      obtain ⟨state, keeps⟩ := Flight.finish_passes keeps running (stateAfter initial deeds)
      exact ⟨by simp [stateAfter, state], events, keeps, committed.same commits_finish_off⟩
    | true =>
      obtain ⟨state, e, keeps, id, parentId, name, tags⟩ :=
        Flight.finish_keeps keeping keeps running (stateAfter initial deeds)
      rw [noted.tags running] at state tags
      refine ⟨by simp [stateAfter, ended, state], _, keeps, committed.add ended ?_ ?_⟩
      · rw [id, noted.id, tags]
        rfl
      · rw [id, parentId, name, noted.origin]

theorem Told.callEnd (keeping : Sink.Keeping sink) (told : Told sink initial on (s.put label h) j)
    (found : j.steps label = some (n, direct)) :
    Told sink initial on ((s.callEnd h).2.put label (s.callEnd h).1) (j.note (.finish n on)) := by
  obtain ⟨rfl, step, handle, noted⟩ := told.first found
  obtain ⟨f, events, recorded, current, keeps, committed⟩ := told.flight
  have recording : s.startup = .recording f := recorded
  have before : s.state = stateAfter initial j.deeds := told.state
  obtain ⟨after, later, keepsLater, committedLater⟩ := committed.finish keeping keeps noted
  have same := callEnd_eq recording handle
  rw [before] at same
  rw [same]
  refine ⟨⟨_, later, rfl, ?_, keepsLater, committedLater⟩, after, told.counted, ?_⟩
  · rw [Flight.finish_current, current]
    rfl
  · exact told.listed.note (k := ⟨.step _, h.direct⟩) found rfl (noted.finish f _ on)
      (fun m different => different.symm) rfl

theorem Told.letGo (keeping : Sink.Keeping sink) (told : Told sink initial on (s.put label h) j)
    (found : j.steps label = some (n, direct)) :
    Told sink initial on (s.letGo h) ((j.note (.finish n on)).assign label none) := by
  have once := told.callEnd keeping found
  -- A wrapper has ended its step when the step itself goes.
  have twice := once.again found (by simp [hasEnded])
  unfold Session.letGo
  split
  · exact once.leave
  · exact twice.leave

theorem Told.letGo_again (told : Told sink initial on (s.put label h) j) (found : j.steps label = some (n, direct))
    (ended : hasEnded n j.deeds = true) : Told sink initial on (s.letGo h) (j.assign label none) := by
  have once := told.again found ended
  have twice := once.again found ended
  unfold Session.letGo
  split
  · exact once.leave
  · exact twice.leave

/-- The step under a label can be taken up first. -/
theorem Told.withHeld (told : Told sink initial on s j) (label : String)
    (action : Held σ → Session σ → Session σ) :
    j.steps label = none ∧ (s.withHeld label action).2 = s ∨
      ∃ h n t, j.steps label = some (n, h.direct) ∧ Told sink initial on (t.put label h) j ∧
        (s.withHeld label action).2 = action h t := by
  unfold Session.withHeld
  cases taken : Held.take? label s.held with
  | none =>
    refine .inl ⟨?_, rfl⟩
    cases found : j.steps label with
    | none => rfl
    | some held => exact absurd (told.listed.known label held.1 held.2 found) (take?_eq_none.mp taken)
  | some pair =>
    have first := told.arrange (take?_perm taken)
    obtain ⟨n, step, found, _⟩ := first.listed.shown label pair.1 List.mem_cons_self
    exact .inr ⟨pair.1, n, { s with held := pair.2 }, found, first, rfl⟩

theorem Told.release (keeping : Sink.Keeping sink) (told : Told sink initial on s j) (label : String) :
    Told sink initial on (s.release label).2 (j.release on label) := by
  unfold Session.release Journal.release
  rcases told.withHeld label _ with ⟨missing, same⟩ | ⟨h, n, t, found, first, same⟩
  · rw [same, missing]
    exact told
  · rw [same, found]
    exact first.letGo keeping found

end Session
end LaunchTrace
