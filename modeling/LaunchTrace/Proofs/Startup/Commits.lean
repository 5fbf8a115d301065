import LaunchTrace.Proofs.Startup.Account
import LaunchTrace.Proofs.Startup.Memory

/-! Operations keep a session and its journal in agreement. A memory gets the events of all steps then, each at the
first end of its step. -/
namespace LaunchTrace.Session
open Deed

variable {σ : Type} {sink : List Event → Sink} {on : Bool} {initial : σ} {s : Session σ} {j : Journal σ} {h : Held σ}
  {label : String} {n : Nat} {direct : Bool} {step : Step σ} {deeds : List (Deed σ)} {born : List Origin}
  {events : List Event} {f : Flight} {op : Operation σ} {name : StepName} {held : List (String × Held σ)}

theorem Told.finish (keeping : Sink.Keeping sink) (told : Told sink initial on s j) (label : String) :
    Told sink initial on (s.finish label).2 (j.finish on label) := by
  unfold Session.finish Journal.finish Journal.release
  rcases told.withHeld label _ with ⟨missing, same⟩ | ⟨h, n, t, found, first, same⟩
  · rw [same, missing]
    exact told
  · rw [same, found]
    obtain ⟨handle, direct⟩ := h
    have once := first.callEnd keeping found
    cases direct with
    | true => exact once
    | false => exact once.letGo_again found (by simp [hasEnded])

theorem tag_eq (recording : s.startup = .recording f) (keeps : f.Keeps sink on events)
    (handle : h.handle = .step step) (t : Tag σ) :
    h.tag s.startup t = ⟨.step { step with
      tags := if (h.direct || on) ∧ step.ended = false then step.tags.push t else step.tags }, h.direct⟩ := by
  have attached : step.attach t =
      { step with tags := if step.ended = false then step.tags.push t else step.tags } := by
    obtain ⟨_, _, _, _, _, ended⟩ := step
    cases ended <;> rfl
  obtain ⟨_, direct⟩ := h
  obtain rfl := handle
  cases direct with
  | true => simp [Held.tag, attached]
  | false =>
    rw [recording]
    cases on with
    | true => simp [Held.tag, Startup.tag, Startup.isRecording, keeps.isRecording, attached]
    | false => simp [Held.tag, Startup.tag, Startup.isRecording, keeps.isRecording]

theorem Noted.tag (noted : Noted step n deeds born) (direct on : Bool) (t : Tag σ) :
    Noted { step with tags := if (direct || on) ∧ step.ended = false then step.tags.push t else step.tags } n
      (.tag n direct on t :: deeds) born where
  started := noted.started
  id := noted.id
  origin := noted.origin
  ended := noted.ended
  tags := by
    intro running
    have running : step.ended = false := running
    have first : hasEnded n deeds = false := noted.ended ▸ running
    cases wanted : direct || on with
    | true => simp [kept, wanted, first, running, Tags.push, noted.tags running]
    | false => simp [kept, wanted, noted.tags running]

theorem Told.tag (told : Told sink initial on s j) (label : String) (t : Tag σ) :
    Told sink initial on (s.apply (.tag label t)).2 (j.tag on label t) := by
  simp only [Session.apply]
  unfold Journal.tag
  rcases told.withHeld label _ with ⟨missing, same⟩ | ⟨h, n, r, found, first, same⟩
  · rw [same, missing]
    exact told
  · obtain ⟨_, step, handle, noted⟩ := first.first found
    obtain ⟨f, events, recorded, current, keeps, committed⟩ := first.flight
    have recording : r.startup = .recording f := recorded
    rw [same, found, tag_eq recording keeps handle t]
    exact ⟨⟨f, events, recording, current, keeps, committed.same rfl⟩, first.state, first.counted,
      first.listed.note (k := ⟨.step _, h.direct⟩) found rfl (noted.tag h.direct on t)
        (fun m different => different.symm) rfl⟩

theorem Told.change (told : Told sink initial on s j) (change : σ → σ) :
    Told sink initial on { s with state := change s.state } (j.note (.change change)) where
  flight := by
    obtain ⟨f, events, recording, current, keeps, committed⟩ := told.flight
    exact ⟨f, events, recording, current, keeps, committed.same rfl⟩
  state := congrArg change told.state
  counted := told.counted
  listed := by
    have unconcerned : ∀ n, ¬(Deed.change change).Concerns n := fun _ => not_false
    simpa using told.listed.aside unconcerned []

theorem Told.ended_lt (told : Told sink initial on s j) (ended : n ∈ ended j.deeds) : n < starts j.deeds := by
  by_contra above
  have running := (told.listed.fresh n (Nat.le_of_not_lt above)).1
  rw [mem_ended.mp ended] at running
  contradiction

/-- A step starts that is not held yet. -/
theorem Told.begin {state : σ} {history : List Mark}
    (told : Told sink initial on ⟨.recording f, held, state, history⟩ j) (name : StepName) :
    let after := Mark.started (f.current + 1) f.openSteps.head name :: history
    Told sink initial on ⟨.recording (f.start (σ := σ) name).2, held, state, after⟩ (j.note .start) ∧
      Noted (f.start (σ := σ) name).1 (starts j.deeds) (.start :: j.deeds) (origins after) := by
  intro after
  obtain ⟨g, events, recording, current, keeps, committed⟩ := told.flight
  obtain rfl := Startup.recording.inj recording
  have counted : (origins history).length = starts j.deeds := told.counted
  obtain ⟨running, untagged⟩ := told.listed.fresh (starts j.deeds) (Nat.le_refl _)
  have next : f.current + 1 = UInt64.ofNat (starts j.deeds + 1) := by
    rw [UInt64.ofNat_add, current]
    rfl
  have bound : ∀ commit ∈ commits j.deeds, commit.1 < (origins history).length := by
    intro commit member
    rw [counted]
    exact told.ended_lt ((commits_sublist _).subset (List.mem_map_of_mem member))
  have unconcerned : ∀ n, ¬(Deed.start : Deed σ).Concerns n := fun _ => not_false
  constructor
  · refine ⟨⟨_, events, rfl, next, ⟨keeps.recorder, keeps.asked⟩, ?_⟩, told.state, ?_, ?_⟩
    · exact (committed.begun bound _).same rfl
    · simp only [after, origins, List.length_append, counted]
      rfl
    · exact told.listed.aside unconcerned _
  · exact {
      started := Nat.lt_succ_self _
      id := next
      origin := by
        rw [← counted]
        exact List.getElem?_concat_length
      ended := running.symm
      tags := fun _ => untagged.symm }

theorem callEnd_origins (s : Session σ) (h : Held σ) : origins (s.callEnd h).2.history = origins s.history := by
  obtain ⟨handle, direct⟩ := h
  cases handle <;> rfl

theorem letGo_origins (s : Session σ) (h : Held σ) : origins (s.letGo h).history = origins s.history := by
  unfold letGo
  split
  · exact callEnd_origins s h
  · exact (callEnd_origins _ _).trans (callEnd_origins s h)

theorem release_origins (s : Session σ) (label : String) :
    origins (s.release label).2.history = origins s.history := by
  unfold release
  rcases withHeld_cases s label _ with same | ⟨h, rest, _, same⟩
  · rw [same]
  · rw [same, letGo_origins]

/-- No step that is held has the number of the next one. -/
theorem Told.next_unheld (told : Told sink initial on s j) (other : String) (direct : Bool) :
    j.steps other ≠ some (starts j.deeds, direct) := by
  intro found
  obtain ⟨⟨label, h⟩, member, same⟩ := List.mem_map.mp (told.listed.known other _ direct found)
  obtain rfl : label = other := same
  obtain ⟨n, step, shown, _, noted⟩ := told.listed.shown label h member
  obtain ⟨rfl, _⟩ := Prod.mk.inj (Option.some.inj (shown.symm.trans found))
  exact Nat.lt_irrefl _ noted.started

theorem Told.put (told : Told sink initial on s j) (missing : j.steps label = none)
    (unheld : ∀ other direct, j.steps other ≠ some (n, direct)) (handle : h.handle = .step step)
    (noted : Noted step n j.deeds (origins s.history)) :
    Told sink initial on (s.put label h) (j.assign label (some (n, h.direct))) where
  flight := told.flight
  state := told.state
  counted := told.counted
  listed := told.listed.put missing unheld handle noted

theorem Told.start (keeping : Sink.Keeping sink) (told : Told sink initial on s j) (label : String) (route : Route)
    (text : String) : Told sink initial on (s.start label route text).2 (j.start on label route text) := by
  obtain ⟨f, _, recording, _⟩ := told.flight
  obtain ⟨startup, held, state, history⟩ := s
  obtain rfl : startup = .recording f := recording
  unfold Journal.start
  cases checked : StepName.validate text with
  | error error =>
    rw [start_of_invalid checked ⟨f, rfl⟩]
    exact told
  | ok name =>
    rw [start_of_valid checked]
    obtain ⟨begun, noted⟩ := told.begin name
    -- The label is free again before the new step gets it.
    refine (begun.release keeping label).put (h := ⟨.step _, route.isDirect⟩) (Journal.release_self on) ?_ rfl ?_
    · intro other direct found
      have before : (j.note .start).steps other = some (starts j.deeds, direct) := Journal.steps_of_release found
      exact told.next_unheld other direct before
    · rw [release_origins]
      rcases (j.note .start).release_cases on label with ⟨_, same⟩ | ⟨m, direct, found, same⟩
      · rw [same]
        exact noted
      · rw [same]
        have unconcerned : ¬(Deed.finish m on : Deed σ).Concerns (starts j.deeds) := by
          rintro rfl
          exact told.next_unheld label direct found
        simpa using noted.later unconcerned []

theorem Told.unwind (keeping : Sink.Keeping sink) (told : Told sink initial on s j) (labels : List String) :
    Told sink initial on (labels.foldl (fun s label => (s.release label).2) s)
      (labels.foldl (Journal.release · on) j) := by
  induction labels generalizing s j with
  | nil => exact told
  | cons label labels ih => exact ih (told.release keeping label)

theorem Told.apply (keeping : Sink.Keeping sink) (told : Told sink initial on s j) (internal : op.Internal) :
    Told sink initial on (s.apply op).2 (j.apply on op) := by
  cases op with
  | start label route text => exact told.start keeping label route text
  | tag label t => exact told.tag label t
  | finish label => exact told.finish keeping label
  | release label => exact told.release keeping label
  | unwind labels => exact told.unwind keeping labels
  | change change => exact told.change change
  | surround change => exact internal.elim

theorem told_launch (recorder : Recorder) (host : Host) (clock : Clock) (initial : σ)
    (sunk : recorder = .sink (sink [])) (asked : (sink []).isRecording host = .ok on) :
    Told sink initial on (ofRecorder recorder host clock initial) .blank where
  flight := ⟨_, [], rfl, rfl, ⟨sunk, asked⟩, rfl, rfl⟩
  state := rfl
  counted := rfl
  listed := {
    labels := List.nodup_nil
    shown := by simp [ofRecorder, launch]
    known := by simp [Journal.blank]
    apart := by simp [Journal.blank]
    fresh := fun _ _ => ⟨rfl, rfl⟩ }

theorem Told.run (keeping : Sink.Keeping sink) (told : Told sink initial on s j) {ops : List (Operation σ)}
    (internal : ∀ op ∈ ops, op.Internal) :
    Told sink initial on (s.run ops) (ops.foldl (Journal.apply · on) j) := by
  induction ops generalizing s j with
  | nil => exact told
  | cons op ops ih =>
    have first := told.apply keeping (internal op List.mem_cons_self)
    exact ih first fun op member => internal op (List.mem_cons_of_mem _ member)

/-- The recorder has the events that the journal says. -/
theorem Told.recorded (keeping : Sink.Keeping sink) (told : Told sink initial on s j) :
    Committed initial s.recorded (origins s.history) j.deeds := by
  obtain ⟨f, events, recording, _, keeps, committed⟩ := told.flight
  have same : s.recorded = events := by
    simp only [Session.recorded, recording, keeps.recorder, Recorder.memories, Recorder.sinks, List.filterMap_cons,
      keeping.remembered, List.filterMap_nil, List.flatten_cons, List.flatten_nil, List.append_nil]
  rwa [same]

/-- The steps that are held, by their numbers. -/
def numbers (s : Session σ) (j : Journal σ) : List Nat :=
  s.held.filterMap fun entry => (j.steps entry.1).map Prod.fst

theorem Told.started (told : Told sink initial on s j) (covers : j.Covers (starts j.deeds))
    (below : n < starts j.deeds) : n ∈ ended j.deeds ++ s.numbers j := by
  rcases covers n below with ended | ⟨label, direct, found⟩
  · exact List.mem_append_left _ (mem_ended.mpr ended)
  · obtain ⟨⟨other, h⟩, member, same⟩ := List.mem_map.mp (told.listed.known label n direct found)
    obtain rfl : other = label := same
    refine List.mem_append_right _ (List.mem_filterMap.mpr ⟨_, member, ?_⟩)
    rw [found]
    rfl

/-- No step has gone without its end. -/
theorem Told.ended_perm (told : Told sink initial on s j) (covers : j.Covers (starts j.deeds)) (gone : s.held = []) :
    (ended j.deeds).Perm (List.range (starts j.deeds)) := by
  refine (List.perm_ext_iff_of_nodup (ended_nodup _) List.nodup_range).mpr fun n => ?_
  rw [List.mem_range]
  constructor
  · exact told.ended_lt
  · intro below
    simpa [numbers, gone] using told.started covers below

theorem Told.starts_le (told : Told sink initial on s j) (covers : j.Covers (starts j.deeds)) :
    starts j.deeds ≤ (ended j.deeds).length + s.held.length := by
  have subset : List.range (starts j.deeds) ⊆ ended j.deeds ++ s.numbers j :=
    fun n member => told.started covers (List.mem_range.mp member)
  have few : (s.numbers j).length ≤ s.held.length := List.length_filterMap_le _ _
  have bound := List.nodup_range.length_le_of_subset subset
  rw [List.length_range, List.length_append] at bound
  omega

/-- Ids that have not been used up tell steps apart. -/
theorem ids_nodup {steps : List Nat} (distinct : steps.Nodup) (few : ∀ n ∈ steps, n + 1 < UInt64.size) :
    (steps.map fun n => UInt64.ofNat (n + 1)).Nodup := by
  refine distinct.map_on fun n first m second same => ?_
  have numbers := congrArg UInt64.toNat same
  rw [UInt64.toNat_ofNat_of_lt' (few n first), UInt64.toNat_ofNat_of_lt' (few m second)] at numbers
  omega

theorem ofProgram_always (ops : List (Operation σ)) :
    ops.foldl (Journal.apply · true) .blank = Journal.ofProgram (ops.map fun op => (true, op)) := by
  rw [Journal.ofProgram, List.foldl_map]

/-- A memory has one event for each step that has ended, in the order of the first ends, with the id, the parent and
the name of its start. Once nothing is held, these are all steps. No machine holds 2^64 events and steps. -/
theorem run_commits (host : Host) (clock : Clock) (initial : σ) (ops : List (Operation σ)) {s : Session σ}
    (ran : (ofRecorder (.sink (.memory [])) host clock initial).run ops = s) (internal : ∀ op ∈ ops, op.Internal) :
    let deeds := (Journal.ofProgram (ops.map fun op => (true, op))).deeds
    s.recorded.map (fun e => some (e.id, e.parentId, e.name)) =
        (ended deeds).map (fun n => (origins s.history)[n]?) ∧
      (ended deeds).Nodup ∧
      (∀ n, n ∈ ended deeds ↔ ∃ on, .finish n on ∈ deeds) ∧
      (origins s.history).length = starts deeds ∧
      (s.held = [] → (ended deeds).Perm (List.range (starts deeds))) ∧
      (s.recorded.length + s.held.length < UInt64.size → (s.recorded.map Event.id).Nodup) := by
  intro deeds
  have launched := told_launch (.sink (.memory [])) host clock initial rfl rfl
  have told := ofProgram_always ops ▸ ran ▸ launched.run memory_keeping internal
  have covers := Journal.ofProgram_covers (ops.map fun op => (true, op))
  -- A memory always records, so no end is passed over.
  have always : ∀ n on, .finish n on ∈ deeds → on = true := by
    intro n on member
    obtain ⟨now, op, inside, rfl⟩ := Journal.of_program member
    obtain ⟨_, _, same⟩ := List.mem_map.mp inside
    exact (Prod.mk.inj same).1.symm
  have committed := told.recorded memory_keeping
  have ids : s.recorded.map Event.id = (ended deeds).map fun n => UInt64.ofNat (n + 1) := by
    have entries := congrArg (List.map Prod.fst) committed.entries
    rw [List.map_map, List.map_map] at entries
    rw [← commits_always always, List.map_map]
    exact entries
  refine ⟨?_, ended_nodup _, ?_, told.counted, told.ended_perm covers, ?_⟩
  · rw [committed.origins, ← commits_always always, List.map_map]
    rfl
  · intro n
    rw [mem_ended, hasEnded_iff]
  · intro fits
    rw [ids]
    refine ids_nodup (ended_nodup _) fun n member => ?_
    have length := congrArg List.length ids
    rw [List.length_map, List.length_map] at length
    have below : n < starts deeds := told.ended_lt member
    have few : starts deeds ≤ (ended deeds).length + s.held.length := told.starts_le covers
    omega

theorem overlapping_commits :
    let s := (ofRecorder (.sink (.memory [])) bareHost (.still newYear) ()).run overlapping
    s.recorded.map (fun e => some (e.id, e.parentId, e.name)) = [some (1, 0, "app.load"), some (3, 2, "app.bind")] ∧
      (s.recorded.map Event.id).Nodup := by
  have internal : ∀ op ∈ overlapping, op.Internal := by simp [overlapping, Operation.Internal]
  obtain ⟨events, _, _, _, _, distinct⟩ := run_commits bareHost (.still newYear) () overlapping rfl internal
  exact ⟨events.trans (by decide +kernel), distinct (by decide +kernel)⟩

end LaunchTrace.Session
