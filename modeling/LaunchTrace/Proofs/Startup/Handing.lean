import LaunchTrace.Proofs.Startup.Within

/-! What work hands to the recorder of the flight that it reports to. Whatever the recorder is, nothing happens to it
and to its host but that events are committed, one after the other. -/
namespace LaunchTrace

variable {σ α β : Type}

/-- A recorder and its host once an event has been committed. -/
def Recorder.after (kept : Recorder × Host) (e : Event) : Recorder × Host :=
  ((kept.1.commit e kept.2).1, (kept.1.commit e kept.2).2.1)

namespace Flight

/-- Between the flights the events were committed, each with a reading of the clock as its start. -/
structure Handed (f g : Flight) (events : List Event) : Prop where
  kept : (g.recorder, g.host) = events.foldl Recorder.after (f.recorder, f.host)
  clock : g.clock.reading = f.clock.reading
  started : ∀ e ∈ events, ∃ n, e.startTime = (f.clock.reading n).wall

/-- The recorder wants every event, whatever it has been given. -/
def Eager (f : Flight) : Prop :=
  ∀ g events, f.Handed g events → g.isRecording = true

variable {f g h : Flight} {events later : List Event} {step : Step σ} {state : σ}

theorem Handed.refl (f : Flight) : f.Handed f [] :=
  ⟨rfl, rfl, fun _ member => absurd member List.not_mem_nil⟩

theorem Handed.trans (first : f.Handed g events) (second : g.Handed h later) : f.Handed h (events ++ later) where
  kept := by rw [second.kept, first.kept, List.foldl_append]
  clock := second.clock.trans first.clock
  started := by
    intro e member
    rcases List.mem_append.mp member with early | late
    · exact first.started e early
    · rw [← first.clock]
      exact second.started e late

theorem Eager.handed (eager : f.Eager) (handed : f.Handed g events) : g.Eager :=
  fun _ _ later => eager _ _ (handed.trans later)

theorem start_handed (f : Flight) (name : StepName) : f.Handed (f.start (σ := σ) name).2 [] :=
  ⟨rfl, rfl, fun _ member => absurd member List.not_mem_nil⟩

/-- The end of a step hands over one event at most. -/
theorem finish_handed {n : Nat} (started : step.started = f.clock.reading n) (state : σ) :
    ∃ events, f.Handed (f.finish step state).2.2 events ∧
      (f.isRecording = true → step.ended = false → events ≠ []) := by
  cases ended : step.ended with
  | true =>
    rw [finish_of_ended ended]
    exact ⟨[], .refl f, fun _ running => Bool.noConfusion running⟩
  | false =>
    cases asked : f.isRecording with
    | true =>
      rw [finish_of_recording ended asked]
      refine ⟨[_], ⟨rfl, rfl, fun e member => ⟨n, ?_⟩⟩, fun _ _ => List.cons_ne_nil _ _⟩
      rw [List.mem_singleton.mp member, ← started]
      rfl
    | false =>
      rw [finish_of_idle ended asked]
      exact ⟨[], ⟨rfl, rfl, fun _ member => absurd member List.not_mem_nil⟩, nofun⟩

end Flight

namespace Startup

variable {f g : Flight} {events : List Event} {step : Step σ}

/-- Nothing but the tags of a step changes when it is tagged. -/
theorem tagAll_step (s : Startup) (step : Step σ) (tags : List (String × String)) :
    ∃ entries, s.tagAll (.step step) tags = .step { step with tags := entries } := by
  induction tags generalizing step with
  | nil => exact ⟨step.tags, rfl⟩
  | cons t rest ih =>
    have first : s.tagAll (.step step) (t :: rest) = s.tagAll (s.tag (.step step) ⟨t.1, .ready t.2⟩) rest := rfl
    rw [first, tag]
    split
    · rw [Step.attach]
      split
      · exact ih step
      · obtain ⟨entries, same⟩ := ih { step with tags := step.tags.push ⟨t.1, .ready t.2⟩ }
        exact ⟨entries, same⟩
    · exact ih step

/-- The work leaves a flight behind in which events have been handed to the recorder. -/
def Hands (work : Startup → α × Startup) : Prop :=
  ∀ f, ∃ g events, (work (.recording f)).2 = .recording g ∧ f.Handed g events

theorem Hands.pure (a : α) : Hands fun s => (a, s) :=
  fun f => ⟨f, [], rfl, .refl f⟩

theorem Hands.bind {work : Startup → α × Startup} {next : α → Startup → β × Startup} (first : Hands work)
    (others : ∀ a, Hands (next a)) : Hands fun s => next (work s).1 (work s).2 := by
  intro f
  obtain ⟨g, events, ran, handed⟩ := first f
  obtain ⟨h, later, last, behind⟩ := others (work (.recording f)).1 g
  refine ⟨h, events ++ later, ?_, handed.trans behind⟩
  dsimp only
  rw [ran, last]

/-- A step around work hands over the events of the work, and behind them its own if the recorder wants it. -/
theorem Hands.within_some {body : Startup → α × Startup} (hands : Hands body) (name : StepName)
    (before : List (String × String)) (after : α → List (String × String)) (f : Flight) :
    ∃ g events, ((Startup.recording f).within name before body after).2 = .recording g ∧ f.Handed g events ∧
      (f.Eager → events ≠ []) := by
  obtain ⟨g, events, ran, handed⟩ := hands (f.start (σ := Unit) name).2
  have begun := (f.start_handed (σ := Unit) name).trans handed
  obtain ⟨entries, tagged⟩ := (Startup.recording (f.start (σ := Unit) name).2).tagAll_step
    (f.start (σ := Unit) name).1 before
  obtain ⟨last, retagged⟩ := (Startup.recording g).tagAll_step
    { (f.start (σ := Unit) name).1 with tags := entries } (after (body (.recording (f.start (σ := Unit) name).2)).1)
  let step : Step Unit := { (f.start (σ := Unit) name).1 with tags := last }
  have result : ((Startup.recording f).within name before body after).2 = .recording (g.finish step ()).2.2 := by
    simp only [within, begin, tagged, ran, retagged]
    rfl
  have reading : step.started = g.clock.reading f.clock.taken := by
    rw [begun.clock]
    rfl
  obtain ⟨own, ended, some⟩ := Flight.finish_handed reading ()
  refine ⟨_, _, result, begun.trans ended, fun eager => ?_⟩
  exact List.append_ne_nil_of_right_ne_nil _ (some (eager _ _ begun) rfl)

theorem Hands.within {body : Startup → α × Startup} (hands : Hands body) (name : StepName)
    (before : List (String × String)) (after : α → List (String × String)) :
    Hands fun s => s.within name before body after := by
  intro f
  obtain ⟨g, events, ran, handed, _⟩ := hands.within_some name before after f
  exact ⟨g, events, ran, handed⟩

/-- A step around work that leaves the startup alone hands over its own event, if the flight is recording, and nothing
else. -/
theorem within_alone (asked : f.isRecording = true) (fresh : f.current + 1 ≠ rootId) (name : StepName)
    (before : List (String × String)) (result : α) (after : α → List (String × String)) :
    ∃ g e, (Startup.recording f).within name before (fun s => (result, s)) after = (result, .recording g) ∧
      g.openSteps = f.openSteps ∧ f.Handed g [e] ∧
      e.outline = ⟨f.current + 1, f.openSteps.head, name.text, Tag.listing (before ++ after result)⟩ := by
  let step : Step Unit := { (f.start (σ := Unit) name).1 with tags := ⟨Tag.ready (before ++ after result)⟩ }
  have running : step.ended = false := rfl
  have ran : (Startup.recording f).within name before (fun s => (result, s)) after =
      (result, .recording ((f.start (σ := Unit) name).2.finish step ()).2.2) :=
    within_recording name asked rfl asked before after
  have recording : (f.start (σ := Unit) name).2.isRecording = true := asked
  let e : Event := { step with tags := (step.tags.resolve ()).1, ended := true }.event f.clock.advance.now
  have finished : ((f.start (σ := Unit) name).2.finish step ()).2.2 =
      { (f.start (σ := Unit) name).2.close step.id with clock := f.clock.advance.advance }.commit e := by
    rw [Flight.finish_of_recording running recording]
    rfl
  rw [finished] at ran
  refine ⟨_, e, ran, Flight.close_started (σ := Unit) fresh, ⟨rfl, rfl, fun other member => ?_⟩, ?_⟩
  · rw [List.mem_singleton.mp member]
    exact ⟨f.clock.taken, rfl⟩
  · have texts := step.tags.resolve_display ()
    rw [Tag.texts_ready] at texts
    exact congrArg (Event.Outline.mk _ _ _) texts

end Startup
end LaunchTrace
