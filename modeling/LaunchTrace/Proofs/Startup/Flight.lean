import LaunchTrace.Startup.Flight

/-! What starting and ending a step does to the flight and to the step. None of it depends on the recorder, which is
handed the event of an ended step and nothing else: its errors and panics are caught there. -/
namespace LaunchTrace.Flight

variable {σ : Type} {f : Flight} {step : Step σ} {state after : σ} {name : StepName} {tags : Tags σ} {e : Event}
  {recorder : Recorder} {host : Host} {outcome : Commit} {on : Bool} {message : String}

/-! ## What a flight catches -/

/-- A recorder that panics when it is asked is taken for one that is not recording. -/
theorem isRecording_of_panic (asked : f.recorder.isRecording f.host = .error message) : f.isRecording = false := by
  simp only [isRecording, asked]

theorem isRecording_of_answer (asked : f.recorder.isRecording f.host = .ok on) : f.isRecording = on := by
  simp only [isRecording, asked]

/-- Whether an event is taken, ends in an error or makes the recorder panic, the flight goes on with what the recorder
has become. -/
theorem commit_of_outcome (handed : f.recorder.commit e f.host = (recorder, host, outcome)) :
    f.commit e = { f with recorder, host } := by
  simp only [commit, handed]

theorem record_of_outcome (resolved : step.tags.resolve state = (tags, after))
    (handed : f.recorder.commit (Step.event { step with tags } f.clock.now) f.host = (recorder, host, outcome)) :
    f.record step state = ({ step with tags }, after, { f with recorder, host, clock := f.clock.advance }) := by
  have timed : ({ f with clock := f.clock.advance } : Flight).commit (Step.event { step with tags } f.clock.now) =
      { f with recorder, host, clock := f.clock.advance } := commit_of_outcome handed
  simp only [record, resolved, timed]

/-! ## Starting -/

@[simp] theorem start_current : (f.start (σ := σ) name).2.current = f.current + 1 := rfl

@[simp] theorem start_ids : (f.start (σ := σ) name).2.openSteps.ids = (f.current + 1) :: f.openSteps.ids := rfl

@[simp] theorem start_id : (f.start (σ := σ) name).1.id = f.current + 1 := rfl

@[simp] theorem start_parentId : (f.start (σ := σ) name).1.parentId = f.openSteps.head := rfl

@[simp] theorem start_name : (f.start (σ := σ) name).1.name = name := rfl

@[simp] theorem start_ended : (f.start (σ := σ) name).1.ended = false := rfl

/-! ## Ending -/

theorem finish_of_ended (ended : step.ended = true) : f.finish step state = (step, state, f) := by
  simp only [finish, ended, if_true]

theorem finish_of_idle (running : step.ended = false) (idle : f.isRecording = false) :
    f.finish step state = ({ step with ended := true }, state, f.close step.id) := by
  have closed : (f.close step.id).isRecording = false := idle
  simp only [finish, running, closed, Bool.false_eq_true, if_false]

theorem finish_of_recording (running : step.ended = false) (recording : f.isRecording = true) :
    f.finish step state = (f.close step.id).record { step with ended := true } state := by
  have closed : (f.close step.id).isRecording = true := recording
  simp only [finish, running, closed, Bool.false_eq_true, if_false, if_true]

/-- A step that runs ends and is closed, whatever the recorder makes of it. -/
theorem finish_caught (f : Flight) (running : step.ended = false) (state : σ) :
    ∃ tags after recorder host clock, f.finish step state =
      ({ step with tags, ended := true }, after, { f.close step.id with recorder, host, clock }) := by
  cases asked : f.recorder.isRecording f.host with
  | error message =>
    rw [finish_of_idle running (isRecording_of_panic asked)]
    exact ⟨step.tags, state, f.recorder, f.host, f.clock, rfl⟩
  | ok on =>
    cases on with
    | false =>
      rw [finish_of_idle running (isRecording_of_answer asked)]
      exact ⟨step.tags, state, f.recorder, f.host, f.clock, rfl⟩
    | true =>
      rw [finish_of_recording running (isRecording_of_answer asked)]
      rcases resolved : step.tags.resolve state with ⟨tags, after⟩
      -- The outcome of the commit may be an error or a panic.
      rcases handed : f.recorder.commit (Step.event { step with tags, ended := true } f.clock.now) f.host with
        ⟨recorder, host, outcome⟩
      exact ⟨tags, after, recorder, host, f.clock.advance, record_of_outcome resolved handed⟩

theorem finish_step (f : Flight) (step : Step σ) (state : σ) :
    ∃ tags, (f.finish step state).1 = { step with tags, ended := true } := by
  cases ended : step.ended with
  | true =>
    rw [finish_of_ended ended, ← ended]
    exact ⟨step.tags, rfl⟩
  | false =>
    obtain ⟨tags, _, _, _, _, same⟩ := finish_caught f ended state
    rw [same]
    exact ⟨tags, rfl⟩

/-- The end of a step is seen in the open steps and by the recorder. -/
theorem finish_flight (f : Flight) (step : Step σ) (state : σ) :
    ∃ recorder host clock, (f.finish step state).2.2 =
      { f with
        openSteps := if step.ended then f.openSteps else (f.openSteps.remove step.id).2
        recorder, host, clock } := by
  cases ended : step.ended with
  | true =>
    rw [finish_of_ended ended]
    exact ⟨f.recorder, f.host, f.clock, rfl⟩
  | false =>
    obtain ⟨_, _, recorder, host, clock, same⟩ := finish_caught f ended state
    rw [same]
    exact ⟨recorder, host, clock, rfl⟩

@[simp] theorem finish_id : (f.finish step state).1.id = step.id := by
  obtain ⟨tags, same⟩ := finish_step f step state
  rw [same]

@[simp] theorem finish_parentId : (f.finish step state).1.parentId = step.parentId := by
  obtain ⟨tags, same⟩ := finish_step f step state
  rw [same]

@[simp] theorem finish_name : (f.finish step state).1.name = step.name := by
  obtain ⟨tags, same⟩ := finish_step f step state
  rw [same]

@[simp] theorem finish_ended : (f.finish step state).1.ended = true := by
  obtain ⟨tags, same⟩ := finish_step f step state
  rw [same]

@[simp] theorem finish_current : (f.finish step state).2.2.current = f.current := by
  obtain ⟨recorder, host, clock, same⟩ := finish_flight f step state
  rw [same]

theorem finish_openSteps :
    (f.finish step state).2.2.openSteps = if step.ended then f.openSteps else (f.openSteps.remove step.id).2 := by
  obtain ⟨recorder, host, clock, same⟩ := finish_flight f step state
  rw [same]

end LaunchTrace.Flight
