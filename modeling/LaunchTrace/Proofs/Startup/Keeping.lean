import LaunchTrace.Proofs.Startup.Flight
import LaunchTrace.Proofs.Startup.Journal

/-! Recorders that keep all events they get, whether they always record or have a switch, and what the end of a step
hands to them. -/
namespace LaunchTrace

variable {σ : Type}

theorem Tags.resolveEntries_eq (tags : List (Tag σ)) (state : σ) :
    resolveEntries tags state =
      ((Tag.texts tags state).1.map fun (key, text) => ⟨key, .ready text⟩, (Tag.texts tags state).2) := by
  induction tags generalizing state with
  | nil => rfl
  | cons tag rest ih =>
    obtain ⟨key, value⟩ := tag
    cases value with
    | ready text => simp [resolveEntries, Tag.resolve, Tag.texts, ih]
    | deferred supplier =>
      cases called : supplier state with
      | mk text? after => cases text? <;> simp [resolveEntries, Tag.resolve, Tag.texts, called, ih]

theorem Tags.resolve_display (tags : Tags σ) (state : σ) :
    (tags.resolve state).1.display = Tag.listing (Tag.texts tags.entries state).1 := by
  simp only [resolve, resolveEntries_eq, display, Tag.listing, List.map_map, Function.comp_def, Tag.display,
    TagValue.display]

theorem Tags.resolve_state (tags : Tags σ) (state : σ) :
    (tags.resolve state).2 = (Tag.texts tags.entries state).2 := by
  simp only [resolve, resolveEntries_eq]

/-- A sink that keeps all events that it gets. -/
structure Sink.Keeping (sink : List Event → Sink) : Prop where
  commit : ∀ events e host, (sink events).commit e host = (sink (events ++ [e]), host, .done)
  asked : ∀ events others host, (sink events).isRecording host = (sink others).isRecording host
  remembered : ∀ events, (sink events).events? = some events

variable {sink : List Event → Sink} {on : Bool}

theorem memory_keeping : Sink.Keeping .memory :=
  ⟨fun _ _ _ => rfl, fun _ _ _ => rfl, fun _ => rfl⟩

theorem switched_keeping : Sink.Keeping .switched :=
  ⟨fun _ _ _ => rfl, fun _ _ _ => rfl, fun _ => rfl⟩

namespace Flight

/-- The events are in a sink, and `on` is whether it wants more. -/
structure Keeps (f : Flight) (sink : List Event → Sink) (on : Bool) (events : List Event) : Prop where
  recorder : f.recorder = .sink (sink events)
  asked : (sink events).isRecording f.host = .ok on

variable {f : Flight} {events : List Event} {step : Step σ} {state : σ}

theorem Keeps.isRecording (keeps : f.Keeps sink on events) : f.isRecording = on := by
  apply isRecording_of_answer
  rw [keeps.recorder, Recorder.isRecording, keeps.asked]

theorem Keeps.commit (keeping : Sink.Keeping sink) (keeps : f.Keeps sink on events) (e : Event) :
    (f.commit e).Keeps sink on (events ++ [e]) := by
  have handed : f.recorder.commit e f.host = (.sink (sink (events ++ [e])), f.host, .done) := by
    rw [keeps.recorder, Recorder.commit, keeping.commit]
  rw [commit_of_outcome handed]
  exact ⟨rfl, (keeping.asked _ events f.host).trans keeps.asked⟩

theorem finish_keeps (keeping : Sink.Keeping sink) (keeps : f.Keeps sink true events) (running : step.ended = false)
    (state : σ) : (f.finish step state).2.1 = (Tag.texts step.tags.entries state).2 ∧
      ∃ e, (f.finish step state).2.2.Keeps sink true (events ++ [e]) ∧
        e.id = step.id ∧ e.parentId = step.parentId ∧ e.name = step.name.text ∧
        e.tags = Tag.listing (Tag.texts step.tags.entries state).1 := by
  have timed : ({ f.close step.id with clock := f.clock.advance } : Flight).Keeps sink true events :=
    ⟨keeps.recorder, keeps.asked⟩
  rw [finish_of_recording running keeps.isRecording]
  exact ⟨step.tags.resolve_state state, _, timed.commit keeping _, rfl, rfl, rfl, step.tags.resolve_display state⟩

theorem finish_passes (keeps : f.Keeps sink false events) (running : step.ended = false) (state : σ) :
    (f.finish step state).2.1 = state ∧ (f.finish step state).2.2.Keeps sink false events := by
  rw [finish_of_idle running keeps.isRecording]
  exact ⟨rfl, keeps.recorder, keeps.asked⟩

/-- A memory gets the event of a step that ends, behind those it has. -/
theorem finish_memory (memory : f.recorder = .sink (.memory events)) (state : σ) (running : step.ended = false) :
    ∃ e, (f.finish step state).2.2.recorder = .sink (.memory (events ++ [e])) ∧
      e.id = step.id ∧ e.parentId = step.parentId ∧ e.name = step.name.text := by
  have keeps : f.Keeps .memory true events := ⟨memory, rfl⟩
  obtain ⟨_, e, later, id, parentId, name, _⟩ := finish_keeps memory_keeping keeps running state
  exact ⟨e, later.recorder, id, parentId, name⟩

end Flight
end LaunchTrace
