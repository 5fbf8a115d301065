import LaunchTrace.Proofs.Startup.Keeping
import LaunchTrace.Startup.Basic

/-! What work inside a step leaves behind in a flight that records to a memory. The steps that were open before are the
open ones again, and the memory has the events of the work and behind them that of the step. -/
namespace LaunchTrace

variable {σ α : Type}

theorem StepId.toNat_next {id : StepId} (few : id.toNat + 1 < UInt64.size) : (id + 1).toNat = id.toNat + 1 := by
  rw [UInt64.toNat_add]
  exact Nat.mod_eq_of_lt few

/-- As long as the ids last, no step has the id of the root. -/
theorem StepId.next_ne_root {id : StepId} (few : id.toNat + 1 < UInt64.size) : id + 1 ≠ rootId := by
  intro wrapped
  have number := toNat_next few
  rw [wrapped] at number
  exact Nat.succ_ne_zero _ number.symm

/-- An event without its times. -/
structure Event.Outline where
  id : StepId
  parentId : StepId
  name : String
  tags : String
deriving DecidableEq, Repr

def Event.outline (e : Event) : Event.Outline :=
  ⟨e.id, e.parentId, e.name, e.tags⟩

/-- The flight has come from one to the other, with new events in its memory and the same steps open. -/
structure Flight.Wrote (f g : Flight) (outlines : List Event.Outline) : Prop where
  opened : g.openSteps = f.openSteps
  recorded : ∃ events later, f.recorder = .sink (.memory events) ∧ g.recorder = .sink (.memory (events ++ later)) ∧
    later.map (·.outline) = outlines

theorem Flight.Wrote.refl {f : Flight} {events : List Event} (memory : f.recorder = .sink (.memory events)) :
    f.Wrote f [] :=
  ⟨rfl, events, [], memory, by rw [memory, List.append_nil], rfl⟩

theorem Flight.Wrote.memory {f g : Flight} {outlines : List Event.Outline} {events : List Event}
    (wrote : f.Wrote g outlines) (memory : f.recorder = .sink (.memory events)) :
    ∃ later, g.recorder = .sink (.memory (events ++ later)) ∧ later.map (·.outline) = outlines := by
  obtain ⟨_, before, later, same, recorder, outlined⟩ := wrote
  rw [memory] at same
  cases same
  exact ⟨later, recorder, outlined⟩

/-- Tags with values that are at hand. -/
def Tag.ready (tags : List (String × String)) : List (Tag σ) :=
  tags.map fun (key, value) => ⟨key, .ready value⟩

theorem Tag.texts_ready (tags : List (String × String)) (state : σ) :
    Tag.texts (Tag.ready tags) state = (tags, state) := by
  induction tags with
  | nil => rfl
  | cons tag rest ih =>
    rw [ready] at ih
    simp [ready, texts, ih]

/-- The step that was started last is closed again. -/
theorem Flight.close_started {f : Flight} {name : StepName} (fresh : f.current + 1 ≠ rootId) :
    ((f.start (σ := σ) name).2.openSteps.remove (f.current + 1)).2 = f.openSteps := by
  have first : f.current + 1 ∈ (f.start (σ := σ) name).2.openSteps.ids := List.mem_cons_self
  rw [OpenSteps.remove, if_pos ⟨fresh, first⟩]
  exact congrArg OpenSteps.mk (List.erase_cons_head ..)

namespace Startup

variable {f g : Flight} {step : Step σ} {body : Startup → α × Startup} {result : α}
  {outlines : List Event.Outline}

theorem tag_recording (asked : f.isRecording = true) (running : step.ended = false) (t : Tag σ) :
    (Startup.recording f).tag (.step step) t = .step { step with tags := step.tags.push t } := by
  have open_ : ¬ step.ended = true := by
    rw [running]
    exact Bool.false_ne_true
  simp only [tag, isRecording, if_pos asked, Step.attach, if_neg open_]

theorem tagAll_recording (asked : f.isRecording = true) (running : step.ended = false)
    (tags : List (String × String)) :
    (Startup.recording f).tagAll (.step step) tags =
      .step { step with tags := ⟨step.tags.entries ++ Tag.ready tags⟩ } := by
  induction tags generalizing step with
  | nil => simp [tagAll, Tag.ready]
  | cons t rest ih =>
    have first : (Startup.recording f).tagAll (.step step) (t :: rest) =
        (Startup.recording f).tagAll ((Startup.recording f).tag (.step step) ⟨t.1, .ready t.2⟩) rest := rfl
    rw [first, tag_recording asked running, ih]
    · simp [Tags.push, Tag.ready]
    · exact running

/-- The step as it ends: with the tags of its start and of its end, if the flight records both times. -/
theorem within_recording (name : StepName) (asked : f.isRecording = true)
    (ran : body (.recording (f.start (σ := Unit) name).2) = (result, .recording g)) (still : g.isRecording = true)
    (before : List (String × String)) (after : α → List (String × String)) :
    (Startup.recording f).within name before body after = (result, .recording
      (g.finish { (f.start (σ := Unit) name).1 with tags := ⟨Tag.ready (before ++ after result)⟩ } ()).2.2) := by
  have started : (f.start (σ := Unit) name).2.isRecording = true := asked
  simp only [within, begin]
  rw [tagAll_recording started rfl, ran]
  dsimp only
  rw [tagAll_recording still rfl, Tag.ready, Tag.ready, Tag.ready, List.map_append]
  rfl

/-- Around work that leaves the open steps as they were, a step leaves them so too. -/
theorem within_wrote (name : StepName) (ran : body (.recording (f.start (σ := Unit) name).2) = (result, .recording g))
    (wrote : (f.start (σ := Unit) name).2.Wrote g outlines) (fresh : f.current + 1 ≠ rootId)
    (before : List (String × String)) (after : α → List (String × String)) :
    ∃ h, (Startup.recording f).within name before body after = (result, .recording h) ∧
      f.Wrote h (outlines ++ [⟨f.current + 1, f.openSteps.head, name.text, Tag.listing (before ++ after result)⟩]) := by
  obtain ⟨opened, events, later, memory, recorder, outlined⟩ := wrote
  have asked : f.Keeps .memory true events := ⟨memory, rfl⟩
  have keeps : g.Keeps .memory true (events ++ later) := ⟨recorder, rfl⟩
  let step : Step Unit := { (f.start (σ := Unit) name).1 with tags := ⟨Tag.ready (before ++ after result)⟩ }
  have running : step.ended = false := rfl
  obtain ⟨-, e, kept, id, parentId, called, tags⟩ := Flight.finish_keeps memory_keeping keeps running ()
  rw [Tag.texts_ready] at tags
  have outline : e.outline = ⟨f.current + 1, f.openSteps.head, name.text, Tag.listing (before ++ after result)⟩ := by
    rw [Event.outline, id, parentId, called, tags]
    rfl
  refine ⟨_, within_recording name asked.isRecording ran keeps.isRecording before after, ?_,
    events, later ++ [e], memory, by rw [kept.recorder, List.append_assoc], ?_⟩
  · rw [Flight.finish_openSteps, if_neg (by exact Bool.false_ne_true), opened]
    exact Flight.close_started (σ := Unit) fresh
  · rw [List.map_append, outlined, List.map_singleton, outline]

end Startup
end LaunchTrace
