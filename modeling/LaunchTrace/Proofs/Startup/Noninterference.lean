import LaunchTrace.Proofs.Startup.OpenSteps

/-! Recorders do not reach back into a flight. Sessions that differ in their recorders, in what these share with
others, in the clocks or in what suppliers read get the same replies and have the same steps open all the way. -/
namespace LaunchTrace

variable {σ : Type}

/-- Only the tags and times of a step may depend on the recorder. -/
def Step.outline (step : Step σ) : StepId × StepId × StepName × Bool :=
  (step.id, step.parentId, step.name, step.ended)

def Held.outline (h : Held σ) : Option (StepId × StepId × StepName × Bool) × Bool :=
  (h.handle.step?.map Step.outline, h.direct)

namespace Session

def heldOutline (held : List (String × Held σ)) : List (String × Option (StepId × StepId × StepName × Bool) × Bool) :=
  held.map fun entry => (entry.1, entry.2.outline)

/-- Sessions that nothing but their recorders and suppliers can tell apart. -/
structure Alike (s t : Session σ) : Prop where
  flights : ∃ f g, s.startup = .recording f ∧ t.startup = .recording g ∧ f.current = g.current ∧
    f.openSteps = g.openSteps
  held : heldOutline s.held = heldOutline t.held

variable {s t : Session σ} {h k : Held σ} {f g : Flight} {held next : List (String × Held σ)} {label : String}

theorem outline_eq {a b : Step σ} : a.outline = b.outline ↔
    a.id = b.id ∧ a.parentId = b.parentId ∧ a.name = b.name ∧ a.ended = b.ended := by
  simp only [Step.outline, Prod.mk.injEq]

theorem attach_outline (step : Step σ) (tag : Tag σ) : (step.attach tag).outline = step.outline := by
  unfold Step.attach
  split <;> rfl

theorem tag_outline (startup : Startup) (tag : Tag σ) (h : Held σ) : (h.tag startup tag).outline = h.outline := by
  rcases tag_cases startup tag h with same | ⟨step, handle, same⟩
  · rw [same]
  · rw [same, handle]
    simp only [Held.outline, StepHandle.step?, Option.map_some, attach_outline]

theorem finish_outline {a b : Step σ} (same : a.outline = b.outline) (x y : σ) :
    (f.finish a x).1.outline = (g.finish b y).1.outline := by
  obtain ⟨id, parentId, name, _⟩ := outline_eq.mp same
  simp only [Step.outline, Flight.finish_id, Flight.finish_parentId, Flight.finish_name, Flight.finish_ended, id,
    parentId, name]

theorem finish_openSteps_eq {a b : Step σ} (openSteps : f.openSteps = g.openSteps) (same : a.outline = b.outline)
    (x y : σ) : (f.finish a x).2.2.openSteps = (g.finish b y).2.2.openSteps := by
  obtain ⟨id, _, _, ended⟩ := outline_eq.mp same
  rw [Flight.finish_openSteps, Flight.finish_openSteps, openSteps, id, ended]

theorem callEnd_alike (alike : s.Alike t) (same : h.outline = k.outline) :
    (s.callEnd h).1.outline = (t.callEnd k).1.outline ∧ (s.callEnd h).2.Alike (t.callEnd k).2 := by
  obtain ⟨first, heldFirst, x, marks⟩ := s
  obtain ⟨second, heldSecond, y, others⟩ := t
  obtain ⟨a, direct⟩ := h
  obtain ⟨b, otherDirect⟩ := k
  obtain ⟨⟨f, g, rfl, rfl, current, openSteps⟩, holdings⟩ := alike
  obtain ⟨handles, rfl⟩ := Prod.mk.inj same
  cases a with
  | off =>
    cases b with
    | off => exact ⟨same, ⟨f, g, rfl, rfl, current, openSteps⟩, holdings⟩
    | step b => simp [StepHandle.step?] at handles
  | step a =>
    cases b with
    | off => simp [StepHandle.step?] at handles
    | step b =>
      have steps : a.outline = b.outline := Option.some.inj handles
      refine ⟨?_, ⟨(f.finish a x).2.2, (g.finish b y).2.2, rfl, rfl, ?_, ?_⟩, holdings⟩
      · exact congrArg (fun outline => (some outline, direct)) (finish_outline steps x y)
      · rw [Flight.finish_current, Flight.finish_current, current]
      · exact finish_openSteps_eq openSteps steps x y

theorem letGo_alike (alike : s.Alike t) (same : h.outline = k.outline) : (s.letGo h).Alike (t.letGo k) := by
  obtain ⟨handles, sessions⟩ := callEnd_alike alike same
  have direct : h.direct = k.direct := congrArg Prod.snd same
  unfold letGo
  rw [← direct]
  split
  · exact sessions
  · exact (callEnd_alike sessions handles).2

theorem put_alike (alike : s.Alike t) (same : h.outline = k.outline) (label : String) :
    (s.put label h).Alike (t.put label k) where
  flights := alike.flights
  held := by
    have others := alike.held
    simp only [heldOutline] at others
    simp only [heldOutline, put, List.map_cons, same, others]

theorem take?_outline (label : String) (same : heldOutline held = heldOutline next) :
    (Held.take? label held = none ∧ Held.take? label next = none) ∨
      ∃ h rest k others, Held.take? label held = some (h, rest) ∧ Held.take? label next = some (k, others) ∧
        h.outline = k.outline ∧ heldOutline rest = heldOutline others := by
  induction held generalizing next with
  | nil =>
    obtain rfl := List.map_eq_nil_iff.mp same.symm
    exact .inl ⟨rfl, rfl⟩
  | cons entry held ih =>
    cases next with
    | nil => simp [heldOutline] at same
    | cons other next =>
      obtain ⟨first, h⟩ := entry
      obtain ⟨second, k⟩ := other
      obtain ⟨heads, tails⟩ := List.cons.inj same
      obtain ⟨rfl, outlines⟩ := Prod.mk.inj heads
      by_cases found : first = label
      · exact .inr ⟨h, held, k, next, if_pos found, if_pos found, outlines, tails⟩
      · rcases ih tails with ⟨left, right⟩ | ⟨a, rest, b, others, left, right, inner, behind⟩
        · refine .inl ⟨?_, ?_⟩ <;> simp [Held.take?, found, left, right]
        · refine .inr ⟨a, (first, h) :: rest, b, (first, k) :: others, ?_, ?_, inner, ?_⟩
          · simp [Held.take?, found, left]
          · simp [Held.take?, found, right]
          · exact congrArg₂ List.cons heads behind

theorem withHeld_alike {first second : Held σ → Session σ → Session σ} (alike : s.Alike t) (label : String)
    (actions : ∀ h k s t, h.outline = k.outline → s.Alike t → (first h s).Alike (second k t)) :
    (s.withHeld label first).1 = (t.withHeld label second).1 ∧
      (s.withHeld label first).2.Alike (t.withHeld label second).2 := by
  unfold withHeld
  rcases take?_outline label alike.held with ⟨left, right⟩ | ⟨h, rest, k, others, left, right, same, behind⟩
  · rw [left, right]
    exact ⟨rfl, alike⟩
  · rw [left, right]
    exact ⟨rfl, actions h k _ _ same ⟨alike.flights, behind⟩⟩

theorem release_alike (alike : s.Alike t) (label : String) :
    (s.release label).1 = (t.release label).1 ∧ (s.release label).2.Alike (t.release label).2 :=
  withHeld_alike alike label fun _ _ _ _ same alike => letGo_alike alike same

theorem finish_alike (alike : s.Alike t) (label : String) :
    (s.finish label).1 = (t.finish label).1 ∧ (s.finish label).2.Alike (t.finish label).2 := by
  refine withHeld_alike alike label fun h k s t same alike => ?_
  obtain ⟨handles, sessions⟩ := callEnd_alike alike same
  obtain ⟨a, direct⟩ := h
  obtain ⟨b, otherDirect⟩ := k
  obtain rfl : direct = otherDirect := congrArg Prod.snd same
  cases direct with
  | true => exact put_alike sessions handles label
  | false => exact letGo_alike sessions handles

theorem tag_alike (alike : s.Alike t) (label : String) (tag : Tag σ) :
    (s.apply (.tag label tag)).1 = (t.apply (.tag label tag)).1 ∧
      (s.apply (.tag label tag)).2.Alike (t.apply (.tag label tag)).2 := by
  refine withHeld_alike alike label fun h k s t same alike => put_alike alike ?_ label
  rw [tag_outline, tag_outline, same]

theorem unwind_alike (alike : s.Alike t) (labels : List String) :
    (s.apply (.unwind labels)).2.Alike (t.apply (.unwind labels)).2 := by
  simp only [apply]
  induction labels generalizing s t with
  | nil => exact alike
  | cons label labels ih => exact ih (release_alike alike label).2

theorem start_alike (alike : s.Alike t) (label : String) (route : Route) (name : String) :
    (s.start label route name).1 = (t.start label route name).1 ∧
      (s.start label route name).2.Alike (t.start label route name).2 := by
  obtain ⟨first, heldFirst, x, marks⟩ := s
  obtain ⟨second, heldSecond, y, others⟩ := t
  obtain ⟨⟨f, g, rfl, rfl, current, openSteps⟩, holdings⟩ := alike
  cases checked : StepName.validate name with
  | error error =>
    rw [start_of_invalid checked ⟨f, rfl⟩, start_of_invalid checked ⟨g, rfl⟩]
    exact ⟨rfl, ⟨f, g, rfl, rfl, current, openSteps⟩, holdings⟩
  | ok valid =>
    have heads : f.openSteps.head = g.openSteps.head := congrArg OpenSteps.head openSteps
    have begun (first second : List Mark) : Alike ⟨.recording (f.start (σ := σ) valid).2, heldFirst, x, first⟩
        ⟨.recording (g.start (σ := σ) valid).2, heldSecond, y, second⟩ := by
      refine ⟨⟨_, _, rfl, rfl, ?_, ?_⟩, holdings⟩
      · rw [Flight.start_current, Flight.start_current, current]
      · simp only [Flight.start, OpenSteps.push, current, openSteps]
    have steps : (f.start (σ := σ) valid).1.outline = (g.start (σ := σ) valid).1.outline := by
      simp only [Step.outline, Flight.start_id, Flight.start_parentId, Flight.start_name, Flight.start_ended, current,
        heads]
    rw [start_of_valid checked, start_of_valid checked]
    refine ⟨by rw [current, heads], put_alike (release_alike (begun _ _) label).2 ?_ label⟩
    exact congrArg (fun outline => (some outline, route.isDirect)) steps

theorem surround_alike (alike : s.Alike t) (change : Recorder → Host → Recorder × Host) :
    (s.apply (.surround change)).2.Alike (t.apply (.surround change)).2 := by
  obtain ⟨first, heldFirst, x, marks⟩ := s
  obtain ⟨second, heldSecond, y, others⟩ := t
  obtain ⟨⟨f, g, rfl, rfl, current, openSteps⟩, holdings⟩ := alike
  exact ⟨⟨_, _, rfl, rfl, current, openSteps⟩, holdings⟩

theorem apply_alike (alike : s.Alike t) (op : Operation σ) :
    (s.apply op).1 = (t.apply op).1 ∧ (s.apply op).2.Alike (t.apply op).2 := by
  cases op with
  | start label route name => exact start_alike alike label route name
  | tag label tag => exact tag_alike alike label tag
  | finish label => exact finish_alike alike label
  | release label => exact release_alike alike label
  | unwind labels => exact ⟨rfl, unwind_alike alike labels⟩
  | change change => exact ⟨rfl, alike.flights, alike.held⟩
  | surround change => exact ⟨rfl, surround_alike alike change⟩

theorem run_alike (alike : s.Alike t) (ops : List (Operation σ)) : (s.run ops).Alike (t.run ops) := by
  induction ops generalizing s t with
  | nil => exact alike
  | cons op ops ih => exact ih (apply_alike alike op).2

theorem withHeld_reply (s : Session σ) (label : String) (action : Held σ → Session σ → Session σ) :
    (s.withHeld label action).1 = if label ∈ s.held.map Prod.fst then .done else .unknown := by
  unfold withHeld
  cases found : Held.take? label s.held with
  | none => rw [if_neg (take?_eq_none.mp found)]
  | some pair =>
    by_cases member : label ∈ s.held.map Prod.fst
    · rw [if_pos member]
    · rw [take?_eq_none.mpr member] at found
      contradiction

/-- The label whose step an operation tags, ends or lets go of. -/
def target? : Operation σ → Option String
  | .tag label _ | .finish label | .release label => some label
  | _ => none

theorem target_reply {op : Operation σ} (aimed : target? op = some label) (s : Session σ) :
    (s.apply op).1 = if label ∈ s.held.map Prod.fst then .done else .unknown := by
  cases op with
  | tag other _ | finish other | release other =>
    obtain rfl : other = label := Option.some.inj aimed
    exact withHeld_reply s other _
  | _ => simp [target?] at aimed

/-- After the same operations, two flights answer the next one alike and have the same steps open, whatever their
recorders are and do. An operation on a step that is held never fails, as the flight catches the errors and panics of
its recorder. -/
theorem run_noninterference (first second : Recorder) (host other : Host) (clock later : Clock) (x y : σ)
    (ops : List (Operation σ)) (op : Operation σ) :
    let s := (ofRecorder first host clock x).run ops
    let t := (ofRecorder second other later y).run ops
    (s.apply op).1 = (t.apply op).1 ∧
      (∃ f g, (s.apply op).2.startup = .recording f ∧ (t.apply op).2.startup = .recording g ∧
        f.openSteps.snapshot = g.openSteps.snapshot ∧ f.openSteps.head = g.openSteps.head ∧
        f.current = g.current) ∧
      (∀ label, target? op = some label →
        (s.apply op).1 = (if label ∈ s.held.map Prod.fst then .done else .unknown) ∧
        (t.apply op).1 = (if label ∈ t.held.map Prod.fst then .done else .unknown)) := by
  intro s t
  have launched : (ofRecorder first host clock x).Alike (ofRecorder second other later y) :=
    ⟨⟨_, _, rfl, rfl, rfl, rfl⟩, rfl⟩
  obtain ⟨replies, sessions⟩ := apply_alike (run_alike launched ops) op
  obtain ⟨f, g, left, right, current, openSteps⟩ := sessions.flights
  refine ⟨replies, ⟨f, g, left, right, ?_, ?_, current⟩, ?_⟩
  · rw [openSteps]
  · rw [openSteps]
  · exact fun label aimed => ⟨target_reply aimed s, target_reply aimed t⟩

end Session
end LaunchTrace
