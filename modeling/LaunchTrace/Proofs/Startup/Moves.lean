import LaunchTrace.Proofs.Startup.Flight
import LaunchTrace.Startup.Session
import Mathlib.Logic.Relation
import Mathlib.Data.List.Perm.Basic

/-! Every operation of a recorded session is made of a few moves: a step starts, its end is called, it gets a tag, or
it leaves once it has ended. What each move keeps, all runs keep, whatever the recorder does meanwhile. -/
namespace LaunchTrace

variable {σ : Type}

/-- A step that can leave without its end being missed. -/
def Held.Over (h : Held σ) : Prop :=
  match h.handle with
  | .off => True
  | .step step => step.ended = true

/-- The recorder is left to itself. -/
def Operation.Internal : Operation σ → Prop
  | .surround _ => False
  | _ => True

namespace Session
open Relation

inductive Move : Session σ → Session σ → Prop where
  | start (f held state history label name direct) :
      Move ⟨.recording f, held, state, history⟩
        ⟨.recording (f.start (σ := σ) name).2, (label, ⟨.step (f.start name).1, direct⟩) :: held, state,
          .started (f.current + 1) f.openSteps.head name :: history⟩
  | callEnd (f step held state history label direct) :
      Move ⟨.recording f, (label, ⟨.step step, direct⟩) :: held, state, history⟩
        ⟨.recording (f.finish step state).2.2, (label, ⟨.step (f.finish step state).1, direct⟩) :: held,
          (f.finish step state).2.1, .ended step.id :: history⟩
  | attach (f step held state history label direct t) :
      Move ⟨.recording f, (label, ⟨.step step, direct⟩) :: held, state, history⟩
        ⟨.recording f, (label, ⟨.step (step.attach t), direct⟩) :: held, state, history⟩
  | leave (f h held state history label) : h.Over →
      Move ⟨.recording f, (label, h) :: held, state, history⟩ ⟨.recording f, held, state, history⟩
  /-- Steps are not held in any order. -/
  | arrange (f state history) {held next} : held.Perm next →
      Move ⟨.recording f, held, state, history⟩ ⟨.recording f, next, state, history⟩
  | change (f held state history next) :
      Move ⟨.recording f, held, state, history⟩ ⟨.recording f, held, next, history⟩

def Recording (s : Session σ) : Prop :=
  ∃ f, s.startup = .recording f

variable {s t : Session σ} {f : Flight} {held rest : List (String × Held σ)} {state : σ} {history : List Mark}
  {h : Held σ} {label : String} {op : Operation σ}

theorem Move.recording (move : Move s t) : t.Recording := by
  cases move <;> exact ⟨_, rfl⟩

theorem moves_induction {P : Session σ → Prop} (moved : ∀ s t, Move s t → P s → P t)
    (moves : ReflTransGen Move s t) (start : P s) : P t := by
  induction moves with
  | refl => exact start
  | tail _ move kept => exact moved _ _ move kept

theorem moves_recording (moves : ReflTransGen Move s t) (recording : s.Recording) : t.Recording :=
  moves_induction (fun _ _ move _ => move.recording) moves recording

theorem take?_perm (found : Held.take? label held = some (h, rest)) : held.Perm ((label, h) :: rest) := by
  induction held generalizing rest with
  | nil => simp [Held.take?] at found
  | cons entry held ih =>
    obtain ⟨other, first⟩ := entry
    unfold Held.take? at found
    split at found
    · rename_i same
      obtain ⟨rfl, rfl⟩ := Prod.mk.inj (Option.some.inj found)
      rw [same]
    · obtain ⟨⟨inner, others⟩, later, same⟩ := Option.map_eq_some_iff.mp found
      obtain ⟨rfl, rfl⟩ := Prod.mk.inj same
      exact ((ih later).cons _).trans (List.Perm.swap _ _ _)

theorem take?_eq_none : Held.take? label held = none ↔ label ∉ held.map Prod.fst := by
  induction held with
  | nil => simp [Held.take?]
  | cons entry held ih =>
    obtain ⟨other, h⟩ := entry
    by_cases found : other = label
    · simp [Held.take?, found]
    · simp [Held.take?, found, Ne.symm found, ih]

theorem tag_cases (s : Startup) (tag : Tag σ) (h : Held σ) :
    h.tag s tag = h ∨ ∃ step, h = ⟨.step step, h.direct⟩ ∧ h.tag s tag = ⟨.step (step.attach tag), h.direct⟩ := by
  obtain ⟨handle, direct⟩ := h
  cases handle with
  | off => cases direct <;> exact .inl rfl
  | step step =>
    cases direct with
    | true => exact .inr ⟨step, rfl, rfl⟩
    | false =>
      simp only [Held.tag, Startup.tag]
      split
      · exact .inr ⟨step, rfl, rfl⟩
      · exact .inl rfl

/-- Letting go calls the end of a step before it leaves, twice if there is a wrapper. -/
theorem letGo_moves (f : Flight) (held : List (String × Held σ)) (state : σ) (history : List Mark) (label : String)
    (h : Held σ) :
    ReflTransGen Move ⟨.recording f, (label, h) :: held, state, history⟩
      (letGo ⟨.recording f, held, state, history⟩ h) := by
  obtain ⟨handle, direct⟩ := h
  cases handle with
  | off =>
    cases direct <;> exact .single (.leave f _ held state history label trivial)
  | step step =>
    have once := Move.callEnd f step held state history label direct
    cases direct with
    | true =>
      exact .head once (.single (.leave _ _ held _ _ label Flight.finish_ended))
    | false =>
      have twice := Move.callEnd (f.finish step state).2.2 (f.finish step state).1 held (f.finish step state).2.1
        (.ended step.id :: history) label false
      exact .head once (.head twice (.single (.leave _ _ held _ _ label Flight.finish_ended)))

theorem letGo_put (s : Session σ) (h new : Held σ) (label : String) :
    (s.letGo h).put label new = (s.put label new).letGo h := by
  obtain ⟨handle, direct⟩ := h
  cases direct <;> rfl

theorem withHeld_cases (s : Session σ) (label : String) (action : Held σ → Session σ → Session σ) :
    s.withHeld label action = (.unknown, s) ∨ ∃ h rest, s.held.Perm ((label, h) :: rest) ∧
      s.withHeld label action = (.done, action h { s with held := rest }) := by
  unfold withHeld
  cases found : Held.take? label s.held with
  | none => exact .inl rfl
  | some pair => exact .inr ⟨pair.1, pair.2, take?_perm found, rfl⟩

theorem release_moves (recording : s.Recording) (label : String) : ReflTransGen Move s (s.release label).2 := by
  obtain ⟨startup, held, state, history⟩ := s
  obtain ⟨f, rfl⟩ := recording
  unfold release
  rcases withHeld_cases ⟨.recording f, held, state, history⟩ label _ with same | ⟨h, rest, arranged, same⟩
  · rw [same]
  · rw [same]
    exact .head (.arrange f state history arranged) (letGo_moves f rest state history label h)

/-- It makes no difference whether a label is taken before or after it has been let go of. -/
theorem release_put_moves (f : Flight) (held : List (String × Held σ)) (state : σ) (history : List Mark)
    (label : String) (new : Held σ) :
    ReflTransGen Move ⟨.recording f, (label, new) :: held, state, history⟩
      ((release ⟨.recording f, held, state, history⟩ label).2.put label new) := by
  unfold release
  rcases withHeld_cases ⟨.recording f, held, state, history⟩ label _ with same | ⟨h, rest, arranged, same⟩
  · rw [same]
    exact .refl
  · rw [same, letGo_put]
    have behind : ((label, new) :: held).Perm ((label, h) :: (label, new) :: rest) :=
      (arranged.cons _).trans (List.Perm.swap _ _ _)
    exact .head (.arrange f state history behind) (letGo_moves f ((label, new) :: rest) state history label h)

theorem finish_moves (recording : s.Recording) (label : String) : ReflTransGen Move s (s.finish label).2 := by
  obtain ⟨startup, held, state, history⟩ := s
  obtain ⟨f, rfl⟩ := recording
  unfold finish
  rcases withHeld_cases ⟨.recording f, held, state, history⟩ label _ with same | ⟨h, rest, arranged, same⟩
  · rw [same]
  · rw [same]
    apply ReflTransGen.head (.arrange f state history arranged)
    obtain ⟨handle, direct⟩ := h
    cases handle with
    | off =>
      cases direct with
      | true => exact .refl
      | false => exact letGo_moves f rest state history label _
    | step step =>
      apply ReflTransGen.head (.callEnd f step rest state history label direct)
      cases direct with
      | true => exact .refl
      | false => exact letGo_moves _ rest _ _ label _

/-- Pointers make no difference. -/
theorem tryStart_eq (s : Startup) (name : String) (access : Access) :
    access.tryStart (σ := σ) s name = s.tryStart name := by
  induction access with
  | own => rfl
  | shared _ ih => exact ih
  | borrowed _ ih => exact ih

def complaint (error : StartupError) : Route → Reply
  | .start _ => .panicked ("cannot start startup step: " ++ error.message)
  | .tryStart _ | .direct => .refused error

theorem begin_of_invalid {error : StartupError} {name : String} (invalid : StepName.validate name = .error error)
    (f : Flight) (route : Route) :
    route.begin (σ := σ) (.recording f) name = .error (complaint error route) := by
  cases route <;>
    simp [Route.begin, Access.start, tryStart_eq, Startup.tryStart, Startup.insist, invalid, complaint,
      Except.map, Except.mapError]

theorem begin_of_valid {name : String} {valid : StepName} (sound : StepName.validate name = .ok valid) (f : Flight)
    (route : Route) :
    route.begin (σ := σ) (.recording f) name =
      .ok (.step (f.start valid).1, .recording (f.start (σ := σ) valid).2) := by
  cases route <;>
    simp [Route.begin, Access.start, tryStart_eq, Startup.tryStart, Startup.insist, Startup.begin, sound,
      Except.map, Except.mapError]

theorem start_of_invalid {error : StartupError} {name : String} (invalid : StepName.validate name = .error error)
    (recording : s.Recording) (label : String) (route : Route) :
    s.start label route name = (complaint error route, s) := by
  obtain ⟨f, same⟩ := recording
  simp only [start, same, begin_of_invalid invalid]

theorem start_of_valid {name : String} {valid : StepName} (sound : StepName.validate name = .ok valid)
    (f : Flight) (held : List (String × Held σ)) (state : σ) (history : List Mark) (label : String) (route : Route) :
    start ⟨.recording f, held, state, history⟩ label route name =
      (.started (f.current + 1) (if f.openSteps.head = rootId then none else some f.openSteps.head),
        (release ⟨.recording (f.start (σ := σ) valid).2, held, state,
          .started (f.current + 1) f.openSteps.head valid :: history⟩ label).2.put label
            ⟨.step (f.start valid).1, route.isDirect⟩) := by
  simp only [start, begin_of_valid sound]
  rfl

theorem start_moves (recording : s.Recording) (label : String) (route : Route) (name : String) :
    ReflTransGen Move s (s.start label route name).2 := by
  cases checked : StepName.validate name with
  | error error =>
    rw [start_of_invalid checked recording]
  | ok valid =>
    obtain ⟨startup, held, state, history⟩ := s
    obtain ⟨f, rfl⟩ := recording
    rw [start_of_valid checked]
    exact .head (.start f held state history label valid route.isDirect) (release_put_moves _ held state _ label _)

theorem tag_moves (recording : s.Recording) (label : String) (tag : Tag σ) :
    ReflTransGen Move s (s.apply (.tag label tag)).2 := by
  obtain ⟨startup, held, state, history⟩ := s
  obtain ⟨f, rfl⟩ := recording
  simp only [apply]
  rcases withHeld_cases ⟨.recording f, held, state, history⟩ label _ with same | ⟨h, rest, arranged, same⟩
  · rw [same]
  · rw [same]
    apply ReflTransGen.head (.arrange f state history arranged)
    rcases tag_cases (.recording f) tag h with same | ⟨step, handle, same⟩
    · rw [same]
      exact .refl
    · rw [same, handle]
      exact .single (.attach f step rest state history label h.direct tag)

theorem unwind_moves (recording : s.Recording) (labels : List String) :
    ReflTransGen Move s (s.apply (.unwind labels)).2 := by
  simp only [apply]
  induction labels generalizing s with
  | nil => exact .refl
  | cons label labels ih =>
    have first := release_moves recording label
    exact first.trans (ih (moves_recording first recording))

theorem apply_moves (recording : s.Recording) (internal : op.Internal) : ReflTransGen Move s (s.apply op).2 := by
  cases op with
  | start label route name => exact start_moves recording label route name
  | tag label tag => exact tag_moves recording label tag
  | finish label => exact finish_moves recording label
  | release label => exact release_moves recording label
  | unwind labels => exact unwind_moves recording labels
  | change change =>
    obtain ⟨startup, held, state, history⟩ := s
    obtain ⟨f, rfl⟩ := recording
    exact .single (.change f held state history (change state))
  | surround _ => exact internal.elim

theorem run_moves {ops : List (Operation σ)} (recording : s.Recording) (internal : ∀ op ∈ ops, op.Internal) :
    ReflTransGen Move s (s.run ops) := by
  induction ops generalizing s with
  | nil => exact .refl
  | cons op ops ih =>
    have first := apply_moves recording (internal op List.mem_cons_self)
    have others : ∀ op ∈ ops, op.Internal := fun op member => internal op (List.mem_cons_of_mem _ member)
    exact first.trans (ih (moves_recording first recording) others)

/-- What every move and every change of the recorder keep, all runs keep. -/
theorem run_induction {P : Session σ → Prop} (moved : ∀ s t, Move s t → P s → P t)
    (surrounded : ∀ f held state history recorder host, P ⟨.recording f, held, state, history⟩ →
      P ⟨.recording { f with recorder, host }, held, state, history⟩)
    (ops : List (Operation σ)) (s : Session σ) (recording : s.Recording) (start : P s) :
    (s.run ops).Recording ∧ P (s.run ops) := by
  induction ops generalizing s with
  | nil => exact ⟨recording, start⟩
  | cons op ops ih =>
    by_cases internal : op.Internal
    · have moves := apply_moves recording internal
      exact ih _ (moves_recording moves recording) (moves_induction moved moves start)
    · cases op with
      | surround change =>
        obtain ⟨startup, held, state, history⟩ := s
        obtain ⟨f, rfl⟩ := recording
        exact ih _ ⟨_, rfl⟩ (surrounded f held state history _ _ start)
      | _ => exact absurd trivial internal

end Session
end LaunchTrace
