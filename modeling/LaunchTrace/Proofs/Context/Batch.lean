import LaunchTrace.Proofs.Context.Registration

/-! Classes that a context takes in one after the other. Each is judged by what those before it have left; the first
that is refused ends the batch, and those before it stay. -/
namespace LaunchTrace

/-- How classes are taken in that come one after the other. -/
structure Batch where
  generator : NameGenerator
  environment : Environment
  state : ContextState
  /-- Whether classes are passed over whose types are registered already. -/
  onlyNew : Bool

namespace Batch

variable {b : Batch} {r : Registry} {cls : ComponentClass}

def PassesOver (b : Batch) (r : Registry) (cls : ComponentClass) : Prop :=
  b.onlyNew = true ∧ r.containsType cls.typeName = true

instance : Decidable (b.PassesOver r cls) :=
  inferInstanceAs (Decidable (_ ∧ _))

def Refuses (b : Batch) (r : Registry) (cls : ComponentClass) (e : ContextError) : Prop :=
  ¬ b.PassesOver r cls ∧ (trial b.generator r cls).Refused b.environment b.state e

/-- The registry that the next class is judged by. -/
def next (b : Batch) (r : Registry) (cls : ComponentClass) : Registry :=
  if b.PassesOver r cls then r else (trial b.generator r cls).taken b.environment

/-- The registry that classes leave behind. -/
def after (b : Batch) (r : Registry) (classes : List ComponentClass) : Registry :=
  classes.foldl b.next r

/-- None of the classes is refused beside what those before it have left. -/
def Takes (b : Batch) : Registry → List ComponentClass → Prop
  | _, [] => True
  | r, cls :: rest => (∀ e, ¬ b.Refuses r cls e) ∧ b.Takes (b.next r cls) rest

/-- The class is the first that is refused: none of those before it is, but it is beside what they leave. -/
def BreaksOff (b : Batch) (r : Registry) (before : List ComponentClass) (cls : ComponentClass) (e : ContextError) :
    Prop :=
  b.Takes r before ∧ b.Refuses (b.after r before) cls e

theorem takes_or_breaksOff (b : Batch) (r : Registry) (classes : List ComponentClass) : b.Takes r classes ∨
    ∃ before cls rest e, classes = before ++ cls :: rest ∧ b.BreaksOff r before cls e := by
  induction classes generalizing r with
  | nil => exact .inl trivial
  | cons cls rest ih =>
    by_cases refused : ∃ e, b.Refuses r cls e
    · obtain ⟨e, refused⟩ := refused
      exact .inr ⟨[], cls, rest, e, rfl, trivial, refused⟩
    · have accepted := not_exists.mp refused
      rcases ih (b.next r cls) with takes | ⟨before, last, behind, e, rfl, takes, refused⟩
      · exact .inl ⟨accepted, takes⟩
      · exact .inr ⟨cls :: before, last, behind, e, rfl, ⟨accepted, takes⟩, refused⟩

end Batch

namespace Context

variable {c after : Context} {g : NameGenerator} {cls : ComponentClass} {before classes rest : List ComponentClass}
  {e : ContextError} {onlyNew : Bool}

def batch (c : Context) (g : NameGenerator) (onlyNew : Bool) : Batch :=
  ⟨g, c.environment, c.state, onlyNew⟩

/-- Takes in classes, all of them or only those of new types. -/
def takeIn (g : NameGenerator) (onlyNew : Bool) (classes : List ComponentClass) (c : Context) :
    Except ContextError Unit × Context :=
  if onlyNew then registerNew g classes c
  else ((registerEach g classes c).1.map fun _ => (), (registerEach g classes c).2)

theorem takeIn_refused (refused : (c.batch g onlyNew).Refuses c.registry cls e) :
    takeIn g onlyNew (cls :: rest) c = (.error e, c) := by
  obtain ⟨looked, refused⟩ := refused
  have failed : c.registerClass g cls = .error e := registerClass_eq_error.mpr refused
  cases onlyNew with
  | false =>
    rw [takeIn, if_neg Bool.false_ne_true, registerEach, failed]
    rfl
  | true =>
    have new : ¬ c.registry.containsType cls.typeName = true := fun known => looked ⟨rfl, known⟩
    rw [takeIn, if_pos rfl, registerNew, if_neg new, failed]

theorem takeIn_accepted (accepted : ∀ e, ¬ (c.batch g onlyNew).Refuses c.registry cls e) :
    takeIn g onlyNew (cls :: rest) c =
      takeIn g onlyNew rest { c with registry := (c.batch g onlyNew).next c.registry cls } := by
  by_cases passes : (c.batch g onlyNew).PassesOver c.registry cls
  · obtain ⟨rfl, known⟩ := passes
    rw [Batch.next, if_pos ⟨rfl, known⟩, takeIn, takeIn, if_pos rfl, if_pos rfl, registerNew, if_pos known]
  · have made := registerClass_taken (g := g) fun e refused => accepted e ⟨passes, refused⟩
    rw [Batch.next, if_neg passes]
    cases onlyNew with
    | false =>
      rw [takeIn, takeIn, if_neg Bool.false_ne_true, if_neg Bool.false_ne_true, registerEach, made]
      dsimp only [batch]
      generalize registerEach g rest _ = last
      obtain ⟨names, _⟩ := last
      cases names <;> rfl
    | true =>
      have new : ¬ c.registry.containsType cls.typeName = true := fun known => passes ⟨rfl, known⟩
      rw [takeIn, takeIn, if_pos rfl, if_pos rfl, registerNew, if_neg new, made]
      rfl

theorem takeIn_takes (takes : (c.batch g onlyNew).Takes c.registry classes) :
    takeIn g onlyNew classes c = (.ok (), { c with registry := (c.batch g onlyNew).after c.registry classes }) := by
  induction classes generalizing c with
  | nil => cases onlyNew <;> rfl
  | cons cls rest ih =>
    obtain ⟨accepted, takes⟩ := takes
    rw [takeIn_accepted accepted]
    exact ih takes

theorem takeIn_append (takes : (c.batch g onlyNew).Takes c.registry before) :
    takeIn g onlyNew (before ++ rest) c =
      takeIn g onlyNew rest { c with registry := (c.batch g onlyNew).after c.registry before } := by
  induction before generalizing c with
  | nil => rfl
  | cons cls before ih =>
    obtain ⟨accepted, takes⟩ := takes
    rw [List.cons_append, takeIn_accepted accepted]
    exact ih takes

theorem takeIn_breaksOff (broken : (c.batch g onlyNew).BreaksOff c.registry before cls e) :
    takeIn g onlyNew (before ++ cls :: rest) c =
      (.error e, { c with registry := (c.batch g onlyNew).after c.registry before }) := by
  rw [takeIn_append broken.1]
  exact takeIn_refused broken.2

/-- All classes are taken in, if there was no failure. -/
theorem takeIn_ok (done : takeIn g onlyNew classes c = (.ok (), after)) :
    (c.batch g onlyNew).Takes c.registry classes ∧
      after = { c with registry := (c.batch g onlyNew).after c.registry classes } := by
  rcases (c.batch g onlyNew).takes_or_breaksOff c.registry classes with takes | ⟨_, _, _, _, rfl, broken⟩
  · exact ⟨takes, congrArg Prod.snd (done.symm.trans (takeIn_takes takes))⟩
  · rw [takeIn_breaksOff broken] at done
    cases (Prod.mk.inj done).1

/-- A failure is that of the first class that is refused. -/
theorem takeIn_error (failed : takeIn g onlyNew classes c = (.error e, after)) :
    ∃ before cls rest, classes = before ++ cls :: rest ∧
      (c.batch g onlyNew).BreaksOff c.registry before cls e ∧
      after = { c with registry := (c.batch g onlyNew).after c.registry before } := by
  rcases (c.batch g onlyNew).takes_or_breaksOff c.registry classes with takes | ⟨before, cls, rest, _, rfl, broken⟩
  · rw [takeIn_takes takes] at failed
    cases (Prod.mk.inj failed).1
  · rw [takeIn_breaksOff broken] at failed
    obtain ⟨same, rfl⟩ := Prod.mk.inj failed
    obtain rfl := Except.error.inj same
    exact ⟨before, cls, rest, rfl, broken, rfl⟩

end Context
end LaunchTrace
