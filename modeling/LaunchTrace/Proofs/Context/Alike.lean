import LaunchTrace.Proofs.Context.Filling
import LaunchTrace.Proofs.Except

/-! Contexts with the same components in environments that give the same answers. As long as conditions ask nothing
but the environment, whatever is registered fares alike in both. -/
namespace LaunchTrace

/-- The environments have the same properties and profiles, whatever sources these come from. -/
structure Environment.Agrees (env other : Environment) : Prop where
  properties : ∀ key, other.get? key = env.get? key
  explicitProfiles : other.explicitProfiles = env.explicitProfiles
  defaultProfiles : other.defaultProfiles = env.defaultProfiles

namespace Environment.Agrees

variable {env other : Environment}

theorem holds (agrees : env.Agrees other) (profile : String) : other.holds profile = env.holds profile := by
  have active : other.activeProfiles = env.activeProfiles := by
    rw [activeProfiles, activeProfiles, agrees.explicitProfiles, agrees.properties]
  rw [Environment.holds, Environment.holds, active, agrees.defaultProfiles]

theorem accepts (agrees : env.Agrees other) (expression : String) :
    other.accepts expression = env.accepts expression := by
  unfold Environment.accepts
  generalize expression.toList = s
  induction s with
  | nil => exact agrees.holds _
  | cons c rest ih =>
    unfold acceptsFrom
    split
    · rename_i same
      obtain ⟨_, rfl⟩ := List.cons.inj same
      rw [ih]
    · exact agrees.holds _

end Environment.Agrees

/-- The question is answered by the environment alone. -/
def Question.Outward : Question → Prop
  | .property .. | .profile _ => True
  | .component .. | .custom _ => False

theorem Question.holds_agrees {q : Question} {env other : Environment} (outward : q.Outward) (agrees : env.Agrees other)
    (registry later : Registry) (d : ComponentDefinition) : q.holds other later d = q.holds env registry d := by
  cases q with
  | property key expected ifMissing => simp only [holds, agrees.properties]
  | profile expressions =>
    have same : other.accepts = env.accepts := funext agrees.accepts
    rw [holds, holds, same]
  | component => exact outward.elim
  | custom => exact outward.elim

def ComponentDefinition.Outward (d : ComponentDefinition) : Prop :=
  ∀ c ∈ d.conditions, c.question.Outward

theorem ComponentDefinition.isSkipped_agrees {d : ComponentDefinition} {env other : Environment} (outward : d.Outward)
    (agrees : env.Agrees other) (registry later : Registry) (phase : Phase) :
    d.isSkipped other later phase = d.isSkipped env registry phase := by
  unfold isSkipped
  rw [Bool.eq_iff_iff, List.any_eq_true, List.any_eq_true]
  refine exists_congr fun c => and_congr_right fun member => ?_
  rw [Condition.holds, Condition.holds, Question.holds_agrees (outward c member) agrees registry later]

def ComponentClass.Outward (cls : ComponentClass) : Prop :=
  ∀ c ∈ cls.conditions, c.question.Outward

namespace Context

/-- The contexts have the same components and are in the same state. -/
structure Alike (c other : Context) : Prop where
  agrees : c.environment.Agrees other.environment
  registry : other.registry = c.registry
  state : other.state = c.state
  outward : ∀ d ∈ c.registry.definitions, d.Outward

variable {c other : Context} {g : NameGenerator} {cls : ComponentClass} {classes : List ComponentClass}
  {d : ComponentDefinition}

theorem Alike.registerDefinition (alike : c.Alike other) (outward : d.Outward) :
    Concur Alike (c.registerDefinition d) (other.registerDefinition d) := by
  unfold Context.registerDefinition
  rw [alike.state, alike.registry]
  split
  · exact .error _
  · cases registered : c.registry.register d with
    | error e => exact .error e
    | ok registry =>
      refine .ok ⟨alike.agrees, rfl, rfl, fun e member => ?_⟩
      rcases Registry.mem_of_register registered member with there | rfl
      · exact alike.outward e there
      · exact outward

theorem Alike.registerClass (alike : c.Alike other) (outward : cls.Outward) :
    Concur (fun made same => same.1 = made.1 ∧ made.2.Alike same.2) (c.registerClass g cls)
      (other.registerClass g cls) := by
  unfold Context.registerClass
  rw [alike.registry]
  have outward : (cls.define (g.generate cls c.registry)).Outward := outward
  generalize cls.define (g.generate cls c.registry) = d at outward ⊢
  dsimp only
  rw [ComponentDefinition.isSkipped_agrees outward alike.agrees c.registry]
  split
  · exact .error _
  · split
    · exact .ok ⟨rfl, alike⟩
    · exact (alike.registerDefinition outward).map fun _ _ _ _ next => ⟨rfl, next⟩

theorem Alike.registerEach (alike : c.Alike other) (outward : ∀ cls ∈ classes, cls.Outward) :
    (registerEach g classes other).1 = (registerEach g classes c).1 ∧
      (registerEach g classes c).2.Alike (registerEach g classes other).2 := by
  induction classes generalizing c other with
  | nil => exact ⟨rfl, alike⟩
  | cons cls rest ih =>
    unfold Context.registerEach
    rcases alike.registerClass (g := g) (outward cls List.mem_cons_self) with
      ⟨e, failed, too⟩ | ⟨⟨_, after⟩, ⟨name, later⟩, registered, too, rfl, next⟩
    · rw [failed, too]
      exact ⟨rfl, alike⟩
    · rw [registered, too]
      obtain ⟨same, last⟩ := ih next fun cls member => outward cls (List.mem_cons_of_mem _ member)
      exact ⟨congrArg (Except.map (name :: ·)) same, last⟩

theorem Alike.registerNew (alike : c.Alike other) (outward : ∀ cls ∈ classes, cls.Outward) :
    (registerNew g classes other).1 = (registerNew g classes c).1 ∧
      (registerNew g classes c).2.Alike (registerNew g classes other).2 := by
  induction classes generalizing c other with
  | nil => exact ⟨rfl, alike⟩
  | cons cls rest ih =>
    have outward_rest : ∀ cls ∈ rest, cls.Outward := fun cls member => outward cls (List.mem_cons_of_mem _ member)
    unfold Context.registerNew
    rw [alike.registry]
    split
    · exact ih alike outward_rest
    · rcases alike.registerClass (g := g) (outward cls List.mem_cons_self) with
        ⟨e, failed, too⟩ | ⟨⟨_, after⟩, ⟨name, later⟩, registered, too, rfl, next⟩
      · rw [failed, too]
        exact ⟨rfl, alike⟩
      · rw [registered, too]
        exact ih next outward_rest

theorem Alike.scan (alike : c.Alike other) {scanner : Scanner}
    (outward : ∀ package, ∀ cls ∈ scanner.find package, cls.Outward) (packages : List String) :
    (other.scan g scanner packages).1 = (c.scan g scanner packages).1 ∧
      (c.scan g scanner packages).2.Alike (other.scan g scanner packages).2 := by
  have found : ∀ cls ∈ packages.flatMap scanner.find, cls.Outward := by
    intro cls member
    obtain ⟨package, _, found⟩ := List.mem_flatMap.mp member
    exact outward package cls found
  obtain ⟨same, alike_after⟩ := alike.registerNew (g := g) found
  refine ⟨?_, alike_after⟩
  simp only [Context.scan, same, alike.registry, alike_after.registry]

end Context
end LaunchTrace
