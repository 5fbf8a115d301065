import LaunchTrace.Proofs.Context.Refresh

/-! Which classes a context ends up with. A class is tried when it is registered, by the definitions registered before
it; a configuration is tried once more at the refresh, by all definitions registered until then. -/
namespace LaunchTrace

namespace ComponentDefinition

variable {d : ComponentDefinition} {env : Environment} {registry : Registry} {phase : Phase}

/-- All conditions are met that count in the phase: those that are bound to it and those that are bound to none. -/
def Meets (d : ComponentDefinition) (env : Environment) (registry : Registry) (phase : Phase) : Prop :=
  ∀ c ∈ d.conditions, c.phase = none ∨ c.phase = some phase → c.holds env registry d = true

theorem isSkipped_eq_false : d.isSkipped env registry phase = false ↔ d.Meets env registry phase := by
  simp [isSkipped, Meets, Condition.appliesIn]

instance : Decidable (d.Meets env registry phase) :=
  decidable_of_iff _ isSkipped_eq_false

end ComponentDefinition

/-- A class on its registration: what it would be registered as, and the registry that it is judged by. -/
structure Trial where
  registry : Registry
  definition : ComponentDefinition

namespace Trial

variable {t : Trial} {env : Environment} {settled : Registry}

/-- The class passes on its registration. -/
def Admitted (t : Trial) (env : Environment) : Prop :=
  t.definition.Meets env t.registry t.definition.kind.firstPhase

instance : Decidable (t.Admitted env) :=
  inferInstanceAs (Decidable (t.definition.Meets ..))

/-- The name that the class is registered under, if it is. -/
def name? (t : Trial) (env : Environment) : Option String :=
  if t.Admitted env then some t.definition.name else none

/-- What the class adds to the definitions: itself, or nothing. -/
def added (t : Trial) (env : Environment) : List ComponentDefinition :=
  if t.Admitted env then [t.definition] else []

/-- The registry that the next class is judged by. -/
def next (t : Trial) (env : Environment) : Registry :=
  { t.registry with definitions := t.registry.definitions ++ t.added env }

theorem flatMap_added (trials : List Trial) (env : Environment) :
    trials.flatMap (·.added env) = (trials.filter (·.Admitted env)).map (·.definition) := by
  induction trials with
  | nil => rfl
  | cons t rest ih =>
    rw [List.flatMap_cons, ih, added]
    split <;> rename_i passed <;> simp [passed]

theorem filterMap_name? (trials : List Trial) (env : Environment) :
    (trials.map (·.name? env)).filterMap id = (trials.filter (·.Admitted env)).map (·.definition.name) := by
  induction trials with
  | nil => rfl
  | cons t rest ih =>
    rw [List.map_cons, List.filterMap_cons, ih, name?]
    split <;> rename_i passed <;> split at passed <;> simp_all

/-- Plain components are judged once, by the conditions of registration. Configurations are judged by those of parsing
first, and by those of registration once the registry is settled. -/
def Kept (t : Trial) (env : Environment) (settled : Registry) : Prop :=
  match t.definition.kind with
  | .component => t.definition.Meets env t.registry .register
  | .configuration => t.definition.Meets env t.registry .parse ∧ t.definition.Meets env settled .register

instance : Decidable (t.Kept env settled) :=
  match kind : t.definition.kind with
  | .component => decidable_of_iff (t.definition.Meets env t.registry .register) (by simp only [Kept, kind])
  | .configuration =>
    decidable_of_iff (t.definition.Meets env t.registry .parse ∧ t.definition.Meets env settled .register)
      (by simp only [Kept, kind])

/-- Why a class cannot be registered. Those that their conditions keep out need nothing but a name. -/
inductive Refused (t : Trial) (env : Environment) (state : ContextState) : ContextError → Prop
  | unnamed (unnamed : t.definition.name = "") : Refused t env state (.invalidArgument .emptyComponentName)
  | closed (named : t.definition.name ≠ "") (admitted : t.Admitted env) (closed : state = .closed) :
    Refused t env state .closed
  | clash {existing : ComponentDefinition} (named : t.definition.name ≠ "") (admitted : t.Admitted env)
    (opened : state ≠ .closed) (taken : t.registry.get? t.definition.name = some existing)
    (other : existing.typeName ≠ t.definition.typeName) (off : t.registry.overriding = false) :
    Refused t env state (.duplicateComponent t.definition.name t.definition.typeName existing.typeName)

/-- The registry once the class has been registered, or has been kept out. -/
def taken (t : Trial) (env : Environment) : Registry :=
  if t.Admitted env then t.registry.put t.definition else t.registry

theorem taken_of_fresh (fresh : t.definition.name ∉ t.registry.names) : t.taken env = t.next env := by
  rw [taken, next, added]
  split
  · exact Registry.put_of_fresh fresh
  · rw [List.append_nil]

/-- A configuration that was admitted is kept unless it is removed at the refresh. -/
theorem kept_eq : decide (t.Kept env settled) = (decide (t.Admitted env) &&
    !(t.definition.isConfiguration && t.definition.isSkipped env settled .register)) := by
  rw [Bool.eq_iff_iff, decide_eq_true_eq]
  cases kind : t.definition.kind <;>
    simp [Kept, Admitted, ComponentDefinition.isConfiguration, kind, ComponentKind.firstPhase,
      ← ComponentDefinition.isSkipped_eq_false]

end Trial

/-- What happens to a class that is to be registered beside what is in the registry. -/
def trial (g : NameGenerator) (registry : Registry) (cls : ComponentClass) : Trial :=
  ⟨registry, cls.define (g.generate cls registry)⟩

/-- The trials of classes in their order, each with those before it registered that were admitted. -/
def trials (env : Environment) (g : NameGenerator) : Registry → List ComponentClass → List Trial
  | _, [] => []
  | registry, cls :: rest => trial g registry cls :: trials env g ((trial g registry cls).next env) rest

/-- Each class is judged by the registry that holds, of those before it, the admitted ones. -/
theorem trials_getElem? {env : Environment} {g : NameGenerator} {registry : Registry} {classes : List ComponentClass}
    {i : Nat} {cls : ComponentClass} (place : classes[i]? = some cls) :
    (trials env g registry classes)[i]? = some (trial g { registry with definitions :=
      registry.definitions ++ ((trials env g registry classes).take i).flatMap (·.added env) } cls) := by
  induction classes generalizing registry i with
  | nil => simp at place
  | cons first rest ih =>
    cases i with
    | zero =>
      obtain rfl : first = cls := by simpa using place
      simp [trials]
    | succ i =>
      rw [trials, List.getElem?_cons_succ, ih (by simpa using place), List.take_succ_cons, List.flatMap_cons,
        ← List.append_assoc]
      rfl

namespace Context

variable {c after : Context} {g : NameGenerator} {cls : ComponentClass} {classes : List ComponentClass}
  {name : Option String} {names : List (Option String)} {e : ContextError}

theorem registerClass_eq (c : Context) (g : NameGenerator) (cls : ComponentClass) :
    c.registerClass g cls =
      if (trial g c.registry cls).definition.name = "" then .error (.invalidArgument .emptyComponentName)
      else if (trial g c.registry cls).Admitted c.environment then
        (c.registerDefinition (trial g c.registry cls).definition).map fun after =>
          (some (trial g c.registry cls).definition.name, after)
      else .ok (none, c) := by
  unfold registerClass trial
  generalize cls.define (g.generate cls c.registry) = d
  have tried : d.isSkipped c.environment c.registry d.kind.firstPhase = false ↔
      Trial.Admitted ⟨c.registry, d⟩ c.environment := ComponentDefinition.isSkipped_eq_false
  dsimp only
  split
  · rfl
  · by_cases admitted : Trial.Admitted ⟨c.registry, d⟩ c.environment
    · rw [if_pos admitted, tried.mpr admitted]
      rfl
    · have out : d.isSkipped c.environment c.registry d.kind.firstPhase = true := by
        simpa using tried.not.mpr admitted
      rw [if_neg admitted, out]
      rfl

theorem registerClass_eq_error : c.registerClass g cls = .error e ↔
    (trial g c.registry cls).Refused c.environment c.state e := by
  rw [registerClass_eq]
  generalize same : trial g c.registry cls = t
  have registry : t.registry = c.registry := by rw [← same]; rfl
  constructor
  · intro failed
    split at failed
    · rename_i unnamed
      obtain rfl := Except.error.inj failed
      exact .unnamed unnamed
    · rename_i named
      split at failed
      · rename_i admitted
        unfold registerDefinition at failed
        split at failed
        · rename_i closed
          obtain rfl := Except.error.inj failed
          exact .closed named admitted closed
        · rename_i opened
          cases registered : c.registry.register t.definition with
          | ok registry =>
            rw [registered] at failed
            cases failed
          | error fault =>
            rw [registered] at failed
            obtain rfl := Except.error.inj failed
            obtain ⟨existing, taken, other, off, rfl⟩ := Registry.register_eq_error.mp registered
            exact .clash named admitted opened (registry ▸ taken) other (registry ▸ off)
      · cases failed
  · intro refused
    cases refused with
    | unnamed unnamed => rw [if_pos unnamed]
    | closed named admitted closed =>
      rw [if_neg named, if_pos admitted, registerDefinition, if_pos closed]
      rfl
    | clash named admitted opened taken other off =>
      have clash := Registry.register_eq_error.mpr ⟨_, registry ▸ taken, other, registry ▸ off, rfl⟩
      rw [if_neg named, if_pos admitted, registerDefinition, if_neg opened, clash]
      rfl

/-- What is not refused is registered, unless a condition keeps it out. -/
theorem registerClass_taken (accepted : ∀ e, ¬ (trial g c.registry cls).Refused c.environment c.state e) :
    c.registerClass g cls = .ok ((trial g c.registry cls).name? c.environment,
      { c with registry := (trial g c.registry cls).taken c.environment }) := by
  have named : (trial g c.registry cls).definition.name ≠ "" := fun unnamed => accepted _ (.unnamed unnamed)
  rw [registerClass_eq, if_neg named, Trial.name?, Trial.taken]
  by_cases admitted : (trial g c.registry cls).Admitted c.environment
  · have opened : c.state ≠ .closed := fun closed => accepted _ (.closed named admitted closed)
    rw [if_pos admitted, if_pos admitted, if_pos admitted, registerDefinition, if_neg opened]
    cases registered : c.registry.register (trial g c.registry cls).definition with
    | error fault =>
      obtain ⟨existing, taken, other, off, -⟩ := Registry.register_eq_error.mp registered
      exact absurd (.clash named admitted opened taken other off) (accepted _)
    | ok registry =>
      obtain rfl := Registry.register_ok registered
      rfl
  · rw [if_neg admitted, if_neg admitted, if_neg admitted]
    rfl

/-- A class whose name is free is registered if its conditions let it in. -/
theorem registerClass_ok (registered : c.registerClass g cls = .ok (name, after))
    (fresh : (trial g c.registry cls).definition.name ∉ c.registry.names) :
    after = { c with registry := (trial g c.registry cls).next c.environment } ∧
      name = (trial g c.registry cls).name? c.environment := by
  have accepted : ∀ e, ¬ (trial g c.registry cls).Refused c.environment c.state e := by
    intro e refused
    rw [registerClass_eq_error.mpr refused] at registered
    contradiction
  rw [registerClass_taken accepted, Trial.taken_of_fresh fresh] at registered
  obtain ⟨rfl, rfl⟩ := Prod.mk.inj (Except.ok.inj registered)
  exact ⟨rfl, rfl⟩

theorem registerEach_ok (registered : registerEach g classes c = (.ok names, after))
    (distinct : (c.registry.names ++ (trials c.environment g c.registry classes).map (·.definition.name)).Nodup) :
    after = { c with registry := { c.registry with
      definitions := c.registry.definitions ++
        (trials c.environment g c.registry classes).flatMap (·.added c.environment) } } ∧
      names = (trials c.environment g c.registry classes).map (·.name? c.environment) := by
  induction classes generalizing c names with
  | nil =>
    obtain ⟨done, rfl⟩ := Prod.mk.inj registered
    simp [trials, ← Except.ok.inj done]
  | cons cls rest ih =>
    unfold registerEach at registered
    split at registered
    · cases (Prod.mk.inj registered).1
    · rename_i name middle first
      rw [trials] at distinct ⊢
      have fresh : (trial g c.registry cls).definition.name ∉ c.registry.names :=
        fun member => List.disjoint_of_nodup_append distinct member List.mem_cons_self
      obtain ⟨rfl, rfl⟩ := registerClass_ok first fresh
      generalize run : registerEach g rest _ = last at registered
      obtain ⟨outcome, last⟩ := last
      cases outcome with
      | error e => cases (Prod.mk.inj registered).1
      | ok others =>
        obtain ⟨done, rfl⟩ := Prod.mk.inj registered
        -- Whether or not the class was let in, the names behind it are still free.
        have later : ((trial g c.registry cls).next c.environment).names.Sublist
            (c.registry.names ++ [(trial g c.registry cls).definition.name]) := by
          simp only [Trial.next, Trial.added, Registry.names, List.map_append]
          refine List.Sublist.append_left ?_ _
          split
          · exact List.Sublist.refl _
          · exact List.nil_sublist _
        obtain ⟨rfl, rfl⟩ := ih run (distinct.sublist (by
          simpa only [List.append_assoc, List.singleton_append, List.map_cons] using later.append_right _))
        refine ⟨?_, (Except.ok.inj done).symm⟩
        simp only [List.flatMap_cons, ← List.append_assoc]
        rfl

end Context

namespace AnnotatedContext

def trials (a : AnnotatedContext) (classes : List ComponentClass) : List Trial :=
  LaunchTrace.trials a.context.environment a.generator a.context.registry classes

variable {a b after : AnnotatedContext} {classes : List ComponentClass} {names : List String} {now : Timestamp}
  {s t u v : Startup}

theorem register_ok (registered : a.register classes s = ((.ok names, b), t)) :
    ∃ found context, Context.registerEach a.generator classes a.context = (.ok found, context) ∧
      names = found.filterMap id ∧ b = { a with context } := by
  unfold register at registered
  split at registered
  · cases (Prod.mk.inj (Prod.mk.inj registered).1).1
  · obtain ⟨done, rfl⟩ := Prod.mk.inj (Prod.mk.inj registered).1
    generalize Context.registerEach a.generator classes a.context = found at done ⊢
    obtain ⟨outcome, context⟩ := found
    cases outcome with
    | error e => cases done
    | ok found => exact ⟨found, context, rfl, (Except.ok.inj done).symm, rfl⟩

theorem refresh_ok (refreshed : a.refresh now s = ((.ok (), after), t)) :
    after.context = { a.context.removeSkipped with startedAt := some now, state := .active } := by
  have whole : (Application.annotated a).refresh now s = ((.ok (), .annotated after), t) := by
    rw [Application.refresh, refreshed]
  exact congrArg Application.context (Application.refresh_ok whole)

/-- After classes have been registered in a fresh context and the context has been refreshed, those classes are left,
in their order, that passed: plain components on their registration, configurations then and at the refresh. -/
theorem register_refresh_names (fresh : a.context.registry.definitions = [])
    (distinct : ((a.trials classes).map (·.definition.name)).Nodup)
    (registered : a.register classes s = ((.ok names, b), t)) (refreshed : b.refresh now u = ((.ok (), after), v)) :
    (∀ i cls, classes[i]? = some cls → (a.trials classes)[i]? =
      some (trial a.generator { a.context.registry with definitions :=
        (((a.trials classes).take i).filter (·.Admitted a.context.environment)).map (·.definition) } cls)) ∧
    names = ((a.trials classes).filter (·.Admitted a.context.environment)).map (·.definition.name) ∧
    b.context.registry.definitions =
      ((a.trials classes).filter (·.Admitted a.context.environment)).map (·.definition) ∧
    after.context.registry.definitions =
      ((a.trials classes).filter (·.Kept a.context.environment b.context.registry)).map (·.definition) ∧
    after.context.registry.names =
      ((a.trials classes).filter (·.Kept a.context.environment b.context.registry)).map (·.definition.name) := by
  obtain ⟨found, context, run, rfl, rfl⟩ := register_ok registered
  have free : (a.context.registry.names ++ (a.trials classes).map (·.definition.name)).Nodup := by
    rw [Registry.names, fresh, List.map_nil, List.nil_append]
    exact distinct
  obtain ⟨same, rfl⟩ := Context.registerEach_ok run free
  have unchanged : context.environment = a.context.environment := by rw [same]
  have settled : context.registry.definitions =
      ((a.trials classes).filter (·.Admitted a.context.environment)).map (·.definition) := by
    rw [← Trial.flatMap_added, same]
    exact (congrArg (· ++ _) fresh).trans (List.nil_append _)
  have apart : context.registry.names.Nodup := by
    rw [Registry.names, settled, List.map_map]
    exact distinct.sublist (List.filter_sublist.map _)
  have kept : after.context.registry.definitions =
      ((a.trials classes).filter (·.Kept a.context.environment context.registry)).map (·.definition) := by
    rw [refresh_ok refreshed, Context.removeSkipped_eq apart]
    simp only [settled, unchanged, List.filter_map, List.filter_filter]
    congr 1
    apply List.filter_congr
    intro t _
    rw [Function.comp_apply, Bool.and_comm, Trial.kept_eq]
  refine ⟨?_, ?_, settled, kept, ?_⟩
  · intro i cls place
    rw [trials, trials_getElem? place, ← Trial.flatMap_added, fresh, List.nil_append]
  · exact Trial.filterMap_name? _ _
  · rw [Registry.names, kept, List.map_map]
    rfl

/-- Four classes are looked at once and two twice. Of the plain ones `fallback` is let in before `index` is there, and
`spare` is kept out by `store`; of the configurations `cache` finds `index` at the refresh, and `audit` has to go. -/
def mixed : List ComponentClass :=
  let named (kind : ComponentKind) (name : String) (conditions : List Condition) : ComponentClass :=
    { ComponentClass.plain kind name with name := some name, conditions }
  [named .component "store" [⟨some .parse, .profile ["test"]⟩],
    named .configuration "cache" [⟨some .register, .component "index" true⟩, ⟨none, .profile ["default"]⟩],
    named .configuration "audit" [⟨none, .profile ["!test"]⟩, ⟨some .register, .component "store" false⟩],
    named .component "fallback" [⟨some .register, .component "index" false⟩],
    named .component "index" [
      ⟨none, .custom fun _ registry d => d.kind = .component && registry.definitions.length = 4⟩],
    named .component "spare" [⟨some .register, .component "store" false⟩]]

def bare : AnnotatedContext :=
  ⟨.create "app" .empty, .short, .empty⟩

theorem mixed_names :
    (((bare.register mixed .off).1.2.refresh (.ofEpoch 0 0) .off).1.2).context.registry.names =
      ["store", "cache", "fallback", "index"] := by
  have registered : bare.register mixed .off =
    ((.ok ["store", "cache", "audit", "fallback", "index"], (bare.register mixed .off).1.2), .off) := rfl
  have refreshed : (bare.register mixed .off).1.2.refresh (.ofEpoch 0 0) .off =
    ((.ok (), ((bare.register mixed .off).1.2.refresh (.ofEpoch 0 0) .off).1.2), .off) := rfl
  obtain ⟨_, _, _, _, names⟩ := register_refresh_names rfl (by decide +kernel) registered refreshed
  rw [names]
  decide +kernel

end AnnotatedContext
end LaunchTrace
