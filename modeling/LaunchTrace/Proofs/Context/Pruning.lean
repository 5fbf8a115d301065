import LaunchTrace.Proofs.Context.Filling
import LaunchTrace.Proofs.Context.Registration

/-! Refreshing contexts that hold the same, filled in different orders. A refresh judges all configurations by the
registry as it is before the first of them is removed. So the order has no say in what is removed, however the
configurations wait for each other or keep each other out. -/
namespace LaunchTrace

/-- Two registries show the same to conditions, up to the order. -/
structure RegistryView.Reordered (v w : RegistryView) : Prop where
  definitions : v.definitions.Perm w.definitions
  singletons : v.singletons.Perm w.singletons
  scopes : v.scopes.Perm w.scopes

namespace Registry

/-- Two registries hold the same, up to the order in which it was registered. -/
structure Reordered (r other : Registry) : Prop where
  definitions : r.definitions.Perm other.definitions
  singletons : r.singletons.Perm other.singletons
  scopes : r.scopes.Perm other.scopes

variable {r other : Registry}

theorem isSome_singleton? {name : String} : (r.singleton? name).isSome = true ↔ name ∈ r.singletons.map (·.1) := by
  rw [singleton?, List.lookup_isSome_iff, List.mem_map]
  refine exists_congr fun entry => and_congr_right fun _ => ?_
  rw [beq_iff_eq, eq_comm]

namespace Reordered

theorem view (same : r.Reordered other) : r.view.Reordered other.view :=
  ⟨same.definitions.map _, same.singletons, same.scopes⟩

theorem names (same : r.Reordered other) : r.names.Perm other.names :=
  same.definitions.map _

theorem contains (same : r.Reordered other) (name : String) : r.contains name = other.contains name := by
  rw [Bool.eq_iff_iff, Registry.contains, Registry.contains, Bool.or_eq_true, Bool.or_eq_true, isSome_get?,
    isSome_get?, isSome_singleton?, isSome_singleton?, same.names.mem_iff, (same.singletons.map _).mem_iff]

theorem registerScope (same : r.Reordered other) (scope : String) :
    (r.registerScope scope).Reordered (other.registerScope scope) := by
  unfold Registry.registerScope
  by_cases known : scope ∈ r.scopes
  · rw [if_pos known, if_pos (same.scopes.mem_iff.mp known)]
    exact same
  · rw [if_neg known, if_neg (same.scopes.mem_iff.not.mp known)]
    exact ⟨same.definitions, same.singletons, same.scopes.append_right _⟩

theorem registerSingleton (same : r.Reordered other) (name description : String) :
    (r.registerSingleton name description).Reordered (other.registerSingleton name description) := by
  have alike : (r.singleton? name).isSome = (other.singleton? name).isSome := by
    rw [Bool.eq_iff_iff, isSome_singleton?, isSome_singleton?, (same.singletons.map _).mem_iff]
  unfold Registry.registerSingleton
  rw [alike]
  split
  · exact ⟨same.definitions, same.singletons.map _, same.scopes⟩
  · exact ⟨same.definitions, same.singletons.append_right _, same.scopes⟩

end Reordered
end Registry

/-- The answer does not depend on the order in which a registry was filled. The library's own questions look for one
name in it at most; what a program asks by itself sees all of it, and has to leave the order alone. -/
def Question.Orderless : Question → Prop
  | .custom answer => ∀ env d (v w : RegistryView), v.Reordered w → answer env v d = answer env w d
  | _ => True

theorem Question.Orderless.holds {q : Question} {r other : Registry} (orderless : q.Orderless)
    (same : r.Reordered other) (env : Environment) (d : ComponentDefinition) :
    q.holds env r d = q.holds env other d := by
  cases q with
  | property | profile => rfl
  | component name present => rw [Question.holds, Question.holds, same.contains]
  | custom answer => exact orderless env d.view r.view other.view same.view

namespace ComponentDefinition

variable {d : ComponentDefinition} {r other : Registry} {phase : Phase}

/-- No condition that counts in the phase depends on the order. -/
def Orderless (d : ComponentDefinition) (phase : Phase) : Prop :=
  ∀ c ∈ d.conditions, c.phase = none ∨ c.phase = some phase → c.question.Orderless

theorem Orderless.meets (orderless : d.Orderless phase) (same : r.Reordered other) (env : Environment) :
    d.Meets env r phase ↔ d.Meets env other phase := by
  apply forall₃_congr
  intro c listed counts
  rw [Condition.holds, Condition.holds, (orderless c listed counts).holds same]

end ComponentDefinition

namespace Application

/-- A refresh removes the definition: it is a configuration, and some condition is not met in the registry that holds
all definitions and what the refresh itself brings in. -/
def Prunes (app : Application) (d : ComponentDefinition) : Prop :=
  d.isConfiguration = true ∧ ¬ d.Meets (app.resolve app.context.environment) (app.prepare app.context.registry) .register

instance (app : Application) : DecidablePred app.Prunes :=
  fun _ => inferInstanceAs (Decidable (_ ∧ _))

variable {app other after done : Application} {now later : Timestamp} {s t u v : Startup}

theorem prunes_iff {d : ComponentDefinition} : app.Prunes d ↔ (d.isConfiguration &&
    d.isSkipped (app.resolve app.context.environment) (app.prepare app.context.registry) .register) = true := by
  rw [Prunes, ← ComponentDefinition.isSkipped_eq_false, Bool.not_eq_false, Bool.and_eq_true]

/-- A refresh that succeeds takes out what it judges to be kept out, all at once. -/
theorem refresh_registry (distinct : app.context.registry.names.Nodup)
    (refreshed : app.refresh now s = ((.ok (), after), t)) :
    after.context.registry = { app.prepare app.context.registry with
      definitions := app.context.registry.definitions.filter fun d => ¬ app.Prunes d } := by
  rw [refresh_ok refreshed, withContext_context]
  dsimp only
  rw [app.removeSkipped_prepared distinct]
  simp only [prunes_iff, decide_not, Bool.decide_eq_true]

/-- Hooks that are the same do the same. -/
theorem prepared_of_hooks (alike : other.hooks = app.hooks) :
    other.resolve = app.resolve ∧ other.prepare = app.prepare := by
  have mine := app.hooks_smooth
  have its := other.hooks_smooth
  rw [alike] at its
  refine ⟨funext fun env => ?_, funext fun registry => ?_⟩
  · exact congrArg (·.2.1) ((its.init env).symm.trans (mine.init env))
  · exact congrArg (·.2.1) ((its.post registry).symm.trans (mine.post registry))

theorem prepare_reordered {r r' : Registry} (same : r.Reordered r') (app : Application) :
    (app.prepare r).Reordered (app.prepare r') := by
  cases app with
  | generic | annotated => exact same
  | web w =>
    have web := (same.registerScope "request").registerScope "session"
    simp only [prepare, WebContext.registerWeb]
    split
    · exact web
    · exact ((web.registerScope _).registerSingleton _ _).registerSingleton _ _

/-- Contexts of one kind, if of the web then in the same servlet context, that hold the same in whatever order lose the
same definitions at a refresh. Only configurations are lost, each judged by what its context held before any was, and
the others keep their order. Names are distinct in a registry after any run of operations. -/
theorem refresh_reordered (alike : other.hooks = app.hooks)
    (environments : other.context.environment = app.context.environment)
    (reordered : app.context.registry.Reordered other.context.registry)
    (distinct : app.context.registry.names.Nodup)
    (orderless : ∀ d ∈ app.context.registry.definitions, d.isConfiguration = true → d.Orderless .register)
    (refreshed : app.refresh now s = ((.ok (), after), t)) (again : other.refresh later u = ((.ok (), done), v)) :
    (∀ name, name ∈ app.context.registry.names ∧ name ∉ after.context.registry.names ↔
      name ∈ other.context.registry.names ∧ name ∉ done.context.registry.names) ∧
    after.context.registry.definitions = app.context.registry.definitions.filter (fun d => ¬ app.Prunes d) ∧
    done.context.registry.definitions = other.context.registry.definitions.filter (fun d => ¬ other.Prunes d) ∧
    (∀ d ∈ app.context.registry.definitions, app.Prunes d ↔ other.Prunes d) ∧
    after.context.registry.Reordered done.context.registry := by
  obtain ⟨resolve, prepare⟩ := prepared_of_hooks alike
  have whole := prepare_reordered reordered app
  have judged : ∀ d ∈ app.context.registry.definitions, app.Prunes d ↔ other.Prunes d := by
    intro d member
    simp only [Prunes, resolve, prepare, environments]
    apply and_congr_right
    intro configuration
    exact not_congr ((orderless d member configuration).meets whole _)
  have left := refresh_registry distinct refreshed
  have right := refresh_registry (reordered.names.nodup_iff.mp distinct) again
  have still : after.context.registry.Reordered done.context.registry := by
    rw [left, right, prepare]
    refine ⟨?_, whole.singletons, whole.scopes⟩
    have agree : app.context.registry.definitions.filter (fun d => ¬ app.Prunes d) =
        app.context.registry.definitions.filter (fun d => ¬ other.Prunes d) :=
      List.filter_congr fun d member => decide_eq_decide.mpr (not_congr (judged d member))
    exact agree ▸ reordered.definitions.filter _
  refine ⟨fun name => ?_, congrArg _ left, congrArg _ right, judged, still⟩
  rw [reordered.names.mem_iff, still.names.mem_iff]

/-- Configurations that hang together. Each of `left` and `right` is there only without the other, so both are lost, and
`beside` stays since it is judged before. Along `third`, `second`, `first` only what waits for the absent `zeroth` is
lost. The container is there for `served`, but not for `bare`, and a plain component is not judged again. -/
def linked : List ComponentDefinition :=
  let named (kind : ComponentKind) (name : String) (question : Question) : ComponentDefinition :=
    ⟨name, "app." ++ name, kind, singletonScope, [⟨some .register, question⟩]⟩
  [named .configuration "left" (.component "right" false), named .configuration "right" (.component "left" false),
    named .configuration "beside" (.component "left" true), named .configuration "third" (.component "second" true),
    named .configuration "second" (.component "first" true), named .configuration "first" (.component "zeroth" true),
    named .configuration "served" (.component "servletContext" true),
    named .configuration "bare" (.component "servletContext" false),
    named .configuration "counted" (.custom fun _ registry _ => registry.definitions.length = 10),
    named .component "plain" (.component "left" false)]

def shop (registry : Registry) : Application :=
  .web ⟨{ Context.create "shop" .empty with registry }, some ⟨"/shop", .empty, none⟩⟩

/-- The one program that asks by itself counts definitions, whatever their order. -/
theorem linked_orderless : ∀ d ∈ linked, d.Orderless .register := by
  have counted (env : Environment) (d : ComponentView) (v w : RegistryView) (same : v.Reordered w) :
      decide (v.definitions.length = 10) = decide (w.definitions.length = 10) := by
    rw [same.definitions.length_eq]
  simpa [linked, ComponentDefinition.Orderless, Question.Orderless] using counted

theorem linked_reordered :
    let forth := shop ⟨linked, [("clock", "utc"), ("locale", "en")], ["tenant", "job"], false⟩
    let back := shop ⟨linked.reverse, [("locale", "en"), ("clock", "utc")], ["job", "tenant"], false⟩
    let after := (forth.refresh (.ofEpoch 0 0) .off).1.2.context.registry
    let done := (back.refresh (.ofEpoch 0 0) .off).1.2.context.registry
    after.names = ["beside", "third", "second", "served", "counted", "plain"] ∧
      done.names = ["plain", "counted", "served", "second", "third", "beside"] ∧
      ∀ name, name ∈ forth.context.registry.names ∧ name ∉ after.names ↔
        name ∈ back.context.registry.names ∧ name ∉ done.names := by
  intro forth back after done
  have refreshed : forth.refresh (.ofEpoch 0 0) .off =
    ((.ok (), (forth.refresh (.ofEpoch 0 0) .off).1.2), (forth.refresh (.ofEpoch 0 0) .off).2) := rfl
  have again : back.refresh (.ofEpoch 0 0) .off =
    ((.ok (), (back.refresh (.ofEpoch 0 0) .off).1.2), (back.refresh (.ofEpoch 0 0) .off).2) := rfl
  have reordered : forth.context.registry.Reordered back.context.registry :=
    ⟨(List.reverse_perm _).symm, .swap .., .swap ..⟩
  have orderless : ∀ d ∈ forth.context.registry.definitions, d.isConfiguration = true → d.Orderless .register :=
    fun d member _ => linked_orderless d member
  have alike : back.hooks = forth.hooks := rfl
  obtain ⟨lost, left, right, _⟩ :=
    refresh_reordered alike rfl reordered (by decide +kernel) orderless refreshed again
  refine ⟨?_, ?_, lost⟩
  · rw [Registry.names, left]
    decide +kernel
  · rw [Registry.names, right]
    decide +kernel

end Application
end LaunchTrace
