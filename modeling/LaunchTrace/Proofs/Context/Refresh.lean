import LaunchTrace.Proofs.Component.Registry
import LaunchTrace.Proofs.Context.Independence

/-! What a refresh makes of a context whose hooks cannot fail. The hooks that come with each kind of context are such
hooks: they replace a property source and register scopes and singletons at most. -/
namespace LaunchTrace

/-- The result of a phase is that of its body. -/
theorem Startup.within_fst {α : Type} (s : Startup) (name : StepName) (before : List (String × String))
    (body : Startup → α × Startup) (after : α → List (String × String)) :
    (s.within name before body after).1 = (body (s.begin (σ := Unit) name).2).1 := rfl

namespace Context

/-- Hooks that change the environment and the registry, and go on. -/
structure RefreshHooks.Smooth (hooks : RefreshHooks Unit) (resolve : Environment → Environment)
    (prepare : Registry → Registry) : Prop where
  init : ∀ env, hooks.initPropertySources env () = (.ok (), resolve env, ())
  post : ∀ registry, hooks.postProcessRegistry registry () = (.ok (), prepare registry, ())
  last : ∀ registry, hooks.onRefresh registry () = (.ok (), ())

variable {hooks : RefreshHooks Unit} {resolve : Environment → Environment} {prepare : Registry → Registry}
  {c : Context}

/-- The context by which conditions are judged at a refresh. -/
def prepared (c : Context) (resolve : Environment → Environment) (prepare : Registry → Registry) : Context :=
  { c with environment := resolve c.environment, registry := prepare c.registry }

/-- Those configurations are removed that some condition keeps out by what the registry holds before. -/
theorem removeSkipped_eq (distinct : c.registry.names.Nodup) :
    c.removeSkipped = { c with registry := { c.registry with
      definitions := c.registry.definitions.filter fun d =>
        !(d.isConfiguration && d.isSkipped c.environment c.registry .register) } } := by
  rw [removeSkipped, Registry.removeAll_eq distinct]
  congr 2
  apply List.filter_congr
  intro d member
  rw [Bool.eq_iff_iff, decide_eq_true_eq, Bool.not_eq_true', Bool.eq_false_iff]
  apply not_congr
  rw [skippedNames, List.mem_map]
  constructor
  · rintro ⟨e, skipped, same⟩
    obtain ⟨other, out⟩ := List.mem_filter.mp skipped
    obtain rfl := List.inj_on_of_nodup_map distinct other member same
    exact out
  · intro out
    exact ⟨d, List.mem_filter.mpr ⟨member, out⟩, rfl⟩

/-- The names of the configurations that are kept out are those that are gone afterwards. -/
theorem skippedNames_eq (distinct : c.registry.names.Nodup) :
    c.skippedNames = c.registry.names.filter (· ∉ c.removeSkipped.registry.names) := by
  rw [removeSkipped_eq distinct, skippedNames, Registry.names, Registry.names, List.filter_map]
  congr 1
  apply List.filter_congr
  intro d member
  rw [Bool.eq_iff_iff, Function.comp_apply, decide_eq_true_eq, List.mem_map, not_exists]
  constructor
  · rintro out e ⟨kept, same⟩
    obtain ⟨other, kept⟩ := List.mem_filter.mp kept
    obtain rfl := List.inj_on_of_nodup_map distinct other member same
    simp [out] at kept
  · intro gone
    by_contra kept
    refine gone d ⟨List.mem_filter.mpr ⟨member, ?_⟩, rfl⟩
    rw [Bool.eq_false_iff.mpr kept]
    rfl

theorem runRefresh_of_missing (smooth : hooks.Smooth resolve prepare)
    (incomplete : (resolve c.environment).missing ≠ []) (s : Startup) :
    c.runRefresh hooks () s =
      (⟨.error (.missingRequiredProperties (resolve c.environment).missing),
        { c with environment := resolve c.environment }, ()⟩, s) := by
  simp only [runRefresh, smooth.init, checkRequired, if_neg incomplete]

theorem runRefresh_of_complete (smooth : hooks.Smooth resolve prepare)
    (complete : (resolve c.environment).missing = []) (s : Startup) :
    c.runRefresh hooks () s =
      (⟨.ok (), (c.prepared resolve prepare).removeSkipped, ()⟩,
        (s.within postProcessStep []
          (fun s =>
            (⟨.ok (c.prepared resolve prepare).skippedNames, (c.prepared resolve prepare).removeSkipped, ()⟩, s))
          skippedTags).2) := by
  simp only [runRefresh, smooth.init, checkRequired, if_pos complete, postProcess, smooth.post, Startup.within_fst,
    smooth.last]
  rfl

theorem refreshWith_of_created {ω : Type} (created : c.state = .created) (hooks : RefreshHooks ω) (w : ω)
    (now : Timestamp) (s : Startup) :
    c.refreshWith hooks w now s =
      s.within refreshStep []
        (fun s => (settle ({ c with startedAt := some now }.runRefresh hooks w s).1,
          ({ c with startedAt := some now }.runRefresh hooks w s).2)) refreshTags := by
  unfold refreshWith
  rw [created]

theorem refreshWith_of_missing (smooth : hooks.Smooth resolve prepare) (created : c.state = .created)
    (incomplete : (resolve c.environment).missing ≠ []) (now : Timestamp) (s : Startup) :
    (c.refreshWith hooks () now s).1 =
      ⟨.error (.missingRequiredProperties (resolve c.environment).missing),
        { c with environment := resolve c.environment, startedAt := some now, state := .failed }, ()⟩ := by
  rw [refreshWith_of_created created, Startup.within_fst,
    runRefresh_of_missing (c := { c with startedAt := some now }) smooth incomplete]
  rfl

theorem refreshWith_of_complete (smooth : hooks.Smooth resolve prepare) (created : c.state = .created)
    (complete : (resolve c.environment).missing = []) (now : Timestamp) (s : Startup) :
    (c.refreshWith hooks () now s).1 =
      ⟨.ok (), { (c.prepared resolve prepare).removeSkipped with startedAt := some now, state := .active }, ()⟩ := by
  rw [refreshWith_of_created created, Startup.within_fst,
    runRefresh_of_complete (c := { c with startedAt := some now }) smooth complete]
  rfl

theorem refreshWith_ok (smooth : hooks.Smooth resolve prepare) {now : Timestamp} {s : Startup}
    (succeeded : (c.refreshWith hooks () now s).1.outcome = .ok ()) :
    c.state = .created ∧ (resolve c.environment).missing = [] := by
  have created : c.state = .created := by
    unfold refreshWith at succeeded
    split at succeeded
    · cases succeeded
    · cases succeeded
    · cases succeeded
    · assumption
  refine ⟨created, ?_⟩
  by_contra incomplete
  rw [refreshWith_of_missing smooth created incomplete] at succeeded
  cases succeeded

end Context

namespace Application

/-- The hooks that a refresh of the application runs. -/
def hooks : Application → Context.RefreshHooks Unit
  | .web w => WebContext.hooks w.servlet
  | _ => .none

def resolve : Application → Environment → Environment
  | .web w => WebContext.initPropertySources w.servlet
  | _ => id

def prepare : Application → Registry → Registry
  | .web w => WebContext.registerWeb w.servlet
  | _ => id

theorem hooks_smooth (app : Application) : app.hooks.Smooth app.resolve app.prepare := by
  cases app <;> exact ⟨fun _ => rfl, fun _ => rfl, fun _ => rfl⟩

theorem prepare_definitions (app : Application) (registry : Registry) :
    (app.prepare registry).definitions = registry.definitions := by
  cases app with
  | web w =>
    simp only [prepare, WebContext.registerWeb]
    split <;> simp only [Registry.registerScope_definitions, Registry.registerSingleton_definitions]
  | _ => rfl

theorem prepare_names (app : Application) (registry : Registry) : (app.prepare registry).names = registry.names := by
  rw [Registry.names, prepare_definitions, Registry.names]

/-- What the hooks have changed matters to what is removed, but they touch no definitions. -/
theorem removeSkipped_prepared (app : Application) {c : Context} (distinct : c.registry.names.Nodup) :
    (c.prepared app.resolve app.prepare).removeSkipped.registry = { app.prepare c.registry with
      definitions := c.registry.definitions.filter fun d =>
        !(d.isConfiguration && d.isSkipped (app.resolve c.environment) (app.prepare c.registry) .register) } := by
  have prepared : (c.prepared app.resolve app.prepare).registry.names.Nodup := by
    rw [Context.prepared, prepare_names]
    exact distinct
  rw [Context.removeSkipped_eq prepared, Context.prepared, prepare_definitions]

theorem refresh_eq (app : Application) (now : Timestamp) (s : Startup) :
    app.refresh now s =
      (((app.context.refreshWith app.hooks () now s).1.outcome,
        app.withContext (app.context.refreshWith app.hooks () now s).1.context),
        (app.context.refreshWith app.hooks () now s).2) := by
  cases app <;> rfl

variable {app : Application}

theorem refresh_of_missing (created : app.context.state = .created)
    (incomplete : (app.resolve app.context.environment).missing ≠ []) (now : Timestamp) (s : Startup) :
    (app.refresh now s).1 =
      (.error (.missingRequiredProperties (app.resolve app.context.environment).missing),
        app.withContext { app.context with
          environment := app.resolve app.context.environment, startedAt := some now, state := .failed }) := by
  rw [refresh_eq, Context.refreshWith_of_missing app.hooks_smooth created incomplete]

theorem refresh_of_complete (created : app.context.state = .created)
    (complete : (app.resolve app.context.environment).missing = []) (now : Timestamp) (s : Startup) :
    (app.refresh now s).1 =
      (.ok (), app.withContext { (app.context.prepared app.resolve app.prepare).removeSkipped with
        startedAt := some now, state := .active }) := by
  rw [refresh_eq, Context.refreshWith_of_complete app.hooks_smooth created complete]

theorem refresh_ok {after : Application} {now : Timestamp} {s t : Startup}
    (refreshed : app.refresh now s = ((.ok (), after), t)) :
    after = app.withContext { (app.context.prepared app.resolve app.prepare).removeSkipped with
      startedAt := some now, state := .active } := by
  have result : (app.refresh now s).1 = (.ok (), after) := congrArg Prod.fst refreshed
  have succeeded : (app.context.refreshWith app.hooks () now s).1.outcome = .ok () := by
    rw [refresh_eq] at result
    exact congrArg Prod.fst result
  obtain ⟨created, complete⟩ := Context.refreshWith_ok app.hooks_smooth succeeded
  rw [refresh_of_complete created complete] at result
  exact (congrArg Prod.snd result).symm

end Application
end LaunchTrace
