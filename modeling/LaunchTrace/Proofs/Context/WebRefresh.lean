import LaunchTrace.Proofs.Context.Pruning
import LaunchTrace.Proofs.Environment.Sources

/-! Refreshing a web context. The parameters of the servlet context take the place that is kept for them among the
property sources, then the required properties are asked for, then what stands for the container is registered, and only
then are configurations judged. -/
namespace LaunchTrace

namespace Environment

/-- The parameters are what the source of the name holds, if there is one, and nothing else has changed. -/
structure Filled (name : String) (parameters : Properties) (before after : Environment) : Prop where
  names : after.names = before.names
  own : ∀ source ∈ after.sources, source.name = name → source.properties = parameters
  others : ∀ (i : Nat) (source : PropertySource), before.sources[i]? = some source → source.name ≠ name →
    after.sources[i]? = some source
  aside : after = { before with sources := after.sources }

variable {before after : Environment} {name key : String} {parameters : Properties} {source : PropertySource}

theorem replace_filled (env : Environment) (source : PropertySource) :
    Filled source.name source.properties env (env.replace source).2 := by
  constructor
  · exact Keyed.keys_replace
  · intro placed member same
    obtain ⟨old, _, rfl⟩ := List.mem_map.mp member
    split at same
    · rename_i replaced
      rw [if_pos replaced]
    · contradiction
  · intro i old found other
    rw [replace, List.getElem?_map, found, Option.map_some, if_neg other]
  · rfl

namespace Filled

/-- Nothing is shown but the parameters and what was there before. -/
theorem mem (filled : Filled name parameters before after) (member : source ∈ after.sources) :
    source.name = name ∧ source.properties = parameters ∨ source.name ≠ name ∧ source ∈ before.sources := by
  by_cases same : source.name = name
  · exact .inl ⟨same, filled.own source member same⟩
  · obtain ⟨i, found⟩ := List.getElem?_of_mem member
    -- The source that was in this place had the same name, so it was left alone.
    have place : before.sources[i]?.map (·.name) = some source.name := by
      rw [← List.getElem?_map, ← Environment.names, ← filled.names, Environment.names, List.getElem?_map, found,
        Option.map_some]
    obtain ⟨old, there, sameName⟩ := Option.map_eq_some_iff.mp place
    have left : after.sources[i]? = some old := filled.others i old there (sameName ▸ same)
    obtain rfl := Option.some.inj (left.symm.trans found)
    exact .inr ⟨same, List.mem_of_getElem? there⟩

/-- A source that is there is found with the parameters. -/
theorem source_mem (filled : Filled name parameters before after) (placed : name ∈ before.names) :
    ∃ source ∈ after.sources, source.properties = parameters := by
  obtain ⟨source, member, same⟩ := List.mem_map.mp (filled.names ▸ placed)
  exact ⟨source, member, filled.own source member same⟩

theorem contains (filled : Filled name parameters before after) (placed : name ∈ before.names)
    (given : (parameters.get? key).isSome = true) : after.contains key = true := by
  obtain ⟨source, member, rfl⟩ := filled.source_mem placed
  rw [Environment.contains, get?, List.findSome?_isSome_iff]
  exact ⟨source, member, given⟩

/-- A property that no other source has is what the parameters make it. -/
theorem get?_of_absent (filled : Filled name parameters before after) (placed : name ∈ before.names)
    (absent : ∀ source ∈ before.sources, source.name ≠ name → source.properties.get? key = none) :
    after.get? key = parameters.get? key := by
  have answer : ∀ source ∈ after.sources, source.properties.get? key = none ∨
      source.properties.get? key = parameters.get? key := by
    intro source member
    obtain ⟨_, same⟩ | ⟨other, old⟩ := filled.mem member
    · exact .inr (by rw [same])
    · exact .inl (absent source old other)
  cases found : after.get? key with
  | some value =>
    obtain ⟨source, member, given⟩ := List.exists_of_findSome?_eq_some found
    obtain none | same := answer source member
    · rw [none] at given
      contradiction
    · rw [← same, given]
  | none =>
    obtain ⟨source, member, rfl⟩ := filled.source_mem placed
    exact (List.findSome?_eq_none_iff.mp found source member).symm

end Filled

theorem missing_eq_nil {env : Environment} : env.missing = [] ↔ ∀ key ∈ env.required, env.contains key = true := by
  simp only [missing, List.filter_eq_nil_iff, Bool.not_eq_true', Bool.not_eq_false]

end Environment

namespace Registry

variable {r : Registry} {name description other : String}

/-- A singleton that is registered is there beside those before. -/
theorem mem_registerSingleton : other ∈ (r.registerSingleton name description).singletons.map (·.1) ↔
    other = name ∨ other ∈ r.singletons.map (·.1) := by
  unfold registerSingleton
  split
  · rename_i known
    have same : (r.singletons.map fun s => if s.1 = name then (name, description) else s).map (·.1) =
      r.singletons.map (·.1) := Keyed.keys_replace (a := (name, description))
    rw [same, or_iff_right_of_imp]
    rintro rfl
    exact isSome_singleton?.mp known
  · rw [List.map_append, List.mem_append, List.map_singleton, List.mem_singleton, or_comm]

theorem contains_of_singleton (there : name ∈ r.singletons.map (·.1)) : r.contains name = true := by
  rw [contains, isSome_singleton?.mpr there, Bool.or_true]

end Registry

namespace WebContext

variable {w after : WebContext} {outcome : Except ContextError Unit} {now : Timestamp} {s t : Startup}

theorem initPropertySources_filled (servlet : ServletContext) (env : Environment) :
    Environment.Filled Environment.servletContextSource servlet.parameters env
      (initPropertySources (some servlet) env) :=
  Environment.replace_filled env ⟨Environment.servletContextSource, servlet.parameters⟩

theorem initPropertySources_required (servlet : Option ServletContext) (env : Environment) :
    (initPropertySources servlet env).required = env.required := by
  cases servlet <;> rfl

/-- In a servlet context the container is registered. -/
theorem registerWeb_contains (servlet : ServletContext) (registry : Registry) :
    (registerWeb (some servlet) registry).contains "servletContext" = true := by
  apply Registry.contains_of_singleton
  rw [registerWeb, Registry.mem_registerSingleton, Registry.mem_registerSingleton]
  exact .inr (.inl rfl)

/-- A refresh as a whole. The sources are seen to first, whatever comes of it. What is missing after that ends it before
anything is registered, and nothing else does. Then a configuration stays if its conditions are met by that environment
and by a registry with all definitions and what the web brings in. Names are distinct in a registry after any run of
operations. -/
structure Refreshed (w : WebContext) (outcome : Except ContextError Unit) (after : WebContext) : Prop where
  filled : ∀ servlet, w.servlet = some servlet → Environment.Filled Environment.servletContextSource
    servlet.parameters w.context.environment after.context.environment
  untouched : w.servlet = none → after.context.environment = w.context.environment
  validated : outcome = .ok () ↔
    ∀ key ∈ w.context.environment.required, after.context.environment.contains key = true
  refused : ∀ e, outcome = .error e →
    e = .missingRequiredProperties after.context.environment.missing ∧ after.context.registry = w.context.registry
  pruned : outcome = .ok () → w.context.registry.names.Nodup →
    after.context.registry = { registerWeb w.servlet w.context.registry with
      definitions := w.context.registry.definitions.filter fun d => ¬ (d.isConfiguration = true ∧
        ¬ d.Meets after.context.environment (registerWeb w.servlet w.context.registry) .register) }

/-- What a refresh comes to is settled as soon as the sources are seen to. -/
theorem refresh_checked (created : w.context.state = .created) (refreshed : w.refresh now s = ((outcome, after), t)) :
    after.context.environment = initPropertySources w.servlet w.context.environment ∧
      outcome = Context.checkRequired after.context.environment ∧
      ∀ e, outcome = .error e → after.context.registry = w.context.registry := by
  have fresh : (Application.web w).context.state = .created := created
  have result : ((Application.web w).refresh now s).1 = (outcome, .web after) := by
    rw [Application.refresh, refreshed]
  by_cases complete : (initPropertySources w.servlet w.context.environment).missing = []
  · rw [Application.refresh_of_complete fresh complete] at result
    obtain ⟨rfl, same⟩ := Prod.mk.inj result
    obtain rfl := Application.web.inj same
    refine ⟨rfl, (if_pos complete).symm, fun e failed => ?_⟩
    contradiction
  · rw [Application.refresh_of_missing fresh complete] at result
    obtain ⟨rfl, same⟩ := Prod.mk.inj result
    obtain rfl := Application.web.inj same
    exact ⟨rfl, (if_neg complete).symm, fun _ _ => rfl⟩

theorem refresh_refreshed (created : w.context.state = .created)
    (refreshed : w.refresh now s = ((outcome, after), t)) : w.Refreshed outcome after := by
  obtain ⟨environment, checked, unregistered⟩ := refresh_checked created refreshed
  constructor
  case filled =>
    intro servlet served
    rw [environment, served]
    exact initPropertySources_filled servlet _
  case untouched =>
    intro unserved
    rw [environment, unserved, initPropertySources]
  case validated =>
    rw [← initPropertySources_required w.servlet, ← environment, ← Environment.missing_eq_nil, checked,
      Context.checkRequired]
    split
    · rename_i complete
      exact iff_of_true rfl complete
    · rename_i incomplete
      refine iff_of_false ?_ incomplete
      intro succeeded
      contradiction
  case refused =>
    intro e failed
    refine ⟨?_, unregistered e failed⟩
    rw [failed, Context.checkRequired] at checked
    split at checked
    · contradiction
    · exact Except.error.inj checked
  case pruned =>
    rintro rfl distinct
    have whole : (Application.web w).refresh now s = ((.ok (), .web after), t) := by
      rw [Application.refresh, refreshed]
    have apart : (Application.web w).context.registry.names.Nodup := distinct
    rw [environment]
    exact Application.refresh_registry apart whole

/-- The phases of a refresh come in their order, so that what an earlier one brings in counts in all later ones. A
parameter of the servlet context is found by whatever asks for a property, if the source for it is still there, and is
what is found if no other source has it; and what waits for the container is not kept out. -/
theorem refresh_phases (created : w.context.state = .created) (refreshed : w.refresh now s = ((outcome, after), t)) :
    w.Refreshed outcome after ∧
      ∀ servlet, w.servlet = some servlet →
        (Environment.servletContextSource ∈ w.context.environment.names → ∀ key,
          ((servlet.parameters.get? key).isSome = true → after.context.environment.contains key = true) ∧
          ((∀ source ∈ w.context.environment.sources, source.name ≠ Environment.servletContextSource →
            source.properties.get? key = none) →
              after.context.environment.get? key = servlet.parameters.get? key)) ∧
        ∀ (d : ComponentDefinition) (c : Condition), c.question = .component "servletContext" true →
          c.holds after.context.environment (registerWeb w.servlet w.context.registry) d = true := by
  have whole := refresh_refreshed created refreshed
  refine ⟨whole, fun servlet served => ⟨fun placed key => ?_, fun d c asks => ?_⟩⟩
  · have filled := whole.filled servlet served
    exact ⟨filled.contains placed, filled.get?_of_absent placed⟩
  · rw [Condition.holds, asks, served, Question.holds, registerWeb_contains]
    rfl

/-- A shop that needs a currency, which only the servlet context knows. One configuration waits for the container and
for that currency, and one is meant for shops without a container. -/
def shop (sources : List PropertySource) : WebContext :=
  let named (name : String) (conditions : List Condition) : ComponentDefinition :=
    ⟨name, "shop." ++ name, .configuration, singletonScope, conditions⟩
  let container (present : Bool) : Condition := ⟨some .register, .component "servletContext" present⟩
  ⟨{ Context.create "shop" { Environment.empty with sources, required := ["mode", "currency"] } with
      registry := ⟨[named "cart" [container true, ⟨none, .property "currency" (some "eur") false⟩],
        named "kiosk" [container false]], [], [], false⟩ },
    some ⟨"/shop", .ofList [("currency", "EUR"), ("mode", "demo")], none⟩⟩

/-- Where the source for the parameters has been moved behind another, that one hides a parameter; and where it has been
removed, the refresh stops before anything is registered. -/
theorem shop_phases :
    let file : PropertySource := ⟨"file", .ofList [("mode", "live")]⟩
    let moved := shop [file, ⟨Environment.servletContextSource, .ofList [("currency", "USD"), ("old", "yes")]⟩]
    let removed := shop [file]
    let opened := (moved.refresh (.ofEpoch 0 0) .off).1
    let stopped := (removed.refresh (.ofEpoch 0 0) .off).1
    (opened.1 = .ok () ∧ opened.2.context.environment.get? "currency" = some "EUR" ∧
      opened.2.context.environment.get? "mode" = some "live" ∧ opened.2.context.environment.get? "old" = none ∧
      opened.2.context.registry.names = ["cart"]) ∧
    stopped.1 = .error (.missingRequiredProperties ["currency"]) ∧
      stopped.2.context.registry.names = ["cart", "kiosk"] := by
  intro file moved removed opened stopped
  have run : moved.refresh (.ofEpoch 0 0) .off = ((opened.1, opened.2), (moved.refresh (.ofEpoch 0 0) .off).2) := rfl
  have halt : removed.refresh (.ofEpoch 0 0) .off =
    ((stopped.1, stopped.2), (removed.refresh (.ofEpoch 0 0) .off).2) := rfl
  obtain ⟨whole, reached⟩ := refresh_phases rfl run
  obtain ⟨broken, -⟩ := refresh_phases rfl halt
  have succeeded : opened.1 = .ok () := whole.validated.mpr (by decide +kernel)
  have failed : stopped.1 = .error (.missingRequiredProperties ["currency"]) := rfl
  refine ⟨⟨succeeded, ?_, by decide +kernel, by decide +kernel, ?_⟩, failed, ?_⟩
  · obtain ⟨found, -⟩ := reached _ rfl
    rw [(found (by decide +kernel) "currency").2 (by decide +kernel)]
    decide +kernel
  · rw [whole.pruned succeeded (by decide +kernel)]
    decide +kernel
  · rw [(broken.refused _ failed).2]
    rfl

end WebContext
end LaunchTrace
