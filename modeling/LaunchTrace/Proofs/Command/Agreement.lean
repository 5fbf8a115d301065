import LaunchTrace.Command.Run
import LaunchTrace.Proofs.Command.Boot
import LaunchTrace.Proofs.Context.Alike
import LaunchTrace.Proofs.Environment.Sources

/-! Booting with and without a path to serve the context under. The two contexts differ in kind, in their environments
and in what a refresh registers beside the components, none of which the components of a boot can tell. -/
namespace LaunchTrace

/-! ## Environments -/

namespace Environment

theorem standard_distinct (v : Variables) : (standard v).names.Nodup :=
  List.nodup_singleton _

/-- The sources that a container will supply are empty so far. -/
theorem standard_agrees_servlet (v : Variables) : (standard v).Agrees (servlet v) where
  properties := by
    intro key
    have config : servletConfigSource ∉ ((standard v).addFirst ⟨servletContextSource, .empty⟩).names := by
      simp [names, standard, addFirst, addLast, remove, empty, servletConfigSource, servletContextSource,
        variablesSource]
    have context : servletContextSource ∉ (standard v).names := by
      simp [names, standard, addLast, remove, empty, servletContextSource, variablesSource]
    rw [servlet, get?_addFirst (addFirst_distinct (standard_distinct v) _), without_absent config,
      get?_addFirst (standard_distinct v), without_absent context]
    rfl
  explicitProfiles := rfl
  defaultProfiles := rfl

theorem resolve_servlet (path : String) (v : Variables) :
    WebContext.initPropertySources (some ⟨path, .empty, none⟩) (servlet v) = servlet v := by
  simp [WebContext.initPropertySources, replace, servlet, standard, addFirst, addLast, remove, empty,
    servletConfigSource, servletContextSource, variablesSource]

end Environment

/-! ## Contexts -/

theorem ComponentClass.plain_outward (kind : ComponentKind) (typeName : String) : (plain kind typeName).Outward :=
  fun _ member => absurd member List.not_mem_nil

theorem CatalogEntry.toClass_outward (e : CatalogEntry) : e.toClass.Outward := by
  intro c member
  rcases List.mem_append.mp member with property | profile
  · obtain ⟨key, _, rfl⟩ := by simpa using property
    trivial
  · split at profile
    · contradiction
    · obtain rfl := List.mem_singleton.mp profile
      trivial

theorem Catalog.candidates_outward (catalog : Catalog) (package : String) :
    ∀ cls ∈ catalog.candidates package, cls.Outward := by
  intro cls member
  obtain ⟨e, _, rfl⟩ := List.mem_map.mp member
  exact e.toClass_outward

namespace BootOptions

theorem classes_outward (o : BootOptions) : ∀ cls ∈ o.classes, cls.Outward := by
  intro cls member
  rcases List.mem_append.mp member with configuration | component
  · obtain ⟨typeName, _, rfl⟩ := List.mem_map.mp configuration
    exact ComponentClass.plain_outward _ _
  · obtain ⟨typeName, _, rfl⟩ := List.mem_map.mp component
    exact ComponentClass.plain_outward _ _

end BootOptions

namespace Boot

variable {o : BootOptions} {catalog : Catalog} {c d : Context}

theorem registered_alike (alike : c.Alike d) (o : BootOptions) :
    Concur Context.Alike (registered o c) (registered o d) := by
  obtain ⟨same, alike⟩ := alike.registerEach (g := .short) o.classes_outward
  unfold registered
  rw [same]
  cases (Context.registerEach .short o.classes c).1 with
  | error e => exact .error e
  | ok names => exact .ok alike

theorem scanned_alike (alike : c.Alike d) (o : BootOptions) (catalog : Catalog) :
    Concur Context.Alike (scanned o catalog c) (scanned o catalog d) := by
  have outward : ∀ package, ∀ cls ∈ (catalog : Scanner).find package, cls.Outward := catalog.candidates_outward
  obtain ⟨same, alike⟩ := alike.scan (g := .short) outward o.packages
  unfold scanned
  rw [same]
  cases (c.scan .short catalog o.packages).1 with
  | error e => exact .error e
  | ok added => exact .ok alike

/-- No condition of a boot looks at the registry, so contexts that are alike are filled alike. -/
theorem filled_alike (alike : c.Alike d) (o : BootOptions) (catalog : Catalog) :
    Concur Context.Alike (filled o catalog c) (filled o catalog d) :=
  (registered_alike alike o).bind fun _ _ _ _ next => scanned_alike next o catalog

end Boot

namespace Application

variable {app other : Application} {c d : Context}

/-- A refresh keeps those components that no condition turns away. -/
theorem refreshed_definitions (distinct : c.registry.names.Nodup) (now : Timestamp) :
    (app.refreshed now c).registry.definitions = c.registry.definitions.filter fun d =>
      !(d.isConfiguration && d.isSkipped (app.resolve c.environment) (app.prepare c.registry) .register) := by
  rw [refreshed, app.removeSkipped_prepared distinct]

/-- A refresh does the same to contexts that are alike, if they stay so once the hooks have been at work. -/
theorem refreshed_alike (alike : c.Alike d) (distinct : c.registry.names.Nodup)
    (agrees : (app.resolve c.environment).Agrees (other.resolve d.environment)) (now later : Timestamp) :
    (other.refreshed later d).registry.definitions = (app.refreshed now c).registry.definitions := by
  rw [refreshed_definitions distinct, refreshed_definitions (alike.registry ▸ distinct), alike.registry]
  apply List.filter_congr
  intro e member
  rw [ComponentDefinition.isSkipped_agrees (alike.outward e member) agrees (app.prepare c.registry)]

end Application

namespace BootOptions

/-- The applications of two boots, one without a path to serve under and one with it. -/
structure Paired (id other path : String) (app served : Application) : Prop where
  id : app.context.id = id
  unnamed : app.name = ""
  other : served.context.id = other
  named : served.name = path
  definitions : served.context.registry.definitions = app.context.registry.definitions

/-- With a path or without, a boot comes to the same components. -/
theorem booted_agrees (o : BootOptions) (path : String) (s : Surroundings) (clock : Clock) (contextId : String)
    (catalog : Catalog) :
    Concur (Paired s.contextId contextId path) ({ o with webPath := none }.booted s catalog)
      ({ o with webPath := some path }.booted { s with clock, contextId } catalog) := by
  let first := { o with webPath := none }.application s catalog
  let second := { o with webPath := some path }.application { s with clock, contextId } catalog
  have alike : first.context.Alike second.context :=
    ⟨Environment.standard_agrees_servlet s.vars, rfl, rfl, fun _ member => absurd member List.not_mem_nil⟩
  refine (Boot.filled_alike alike o catalog).map fun after later full too alike => ?_
  have filled := Boot.filled_filled full
  have distinct : after.registry.names.Nodup := filled.distinct List.nodup_nil
  obtain ⟨_, rfl⟩ := filled.frame
  obtain ⟨_, rfl⟩ := (Boot.filled_filled too).frame
  refine ⟨rfl, rfl, rfl, rfl, Application.refreshed_alike alike distinct ?_ _ _⟩
  change (Environment.standard s.vars).Agrees
    (WebContext.initPropertySources (some ⟨path, .empty, none⟩) (.servlet s.vars))
  rw [Environment.resolve_servlet]
  exact Environment.standard_agrees_servlet s.vars

end BootOptions

/-- A boot with a path to serve the context under and one without either fail alike or both succeed, and then they
print the same components, however many readings the clock gave to each and whatever the contexts are called. -/
theorem Request.run_boot_agrees (o : BootOptions) (path : String) (s : Surroundings) (clock : Clock)
    (contextId : String) :
    let plain := (Request.boot { o with webPath := none }).run s
    let web := (Request.boot { o with webPath := some path }).run { s with clock, contextId }
    (∃ e, plain.error = some e ∧ web.error = some e) ∨
      plain.error = none ∧ web.error = none ∧ ∃ names rest others,
        plain.printed = "context " ++ s.contextId ++ " refreshed\n" ++ Boot.componentsLine names ++ rest ∧
        web.printed = "context " ++ contextId ++ " refreshed\n" ++ Boot.nameLine path ++ Boot.componentsLine names
          ++ others := by
  intro plain web
  cases prepared : { o with webPath := none }.prepared s with
  | error e =>
    have too : { o with webPath := some path }.prepared { s with clock, contextId } = .error e := prepared
    refine .inl ⟨e, ?_, ?_⟩
    · exact congrArg Outcome.error (BootOptions.run_unprepared prepared)
    · exact congrArg Outcome.error (BootOptions.run_unprepared too)
  | ok made =>
    obtain ⟨catalog, file, files⟩ := made
    have too : { o with webPath := some path }.prepared { s with clock, contextId } = .ok (catalog, file, files) :=
      prepared
    rcases o.booted_agrees path s clock contextId catalog with
      ⟨e, failed, alike⟩ | ⟨app, served, done, alike, paired⟩
    · exact .inl ⟨_, BootOptions.run_failed prepared failed, BootOptions.run_failed too alike⟩
    · -- Both files are closed with the same success.
      have last : web.error = plain.error :=
        (BootOptions.run_error too alike).trans (BootOptions.run_error prepared done).symm
      cases outcome : plain.error with
      | some e => exact .inl ⟨e, rfl, last.trans outcome⟩
      | none =>
        obtain ⟨rest, printed⟩ := BootOptions.run_printed prepared done
        obtain ⟨others, shown⟩ := BootOptions.run_printed too alike
        have names : served.context.registry.names = app.context.registry.names := by
          rw [Registry.names, paired.definitions, Registry.names]
        have nameless : Boot.nameLine "" = "" := if_pos rfl
        rw [Boot.heading, paired.id, paired.unnamed, nameless, String.append_empty, String.append_assoc] at printed
        rw [Boot.heading, paired.other, paired.named, names, String.append_assoc] at shown
        exact .inr ⟨rfl, last.trans outcome, _, _, _, printed, shown⟩

end LaunchTrace
