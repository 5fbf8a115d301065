import LaunchTrace.Proofs.Component.Catalog
import LaunchTrace.Proofs.Context.Batch
import LaunchTrace.Proofs.Context.Filling

/-! What a scan adds to a registry in which no definition gives way to another: behind all that is there, of each type
that is new the first entry that matches. Whatever a scan has looked at is settled, so looking again adds nothing. -/
namespace LaunchTrace

namespace Registry

variable {r : Registry} {first second : List ComponentDefinition} {typeName : String}

/-- The registry with more definitions behind those it has. -/
def append (r : Registry) (definitions : List ComponentDefinition) : Registry :=
  { r with definitions := r.definitions ++ definitions }

@[simp]
theorem append_nil (r : Registry) : r.append [] = r := by
  rw [append, List.append_nil]

theorem append_append (r : Registry) (first second : List ComponentDefinition) :
    (r.append first).append second = r.append (first ++ second) := by
  simp only [append, List.append_assoc]

theorem containsType_append (r : Registry) (definitions : List ComponentDefinition) (typeName : String) :
    (r.append definitions).containsType typeName =
      (r.containsType typeName || definitions.any (·.typeName = typeName)) :=
  List.any_append

end Registry

/-- What an entry adds to a registry: a definition, if its type is new there and the environment has what it asks for. -/
def CatalogEntry.addition? (e : CatalogEntry) (env : Environment) (g : NameGenerator) (r : Registry) :
    Option ComponentDefinition :=
  if r.containsType e.typeName = false ∧ e.Matches env then some (e.toClass.define (g.generate e.toClass r)) else none

/-- What entries add one after the other, each to the registry that those before it have left. -/
def additions (env : Environment) (g : NameGenerator) : Registry → List CatalogEntry → List (Option ComponentDefinition)
  | _, [] => []
  | r, e :: rest => e.addition? env g r :: additions env g (r.append (e.addition? env g r).toList) rest

section Additions

variable {env : Environment} {g : NameGenerator} {r : Registry} {e : CatalogEntry} {entries : List CatalogEntry}
  {d : ComponentDefinition}

theorem additions_length (env : Environment) (g : NameGenerator) (r : Registry) (entries : List CatalogEntry) :
    (additions env g r entries).length = entries.length := by
  induction entries generalizing r with
  | nil => rfl
  | cons e rest ih => rw [additions, List.length_cons, ih, List.length_cons]

/-- Each entry is judged by what those before it have added. -/
theorem additions_getElem? {i : Nat} (place : entries[i]? = some e) : (additions env g r entries)[i]? =
    some (e.addition? env g (r.append (((additions env g r entries).take i).flatMap Option.toList))) := by
  induction entries generalizing r i with
  | nil => simp at place
  | cons first rest ih =>
    cases i with
    | zero =>
      obtain rfl : first = e := by simpa using place
      simp [additions]
    | succ i =>
      rw [additions, List.getElem?_cons_succ, ih (by simpa using place), List.take_succ_cons, List.flatMap_cons,
        Registry.append_append]

theorem type_new (added : e.addition? env g r = some d) : r.containsType d.typeName = false := by
  unfold CatalogEntry.addition? at added
  split at added
  · rename_i wanted
    obtain rfl := Option.some.inj added
    exact wanted.1
  · contradiction

/-- No type is added that is there, and none is added twice. -/
theorem additions_types (env : Environment) (g : NameGenerator) (r : Registry) (entries : List CatalogEntry) :
    (((additions env g r entries).flatMap Option.toList).map (·.typeName)).Nodup ∧
      ∀ d ∈ (additions env g r entries).flatMap Option.toList, r.containsType d.typeName = false := by
  induction entries generalizing r with
  | nil => exact ⟨List.nodup_nil, fun _ member => absurd member List.not_mem_nil⟩
  | cons e rest ih =>
    rw [additions, List.flatMap_cons]
    obtain ⟨distinct, new⟩ := ih (r.append (e.addition? env g r).toList)
    cases added : e.addition? env g r with
    | none =>
      rw [added] at distinct new
      simpa using And.intro distinct new
    | some d =>
      rw [added] at distinct new
      have later : ∀ other ∈ (additions env g (r.append [d]) rest).flatMap Option.toList,
          r.containsType other.typeName = false ∧ d.typeName ≠ other.typeName := by
        intro other member
        simpa [Registry.containsType_append] using new other member
      simp only [Option.toList_some, List.singleton_append, List.map_cons, List.nodup_cons, List.forall_mem_cons]
      refine ⟨⟨?_, distinct⟩, type_new added, fun other member => (later other member).1⟩
      intro again
      obtain ⟨other, member, same⟩ := List.mem_map.mp again
      exact (later other member).2 same.symm

end Additions

/-- Whether a class gets a name is not up to the components that are registered. A generator that made it so could have
no name left for a class that it has named before. -/
def NameGenerator.Steady (g : NameGenerator) : Prop :=
  ∀ cls r later, g.generate cls r ≠ "" → g.generate cls later ≠ ""

theorem NameGenerator.short_steady : short.Steady :=
  fun _ _ _ named => named

theorem NameGenerator.fullyQualified_steady : fullyQualified.Steady :=
  fun _ _ _ named => named

/-- Where no definition gives way to another, a class of a new type that is let in has a name that is free. -/
theorem Trial.fresh_of_accepted {t : Trial} {env : Environment} {state : ContextState}
    (accepted : ∀ e, ¬ t.Refused env state e) (admitted : t.Admitted env) (off : t.registry.overriding = false)
    (new : t.registry.containsType t.definition.typeName = false) : t.definition.name ∉ t.registry.names := by
  rw [← Registry.get?_eq_none]
  cases taken : t.registry.get? t.definition.name with
  | none => rfl
  | some existing =>
    have named : t.definition.name ≠ "" := fun unnamed => accepted _ (.unnamed unnamed)
    have opened : state ≠ .closed := fun closed => accepted _ (.closed named admitted closed)
    have other : existing.typeName ≠ t.definition.typeName := by
      have all := List.any_eq_false.mp new
      simpa using all existing (List.mem_of_find?_eq_some taken)
    exact absurd (.clash named admitted opened taken other off) (accepted _)

theorem CatalogEntry.admitted_iff (e : CatalogEntry) (g : NameGenerator) (r : Registry) (env : Environment) :
    (trial g r e.toClass).Admitted env ↔ e.Matches env := by
  rw [← e.conditions_hold env r (trial g r e.toClass).definition]
  constructor
  · intro admitted c member
    exact admitted c member (.inl (conditions_phase member))
  · intro all c member _
    exact all c member

namespace Batch

variable {b : Batch} {r : Registry} {e : CatalogEntry} {entries : List CatalogEntry} {cls : ComponentClass}
  {classes : List ComponentClass}

/-- An entry that is not refused leaves behind what it adds. -/
theorem next_toClass (scans : b.onlyNew = true) (off : r.overriding = false)
    (accepted : ∀ fault, ¬ b.Refuses r e.toClass fault) :
    b.next r e.toClass = r.append (e.addition? b.environment b.generator r).toList := by
  unfold next CatalogEntry.addition?
  cases known : r.containsType e.typeName with
  | true => simp [PassesOver, scans, CatalogEntry.toClass, known]
  | false =>
    have looked : ¬ b.PassesOver r e.toClass := by simp [PassesOver, CatalogEntry.toClass, known]
    rw [if_neg looked, Trial.taken]
    by_cases admitted : (trial b.generator r e.toClass).Admitted b.environment
    · have free := Trial.fresh_of_accepted (fun fault refused => accepted fault ⟨looked, refused⟩) admitted off known
      rw [if_pos admitted, if_pos ⟨rfl, (e.admitted_iff ..).mp admitted⟩]
      exact Registry.put_of_fresh free
    · have out : ¬ e.Matches b.environment := fun matched => admitted ((e.admitted_iff ..).mpr matched)
      rw [if_neg admitted, if_neg fun wanted => out wanted.2, Option.toList_none, Registry.append_nil]
      rfl

theorem after_toClass (scans : b.onlyNew = true) (off : r.overriding = false)
    (takes : b.Takes r (entries.map (·.toClass))) : b.after r (entries.map (·.toClass)) =
      r.append ((additions b.environment b.generator r entries).flatMap Option.toList) := by
  induction entries generalizing r with
  | nil => exact r.append_nil.symm
  | cons e rest ih =>
    obtain ⟨accepted, takes⟩ := takes
    have next := next_toClass scans off accepted
    rw [next] at takes
    rw [List.map_cons, after, List.foldl_cons, next, additions, List.flatMap_cons, ← Registry.append_append]
    exact ih off takes

/-- Looking at the class again would change nothing: it is passed over, or else it has a name but is kept out. -/
def Settles (b : Batch) (r : Registry) (cls : ComponentClass) : Prop :=
  b.PassesOver r cls ∨
    (trial b.generator r cls).definition.name ≠ "" ∧ ¬ (trial b.generator r cls).Admitted b.environment

theorem Settles.next (settled : b.Settles r cls) : (∀ fault, ¬ b.Refuses r cls fault) ∧ b.next r cls = r := by
  unfold Batch.next
  rcases settled with passes | ⟨named, out⟩
  · exact ⟨fun _ refused => refused.1 passes, if_pos passes⟩
  · refine ⟨fun fault refused => ?_, ?_⟩
    · cases refused.2 with
      | unnamed unnamed => exact named unnamed
      | closed _ admitted => exact out admitted
      | clash _ admitted => exact out admitted
    · rw [Trial.taken, if_neg out]
      exact ite_self _

theorem takes_of_settled (settled : ∀ cls ∈ classes, b.Settles r cls) : b.Takes r classes ∧ b.after r classes = r := by
  induction classes with
  | nil => exact ⟨trivial, rfl⟩
  | cons cls rest ih =>
    obtain ⟨accepted, same⟩ := (settled cls List.mem_cons_self).next
    obtain ⟨takes, last⟩ := ih fun other member => settled other (List.mem_cons_of_mem _ member)
    refine ⟨⟨accepted, same.symm ▸ takes⟩, ?_⟩
    rw [after, List.foldl_cons, same]
    exact last

/-- A registered type stays registered. -/
theorem containsType_after (scans : b.onlyNew = true) (off : r.overriding = false)
    (takes : b.Takes r (entries.map (·.toClass))) {typeName : String} (known : r.containsType typeName = true) :
    (b.after r (entries.map (·.toClass))).containsType typeName = true := by
  rw [after_toClass scans off takes, Registry.containsType_append, known, Bool.true_or]

/-- Entries that were taken are settled afterwards. -/
theorem settles_after (scans : b.onlyNew = true) (steady : b.generator.Steady) (off : r.overriding = false)
    (takes : b.Takes r (entries.map (·.toClass))) (member : e ∈ entries) :
    b.Settles (b.after r (entries.map (·.toClass))) e.toClass := by
  induction entries generalizing r with
  | nil => contradiction
  | cons first rest ih =>
    obtain ⟨accepted, takes⟩ := takes
    have next := next_toClass scans off accepted
    have still : (b.next r first.toClass).overriding = false := by
      rw [next]
      exact off
    rcases List.mem_cons.mp member with rfl | later
    · by_cases known : (b.next r e.toClass).containsType e.typeName = true
      · exact .inl ⟨scans, containsType_after scans still takes known⟩
      · -- It was looked at, and since its type is not registered, its conditions kept it out.
        obtain ⟨new, out⟩ : ¬ b.PassesOver r e.toClass ∧ ¬ e.Matches b.environment := by
          rw [next, Registry.containsType_append, Bool.or_eq_true, not_or, Bool.not_eq_true] at known
          refine ⟨fun passes => Bool.false_ne_true (known.1.symm.trans passes.2), fun matched => known.2 ?_⟩
          rw [CatalogEntry.addition?, if_pos ⟨known.1, matched⟩]
          simp [ComponentClass.define, CatalogEntry.toClass]
        have named : b.generator.generate e.toClass r ≠ "" := fun unnamed => accepted _ ⟨new, .unnamed unnamed⟩
        exact .inr ⟨steady _ _ _ named, fun admitted => out ((e.admitted_iff ..).mp admitted)⟩
    · exact ih still takes later

end Batch

namespace Context

variable {c after : Context} {g : NameGenerator} {scanner : Scanner} {packages : List String} {n : Nat}

theorem scan_eq (c : Context) (g : NameGenerator) (scanner : Scanner) (packages : List String) :
    c.scan g scanner packages =
      ((takeIn g true (packages.flatMap scanner.find) c).1.map fun _ =>
          (takeIn g true (packages.flatMap scanner.find) c).2.registry.size - c.registry.size,
        (takeIn g true (packages.flatMap scanner.find) c).2) := rfl

theorem scan_ok (scanned : c.scan g scanner packages = (.ok n, after)) :
    takeIn g true (packages.flatMap scanner.find) c = (.ok (), after) ∧
      n = after.registry.size - c.registry.size := by
  rw [scan_eq] at scanned
  obtain ⟨counted, same⟩ := Prod.mk.inj scanned
  cases outcome : (takeIn g true (packages.flatMap scanner.find) c).1 with
  | error e =>
    rw [outcome] at counted
    cases counted
  | ok _ =>
    rw [outcome, same] at counted
    exact ⟨Prod.ext outcome same, (Except.ok.inj counted).symm⟩

end Context

namespace Application

variable {app after : Application} {g : NameGenerator} {given : Scanner} {packages again : List String} {n : Nat}
  {s : Startup} {catalog : Catalog}

theorem scan_fst (app : Application) (g : NameGenerator) (given : Scanner) (some : packages ≠ []) (s : Startup) :
    (app.scan g given packages s).1 =
      ((app.context.scan (app.generator g) (app.scanner given) packages).1,
        app.withContext (app.context.scan (app.generator g) (app.scanner given) packages).2) :=
  Prod.ext (app.scan_outcome g given some s) (app.scan_after g given packages s)

theorem scan_ok (scanned : (app.scan g given packages s).1 = (.ok n, after)) :
    app.context.scan (app.generator g) (app.scanner given) packages = (.ok n, after.context) ∧
      after = app.withContext after.context := by
  have direct : (app.scan g given packages s).1 =
      ((app.context.scan (app.generator g) (app.scanner given) packages).1,
        app.withContext (app.context.scan (app.generator g) (app.scanner given) packages).2) := by
    by_cases none : packages = []
    · subst none
      cases app with
      | annotated a => cases (Prod.mk.inj scanned).1
      | generic c => rfl
      | web w => rfl
    · exact app.scan_fst g given none s
  obtain ⟨counted, left⟩ := Prod.mk.inj (direct.symm.trans scanned)
  rw [← left, withContext_context]
  exact ⟨Prod.ext counted rfl, rfl⟩

/-! ## What is added -/

/-- Whatever packages are scanned and however often they come up, the registry grows at its end only: by each entry
below them whose type is not there when its turn comes and which matches the environment. -/
theorem scan_appends (catalogued : app.scanner given = catalog) (off : app.context.registry.overriding = false)
    (scanned : (app.scan g given packages s).1 = (.ok n, after)) :
    let registry := app.context.registry
    let environment := app.context.environment
    let entries := catalog.below packages
    let added := additions environment (app.generator g) registry entries
    let definitions := added.flatMap Option.toList
    after = app.withContext { app.context with registry := registry.append definitions } ∧
      n = definitions.length ∧ added.length = entries.length ∧
      (∀ i (e : CatalogEntry), entries[i]? = some e → added[i]? = some (e.addition? environment (app.generator g)
        (registry.append ((added.take i).flatMap Option.toList)))) ∧
      (definitions.map (·.typeName)).Nodup ∧ ∀ d ∈ definitions, registry.containsType d.typeName = false := by
  intro registry environment entries added definitions
  obtain ⟨inner, same⟩ := scan_ok scanned
  rw [catalogued] at inner
  obtain ⟨taken, counted⟩ := Context.scan_ok inner
  rw [catalog.flatMap_candidates] at taken
  obtain ⟨takes, left⟩ := Context.takeIn_ok taken
  have grown := Batch.after_toClass (b := app.context.batch (app.generator g) true) rfl off takes
  rw [grown] at left
  obtain ⟨distinct, new⟩ := additions_types environment (app.generator g) registry entries
  refine ⟨by rw [same, left]; rfl, ?_, additions_length .., fun i e place => additions_getElem? place, distinct, new⟩
  rw [counted, left]
  exact (congrArg (· - _) (List.length_append ..)).trans (Nat.add_sub_cancel_left ..)

/-- Types that are listed again under other names and conditions, below packages that overlap. -/
def shelf : Catalog :=
  ⟨[⟨"app.web.Router", .component, some "first", none, some "routes", []⟩,
    ⟨"app.web.Router", .configuration, some "router", none, none, ["prod", "!test"]⟩,
    ⟨"app.Index", .component, none, none, none, []⟩,
    ⟨"app.Store", .component, none, none, none, []⟩,
    ⟨"app.web.Router", .component, some "last", none, none, []⟩,
    ⟨"apps.Other", .component, none, none, none, []⟩]⟩

/-- A context that scans the shelf, with a component that it lists. -/
def librarian : Application :=
  .annotated ⟨{ Context.create "app" .empty with
    registry := ⟨[⟨"main", "app.Index", .component, singletonScope, []⟩], [], [], false⟩ }, .short, shelf⟩

theorem librarian_catalogued : librarian.scanner .empty = shelf := rfl

theorem overlapping_appends :
    (librarian.scan .short .empty ["app.web", "app", "app::"] .off).1.1 = .ok 2 ∧
      (librarian.scan .short .empty ["app.web", "app", "app::"] .off).1.2.context.registry.names =
        ["main", "router", "store"] := by
  have scanned : (librarian.scan .short .empty ["app.web", "app", "app::"] .off).1 =
    (.ok 2, (librarian.scan .short .empty ["app.web", "app", "app::"] .off).1.2) := rfl
  obtain ⟨same, _⟩ := scan_appends librarian_catalogued rfl scanned
  refine ⟨congrArg Prod.fst scanned, ?_⟩
  rw [same, withContext_context]
  decide +kernel

/-! ## Scanning again -/

@[simp]
theorem generator_withContext (app : Application) (c : Context) :
    (app.withContext c).generator g = app.generator g := by
  cases app <;> rfl

@[simp]
theorem scanner_withContext (app : Application) (c : Context) :
    (app.withContext c).scanner given = app.scanner given := by
  cases app <;> rfl

/-- After a scan, looking below the same packages or parts of them finds nothing new, as long as registry and
environment are those that the scan left. -/
theorem scan_again (catalogued : app.scanner given = catalog) (steady : (app.generator g).Steady)
    (off : app.context.registry.overriding = false) (scanned : (app.scan g given packages s).1 = (.ok n, after))
    {c : Context} (registry : c.registry = after.context.registry)
    (environment : c.environment = after.context.environment) (some : again ≠ [])
    (inside : ∀ inner ∈ again, ∃ outer ∈ packages, SubPackage inner outer) (t : Startup) :
    ((after.withContext c).scan g given again t).1 = (.ok 0, after.withContext c) := by
  obtain ⟨inner, same⟩ := scan_ok scanned
  rw [catalogued] at inner
  obtain ⟨taken, -⟩ := Context.scan_ok inner
  rw [catalog.flatMap_candidates] at taken
  obtain ⟨takes, left⟩ := Context.takeIn_ok taken
  have unchanged : c.environment = app.context.environment := by rw [environment, left]
  have settled : ∀ cls ∈ again.flatMap catalog.candidates, (c.batch (app.generator g) true).Settles c.registry cls := by
    intro cls member
    rw [catalog.flatMap_candidates] at member
    obtain ⟨e, found, rfl⟩ := List.mem_map.mp member
    obtain ⟨package, asked, listed, under⟩ := Catalog.mem_below.mp found
    obtain ⟨wider, first, sub⟩ := inside package asked
    have before : e ∈ catalog.below packages :=
      Catalog.mem_below.mpr ⟨wider, first, listed, CatalogEntry.isUnder_of_subPackage sub under⟩
    have then_ := Batch.settles_after (b := app.context.batch (app.generator g) true) rfl steady off takes before
    rw [registry, left]
    simpa only [Batch.Settles, Batch.PassesOver, Context.batch, unchanged] using then_
  obtain ⟨takes_again, still⟩ := Batch.takes_of_settled settled
  have quiet := Context.takeIn_takes takes_again
  rw [still] at quiet
  have outcome : c.scan (app.generator g) catalog again = (.ok 0, c) := by
    rw [Context.scan_eq, quiet]
    exact congrArg (fun added => (Except.ok added, c)) (Nat.sub_self _)
  rw [same, withContext_withContext, scan_fst _ _ _ some, withContext_context, generator_withContext,
    scanner_withContext, catalogued, outcome, withContext_withContext]

/-- Closing the context in between makes no difference, since nothing is left to register. -/
theorem nested_again :
    let after := (librarian.scan .short .empty ["app"] .off).1.2
    after.context.registry.names = ["main", "router", "store"] ∧
      (after.close.scan .short .empty ["app::web.", "app", "app..web:"] .off).1 = (.ok 0, after.close) := by
  intro after
  have scanned : (librarian.scan .short .empty ["app"] .off).1 = (.ok 2, after) := rfl
  have inside : ∀ inner ∈ ["app::web.", "app", "app..web:"], ∃ outer ∈ ["app"], SubPackage inner outer := by
    intro inner member
    refine ⟨"app", List.mem_singleton_self _, ?_⟩
    simp only [List.mem_cons, List.not_mem_nil, or_false] at member
    rcases member with rfl | rfl | rfl
    · exact .inr ⟨by decide, by decide, "web.", .inr rfl⟩
    · exact .inl rfl
    · exact .inr ⟨by decide, by decide, ".web:", .inl rfl⟩
  have steady : (librarian.generator .short).Steady := NameGenerator.short_steady
  exact ⟨by decide +kernel, scan_again librarian_catalogued steady rfl scanned (c := after.context.close) rfl rfl
    (List.cons_ne_nil _ _) inside .off⟩

end Application
end LaunchTrace
