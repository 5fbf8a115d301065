import LaunchTrace.Proofs.Context.Batch
import LaunchTrace.Proofs.Context.RefreshEvents
import LaunchTrace.Proofs.Except
import LaunchTrace.Proofs.Startup.Handing

/-! Calls that fail halfway. What came before the class that was refused stays registered, and the step of the call ends
as it does on success. -/
namespace LaunchTrace

/-- A call has made one step of its own between the startups: a flight that records has been given one event with the
tags, and has the same steps open as before. No step is told from the root once the ids have come round. -/
def Startup.Notes (s t : Startup) (name : String) (tags : List (String × String)) : Prop :=
  ∀ f, s = .recording f → f.isRecording = true → f.current + 1 ≠ rootId →
    ∃ g e, t = .recording g ∧ g.openSteps.snapshot = f.openSteps.snapshot ∧ f.Handed g [e] ∧
      e.outline = ⟨f.current + 1, f.openSteps.head, name, Tag.listing tags⟩

theorem Startup.within_notes {α : Type} {s t : Startup} {name : StepName} {tags : List (String × String)}
    {result made : α} (ran : s.within name tags (fun s => (result, s)) (fun _ => []) = (made, t)) :
    result = made ∧ s.Notes t name.text tags := by
  refine ⟨congrArg Prod.fst ran, ?_⟩
  rintro f rfl asked fresh
  obtain ⟨g, e, alone, opened, handed, outline⟩ := within_alone asked fresh name tags result fun _ => []
  refine ⟨g, e, (congrArg Prod.snd ran).symm.trans (congrArg Prod.snd alone), by rw [opened], handed, ?_⟩
  rw [outline, List.append_nil]

namespace AnnotatedContext

/-- The batch has stopped at the first class that is refused. What it leaves is what it would have made of the classes
before that one alone. -/
def BrokeOff (a b : AnnotatedContext) (onlyNew : Bool) (classes : List ComponentClass) (e : ContextError) : Prop :=
  ∃ before cls rest, classes = before ++ cls :: rest ∧
    (a.context.batch a.generator onlyNew).BreaksOff a.context.registry before cls e ∧
    Context.takeIn a.generator onlyNew before a.context = (.ok (), b.context) ∧
    b = { a with context := { a.context with
      registry := (a.context.batch a.generator onlyNew).after a.context.registry before } }

variable {a b : AnnotatedContext} {classes : List ComponentClass} {packages : List String} {e : ContextError}
  {s t : Startup} {onlyNew : Bool} {c : Context}

theorem brokeOff_of_takeIn (failed : Context.takeIn a.generator onlyNew classes a.context = (.error e, c)) :
    a.BrokeOff { a with context := c } onlyNew classes e := by
  obtain ⟨before, cls, rest, rfl, broken, rfl⟩ := Context.takeIn_error failed
  exact ⟨before, cls, rest, rfl, broken, Context.takeIn_takes broken.1, rfl⟩

theorem register_failed (some : classes ≠ []) (failed : a.register classes s = ((.error e, b), t)) :
    a.BrokeOff b false classes e ∧
      s.Notes t "spring.context.component-classes.register" [("classes", listText (classes.map (·.typeName)))] := by
  rw [register, if_neg some] at failed
  obtain ⟨result, notes⟩ := Startup.within_notes failed
  obtain ⟨outcome, rfl⟩ := Prod.mk.inj result
  have stopped : Context.takeIn a.generator false classes a.context =
      (.error e, (Context.registerEach a.generator classes a.context).2) :=
    Prod.ext (congrArg (Except.map _) (error_of_map outcome)) rfl
  exact ⟨brokeOff_of_takeIn stopped, notes⟩

theorem scan_failed (some : packages ≠ []) (failed : a.scan packages s = ((.error e, b), t)) :
    a.BrokeOff b true (packages.flatMap a.scanner.find) e ∧
      s.Notes t "spring.context.base-packages.scan" [("packages", listText packages)] := by
  rw [scan, if_neg some] at failed
  obtain ⟨result, notes⟩ := Startup.within_notes failed
  obtain ⟨outcome, rfl⟩ := Prod.mk.inj result
  have stopped : Context.takeIn a.generator true (packages.flatMap a.scanner.find) a.context =
      (.error e, (Context.registerNew a.generator (packages.flatMap a.scanner.find) a.context).2) :=
    Prod.ext (error_of_map outcome) rfl
  exact ⟨brokeOff_of_takeIn stopped, notes⟩

/-- A call that fails leaves in the registry what the classes before the first that cannot be registered have left, and
nothing else; its step ends all the same, with the names of all classes or packages. A call with nothing to do fails
before it starts a step. -/
theorem calls_break_off (a : AnnotatedContext) :
    (∀ classes s e b t, classes ≠ [] → a.register classes s = ((.error e, b), t) →
      a.BrokeOff b false classes e ∧
      s.Notes t "spring.context.component-classes.register" [("classes", listText (classes.map (·.typeName)))]) ∧
    (∀ packages s e b t, packages ≠ [] → a.scan packages s = ((.error e, b), t) →
      a.BrokeOff b true (packages.flatMap a.scanner.find) e ∧
      s.Notes t "spring.context.base-packages.scan" [("packages", listText packages)]) ∧
    ∀ s, a.register [] s = ((.error (.invalidArgument .noComponentClass), a), s) ∧
      a.scan [] s = ((.error (.invalidArgument .noBasePackage), a), s) :=
  ⟨fun _ _ _ _ _ => register_failed, fun _ _ _ _ _ => scan_failed, fun _ => ⟨rfl, rfl⟩⟩

/-- A context with an index, which scans find again before a class without a name. -/
def stocked : AnnotatedContext :=
  ⟨{ Context.create "app" .empty with
      registry := ⟨[⟨"index", "app.Index", .component, singletonScope, []⟩], [], [], false⟩ }, .short,
    ⟨fun package => ["Index", "Store", "", "Late"].map fun name => .plain .component (package ++ "." ++ name)⟩⟩

/-- The second of the classes asks for the name of the index. -/
def clashing : List ComponentClass :=
  ["app.Store", "other.Index", "app.Late"].map (.plain .configuration)

theorem clashing_break_off :
    let registered := stocked.register clashing (.recording Application.underWay)
    let scanned := stocked.scan ["app", "web"] (.recording Application.underWay)
    (stocked.BrokeOff registered.1.2 false clashing (.duplicateComponent "index" "other.Index" "app.Index") ∧
      registered.1.2.context.registry.names = ["index", "store"] ∧
      ∃ g e, registered.2 = .recording g ∧ g.openSteps.snapshot = [1, 0] ∧ g.recorder = .sink (.memory [e]) ∧
        e.outline = ⟨2, 1, "spring.context.component-classes.register",
          "[classes=[app.Store, other.Index, app.Late]]"⟩) ∧
    stocked.BrokeOff scanned.1.2 true (["app", "web"].flatMap stocked.scanner.find)
        (.invalidArgument .emptyComponentName) ∧
      scanned.1.2.context.registry.names = ["index", "store"] ∧
      ∃ g e, scanned.2 = .recording g ∧ g.openSteps.snapshot = [1, 0] ∧ g.recorder = .sink (.memory [e]) ∧
        e.outline = ⟨2, 1, "spring.context.base-packages.scan", "[packages=[app, web]]"⟩ := by
  intro registered scanned
  obtain ⟨registers, scans, -⟩ := calls_break_off stocked
  constructor
  · have failed : stocked.register clashing (.recording Application.underWay) =
      ((.error (.duplicateComponent "index" "other.Index" "app.Index"), registered.1.2), registered.2) := rfl
    obtain ⟨broken, notes⟩ := registers _ _ _ _ _ (List.cons_ne_nil _ _) failed
    obtain ⟨g, e, ran, opened, handed, outline⟩ := notes Application.underWay rfl rfl (by decide)
    exact ⟨broken, rfl, g, e, ran, opened, congrArg Prod.fst handed.kept, outline⟩
  · have failed : stocked.scan ["app", "web"] (.recording Application.underWay) =
      ((.error (.invalidArgument .emptyComponentName), scanned.1.2), scanned.2) := rfl
    obtain ⟨broken, notes⟩ := scans _ _ _ _ _ (List.cons_ne_nil _ _) failed
    obtain ⟨g, e, ran, opened, handed, outline⟩ := notes Application.underWay rfl rfl (by decide)
    exact ⟨broken, rfl, g, e, ran, opened, congrArg Prod.fst handed.kept, outline⟩

end AnnotatedContext
end LaunchTrace
