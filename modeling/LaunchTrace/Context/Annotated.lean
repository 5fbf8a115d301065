import LaunchTrace.Context.Basic

/-! Contexts that are filled from component classes and package scans. Registering and scanning are steps of their
own, tagged with all that was asked for. -/
namespace LaunchTrace

structure AnnotatedContext where
  context : Context
  generator : NameGenerator
  scanner : Scanner

namespace AnnotatedContext

def createStep : StepName := ⟨"spring.context.annotated-bean-reader.create", by decide⟩
def registerStep : StepName := ⟨"spring.context.component-classes.register", by decide⟩
def scanStep : StepName := ⟨"spring.context.base-packages.scan", by decide⟩

/-- A context that scans find nothing for yet. -/
def ofContext (c : Context) (s : Startup) : AnnotatedContext × Startup :=
  s.within createStep [] (fun s => (⟨c, .short, .empty⟩, s)) (fun _ => [])

def withScanner (a : AnnotatedContext) (scanner : Scanner) : AnnotatedContext :=
  { a with scanner }

def withCatalog (a : AnnotatedContext) (catalog : Catalog) : AnnotatedContext :=
  a.withScanner catalog

/-- Names components by another generator, which is noted among the singletons. -/
def setGenerator (a : AnnotatedContext) (generator : NameGenerator) : AnnotatedContext :=
  { a with
    generator
    context := { a.context with
      registry := a.context.registry.registerSingleton NameGenerator.singletonName generator.description } }

/-- Texts in brackets, as they are. -/
def listText (texts : List String) : String :=
  "[" ++ Text.join ", " texts ++ "]"

/-- Registers classes and names those that were not kept out. -/
def register (a : AnnotatedContext) (classes : List ComponentClass) (s : Startup) :
    (Except ContextError (List String) × AnnotatedContext) × Startup :=
  if classes = [] then ((.error (.invalidArgument .noComponentClass), a), s)
  else
    s.within registerStep [("classes", listText (classes.map (·.typeName)))]
      (fun s =>
        let (names, context) := Context.registerEach a.generator classes a.context
        ((names.map (·.filterMap id), { a with context }), s))
      (fun _ => [])

/-- Registers one class, under a name if one is given. -/
def registerComponent (a : AnnotatedContext) (name : Option String) (cls : ComponentClass) :
    Except ContextError (Option String) × AnnotatedContext :=
  match a.context.registerClass a.generator { cls with name := name <|> cls.name } with
  | .error e => (.error e, a)
  | .ok (name, context) => (.ok name, { a with context })

/-- Registers what is found below the packages and counts what was added. -/
def scan (a : AnnotatedContext) (packages : List String) (s : Startup) :
    (Except ContextError Nat × AnnotatedContext) × Startup :=
  if packages = [] then ((.error (.invalidArgument .noBasePackage), a), s)
  else
    s.within scanStep [("packages", listText packages)]
      (fun s =>
        let (added, context) := a.context.scan a.generator a.scanner packages
        ((added, { a with context }), s))
      (fun _ => [])

def refresh (a : AnnotatedContext) (now : Timestamp) (s : Startup) :
    (Except ContextError Unit × AnnotatedContext) × Startup :=
  let (r, s) := a.context.refresh now s
  ((r.outcome, { a with context := r.context }), s)

/-- Goes on to a refresh if what came before went well. -/
def refreshAfter {α : Type} (now : Timestamp) :
    (Except ContextError α × AnnotatedContext) × Startup → Except ContextError AnnotatedContext × Startup
  | ((.error e, _), s) => (.error e, s)
  | ((.ok _, a), s) =>
    let ((outcome, a), s) := a.refresh now s
    (outcome.map fun _ => a, s)

/-- A refreshed context with the classes. -/
def ofComponents (c : Context) (classes : List ComponentClass) (now : Timestamp) (s : Startup) :
    Except ContextError AnnotatedContext × Startup :=
  let (a, s) := ofContext c s
  refreshAfter now (a.register classes s)

/-- A refreshed context with what is found below the packages. -/
def ofPackages (c : Context) (scanner : Scanner) (packages : List String) (now : Timestamp) (s : Startup) :
    Except ContextError AnnotatedContext × Startup :=
  let (a, s) := ofContext c s
  refreshAfter now ((a.withScanner scanner).scan packages s)

end AnnotatedContext
end LaunchTrace
