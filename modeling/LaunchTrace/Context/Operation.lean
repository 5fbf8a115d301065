import LaunchTrace.Context.Application

/-! A program that works with a context, with a state `ω` of its own that its hooks read and change. -/
namespace LaunchTrace

inductive ContextOperation (ω : Type) where
  | register (generator : NameGenerator) (classes : List ComponentClass)
  | registerComponent (generator : NameGenerator) (name : Option String) (cls : ComponentClass)
  | registerDefinition (definition : ComponentDefinition)
  | scan (generator : NameGenerator) (scanner : Scanner) (packages : List String)
  | refresh (now : Timestamp)
  | refreshWith (hooks : Context.RefreshHooks ω) (now : Timestamp)
  | close
  | setGenerator (generator : NameGenerator)
  | setScanner (scanner : Scanner)
  | setServlet (servlet : Option ServletContext)
  | setParent (parent : ParentContext)
  | setId (id : String)
  | changeEnvironment (change : Environment → Environment)
  | changeRegistry (change : Registry → Registry)
  /-- The startup is used by others, or replaced. -/
  | meanwhile (change : Startup → Startup)

inductive ContextReply where
  | finished (outcome : Except ContextError Unit)
  | registered (names : Except ContextError (List (Option String)))
  | named (name : Except ContextError (Option String))
  | scanned (added : Except ContextError Nat)
  | done

namespace Application

variable {ω : Type}

/-- Registers one class, under a name if one is given. -/
def registerComponent (app : Application) (g : NameGenerator) (name : Option String) (cls : ComponentClass) :
    Except ContextError (Option String) × Application :=
  match app with
  | .annotated a =>
    let (name, a) := a.registerComponent name cls
    (name, .annotated a)
  | app =>
    match app.context.registerClass g { cls with name := name <|> cls.name } with
    | .error e => (.error e, app)
    | .ok (name, c) => (.ok name, app.withContext c)

def setGenerator (app : Application) (g : NameGenerator) : Application :=
  match app with
  | .annotated a => .annotated (a.setGenerator g)
  | app => app

def setScanner (app : Application) (scanner : Scanner) : Application :=
  match app with
  | .annotated a => .annotated (a.withScanner scanner)
  | app => app

def setServlet (app : Application) (servlet : Option ServletContext) : Application :=
  match app with
  | .web w => .web { w with servlet }
  | app => app

def apply (app : Application) (w : ω) (s : Startup) : ContextOperation ω → (ContextReply × Application × ω) × Startup
  | .register g classes =>
    let ((names, app), s) := app.register g classes s
    ((.registered names, app, w), s)
  | .registerComponent g name cls =>
    let (name, app) := app.registerComponent g name cls
    ((.named name, app, w), s)
  | .registerDefinition d =>
    let (outcome, app) := app.registerDefinition d
    ((.finished outcome, app, w), s)
  | .scan g scanner packages =>
    let ((added, app), s) := app.scan g scanner packages s
    ((.scanned added, app, w), s)
  | .refresh now =>
    let ((outcome, app), s) := app.refresh now s
    ((.finished outcome, app, w), s)
  | .refreshWith hooks now =>
    let ((outcome, app, w), s) := app.refreshWith hooks w now s
    ((.finished outcome, app, w), s)
  | .close => ((.done, app.close, w), s)
  | .setGenerator g => ((.done, app.setGenerator g, w), s)
  | .setScanner scanner => ((.done, app.setScanner scanner, w), s)
  | .setServlet servlet => ((.done, app.setServlet servlet, w), s)
  | .setParent parent => ((.done, app.withContext (app.context.setParent parent), w), s)
  | .setId id => ((.done, app.withContext { app.context with id }, w), s)
  | .changeEnvironment change =>
    ((.done, app.withContext { app.context with environment := change app.context.environment }, w), s)
  | .changeRegistry change =>
    ((.done, app.withContext { app.context with registry := change app.context.registry }, w), s)
  | .meanwhile change => ((.done, app, w), change s)

/-- Carries out operations one after the other, with the replies in their order. -/
def run (app : Application) (w : ω) (s : Startup) :
    List (ContextOperation ω) → (List ContextReply × Application × ω) × Startup
  | [] => (([], app, w), s)
  | op :: ops =>
    let ((reply, app, w), s) := app.apply w s op
    let ((replies, app, w), s) := run app w s ops
    ((reply :: replies, app, w), s)

end Application
end LaunchTrace
