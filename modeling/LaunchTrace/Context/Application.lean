import LaunchTrace.Context.Annotated
import LaunchTrace.Context.Web

/-! Contexts of any kind, with the operations that all of them have. -/
namespace LaunchTrace

inductive Application where
  | generic (context : Context)
  | annotated (context : AnnotatedContext)
  | web (context : WebContext)

namespace Application

def context : Application → Context
  | .generic c => c
  | .annotated a => a.context
  | .web w => w.context

/-- The application with another context inside. -/
def withContext (app : Application) (c : Context) : Application :=
  match app with
  | .generic _ => .generic c
  | .annotated a => .annotated { a with context := c }
  | .web w => .web { w with context := c }

def name : Application → String
  | .web w => w.applicationName
  | _ => ""

def asParent (app : Application) : ParentContext :=
  app.context.asParent app.name

def close (app : Application) : Application :=
  app.withContext app.context.close

def registerDefinition (app : Application) (d : ComponentDefinition) :
    Except ContextError Unit × Application :=
  match app.context.registerDefinition d with
  | .error e => (.error e, app)
  | .ok c => (.ok (), app.withContext c)

/-- Registers classes. A context that names components by itself does not use the generator. -/
def register (app : Application) (g : NameGenerator) (classes : List ComponentClass) (s : Startup) :
    (Except ContextError (List (Option String)) × Application) × Startup :=
  match app with
  | .annotated a =>
    let ((names, a), s) := a.register classes s
    ((names.map (·.map some), .annotated a), s)
  | app =>
    let (names, c) := Context.registerEach g classes app.context
    ((names, app.withContext c), s)

/-- Scans packages. A context with a scanner of its own does not use what is given beside it. -/
def scan (app : Application) (g : NameGenerator) (scanner : Scanner) (packages : List String) (s : Startup) :
    (Except ContextError Nat × Application) × Startup :=
  match app with
  | .annotated a =>
    let ((added, a), s) := a.scan packages s
    ((added, .annotated a), s)
  | app =>
    let (added, c) := app.context.scan g scanner packages
    ((added, app.withContext c), s)

def refresh (app : Application) (now : Timestamp) (s : Startup) :
    (Except ContextError Unit × Application) × Startup :=
  match app with
  | .generic c =>
    let (r, s) := c.refresh now s
    ((r.outcome, .generic r.context), s)
  | .annotated a =>
    let ((outcome, a), s) := a.refresh now s
    ((outcome, .annotated a), s)
  | .web w =>
    let ((outcome, w), s) := w.refresh now s
    ((outcome, .web w), s)

/-- Refreshes with the given hooks in place of the context's own. -/
def refreshWith {ω : Type} (app : Application) (hooks : Context.RefreshHooks ω) (w : ω) (now : Timestamp)
    (s : Startup) : (Except ContextError Unit × Application × ω) × Startup :=
  let (r, s) := app.context.refreshWith hooks w now s
  ((r.outcome, app.withContext r.context, r.hooks), s)

end Application
end LaunchTrace
