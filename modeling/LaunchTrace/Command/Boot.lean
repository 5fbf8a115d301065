import LaunchTrace.Command.Arguments
import LaunchTrace.Command.Basic
import LaunchTrace.Context.Application
import LaunchTrace.Step.Tree

/-! Booting a context. Components come from the command line and from scans of a catalog, and every step is kept in
memory for the summary, beside the recording that the settings ask for. -/
namespace LaunchTrace

namespace BootOptions

/-- Configurations come before all other components. -/
def classes (o : BootOptions) : List ComponentClass :=
  o.configurations.map (.plain .configuration) ++ o.components.map (.plain .component)

def loadCatalog (o : BootOptions) (fs : FileSystem) : Except CommandError Catalog :=
  match o.catalog with
  | none => .ok .empty
  | some path => (Catalog.read fs path).mapError (.catalog path)

/-- Settings on the command line count before those among the variables. -/
def settings (o : BootOptions) (v : Variables) : Except CommandError (Option RecordingSettings) :=
  match o.recording with
  | some text => ((RecordingSettings.parse text).map some).mapError (.settings text)
  | none => (RecordingSettings.ofVariables v).mapError .variableSettings

/-- A memory for the summary, and behind it whatever else wants the steps. -/
def recorder (o : BootOptions) (listening : Bool) (file : Option LineFile) : Recorder :=
  .fanout (
    [.sink (.memory [])] ++ (if o.traceSteps then [.sink (.tracing listening)] else [])
      ++ (file.map fun f => Recorder.sink (.lines f)).toList)

end BootOptions

namespace Boot

/-- Makes the file of a recording, if there is to be one. -/
def openRecording (settings : Option RecordingSettings) (fs : FileSystem) :
    Except CommandError (Option LineFile × FileSystem) :=
  match settings with
  | none => .ok (none, fs)
  | some settings =>
    match LineFile.create settings fs with
    | .error e => .error (.creation settings.filename e)
    | .ok (file, fs) => .ok (some file, fs)

/-! ## The context -/

/-- A web context if there is a path to serve it under. -/
def newApplication (o : BootOptions) (surroundings : Surroundings) (catalog : Catalog) (s : Startup) :
    Application × Startup :=
  match o.webPath with
  | some path =>
    (.web ⟨.create surroundings.contextId (.servlet surroundings.vars), some ⟨path, .empty, none⟩⟩, s)
  | none =>
    let (a, s) := AnnotatedContext.ofContext (.create surroundings.contextId (.standard surroundings.vars)) s
    (.annotated (a.withCatalog catalog), s)

def registerClasses (o : BootOptions) (app : Application) (s : Startup) :
    Except CommandError Application × Startup :=
  if o.classes = [] then (.ok app, s)
  else
    let ((names, app), s) := app.register .short o.classes s
    ((names.map fun _ => app).mapError .context, s)

def scanPackages (o : BootOptions) (catalog : Catalog) (app : Application) (s : Startup) :
    Except CommandError Application × Startup :=
  if o.packages = [] then (.ok app, s)
  else
    let ((added, app), s) := app.scan .short catalog o.packages s
    ((added.map fun _ => app).mapError .context, s)

def refresh (o : BootOptions) (now : Timestamp) (app : Application) (s : Startup) :
    Except CommandError Application × Startup :=
  let ((outcome, app), s) := app.refresh now s
  ((outcome.map fun _ => app).mapError (.refresh o.webPath.isSome), s)

/-- Goes on if nothing has failed so far. -/
def andThen (next : Application → Startup → Except CommandError Application × Startup) :
    Except CommandError Application × Startup → Except CommandError Application × Startup
  | (.error e, s) => (.error e, s)
  | (.ok app, s) => next app s

/-- Fills a context and refreshes it. -/
def bringUp (o : BootOptions) (catalog : Catalog) (now : Timestamp) (app : Application) (s : Startup) :
    Except CommandError Application × Startup :=
  andThen (refresh o now) (andThen (scanPackages o catalog) (registerClasses o app s))

/-! ## The summary -/

/-- The line of a list that is only shown if there is something in it. -/
def optionalLine (label : String) (items : List String) : String :=
  if items = [] then "" else "  " ++ label ++ ": " ++ Text.join ", " items ++ "\n"

def summary (app : Application) (events : List Event) : String :=
  let registry := app.context.registry
  "context " ++ app.context.id ++ " refreshed\n"
    ++ (if app.name = "" then "" else "  application: " ++ app.name ++ "\n")
    ++ "  components (" ++ toString registry.size ++ "): " ++ Text.join ", " registry.names ++ "\n"
    ++ optionalLine "scopes" registry.scopes
    ++ "\nstartup steps:\n" ++ StepTree.render (StepTree.ofEvents events)

/-- Sees the recording through to its file, behind what has been printed already. -/
def closeRecording (printed : String) (f : Flight) : Outcome :=
  match f.recorder.files with
  | [] => ⟨printed, none, f.host.files, f.host.traced⟩
  | file :: _ =>
    match file.flush f.host.files with
    | ⟨some e, _, files⟩ => ⟨printed, some (.recording (.io e)), files, f.host.traced⟩
    | ⟨none, file, files⟩ =>
      ⟨printed ++ "recording written to " ++ file.path.display ++ "\n", none, files, f.host.traced⟩

def conclude (app : Except CommandError Application) (f : Flight) : Outcome :=
  match app with
  | .error e => ⟨"", some e, f.host.files, f.host.traced⟩
  | .ok app => closeRecording (summary app (f.recorder.memories.headD [])) f

/-- Boots under a flight that has been launched for it. -/
def underFlight (o : BootOptions) (surroundings : Surroundings) (catalog : Catalog) (f : Flight) : Outcome :=
  let (app, s) := newApplication o surroundings catalog (.recording f)
  let (app, s) := bringUp o catalog surroundings.clock.now.wall app s
  conclude app (s.flight?.getD f)

end Boot

/-- Boots a context. The catalog is read before the settings, and the recording made before the context. -/
def BootOptions.run (o : BootOptions) (surroundings : Surroundings) : Outcome :=
  let prepared : Except CommandError (Catalog × Option LineFile × FileSystem) := do
    let catalog ← o.loadCatalog surroundings.files
    let settings ← o.settings surroundings.vars
    let (file, files) ← Boot.openRecording settings surroundings.files
    return (catalog, file, files)
  match prepared with
  | .error e => .failing surroundings e
  | .ok (catalog, file, files) =>
    Boot.underFlight o surroundings catalog
      (.launch (o.recorder surroundings.listening file) ⟨files, [], true, surroundings.elapsed⟩ surroundings.clock)

end LaunchTrace
