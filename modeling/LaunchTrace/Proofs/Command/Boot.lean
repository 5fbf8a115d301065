import LaunchTrace.Proofs.Command.Recorder
import LaunchTrace.Proofs.Context.Handing
import LaunchTrace.Proofs.Context.RefreshEvents
import LaunchTrace.Proofs.Except

/-! What a boot comes to, told apart from what it records on the way: the context that it fills and refreshes depends
on no recording, and its recorder is handed events and nothing else. -/
namespace LaunchTrace

namespace Application

/-- What a refresh makes of a context, if nothing is missing. -/
def refreshed (app : Application) (now : Timestamp) (c : Context) : Context :=
  { (c.prepared app.resolve app.prepare).removeSkipped with startedAt := some now, state := .active }

theorem refreshed_withContext (app : Application) (now : Timestamp) (c : Context) :
    (app.withContext c).refreshed now = app.refreshed now := by
  cases app <;> rfl

/-- A new application, which names and finds classes as boots do and demands nothing of its environment. -/
structure Fresh (app : Application) (catalog : Catalog) : Prop where
  generator : app.generator .short = .short
  scanner : app.scanner catalog = catalog
  created : app.context.state = .created
  undemanding : app.context.environment.required = []

variable {app : Application} {catalog : Catalog} {c : Context}

theorem Fresh.filled (fresh : app.Fresh catalog) (filled : Context.Filled app.context c) :
    (app.withContext c).Fresh catalog := by
  obtain ⟨registry, rfl⟩ := filled.frame
  obtain ⟨generator, scanner, created, undemanding⟩ := fresh
  cases app <;> exact ⟨generator, scanner, created, undemanding⟩

theorem Fresh.refresh (fresh : app.Fresh catalog) (now : Timestamp) (s : Startup) :
    (app.refresh now s).1 = (.ok (), app.withContext (app.refreshed now app.context)) := by
  refine refresh_of_complete fresh.created ?_ now s
  rw [missing_eq, fresh.undemanding, List.filter_nil]

end Application

namespace Boot

open Startup

variable {o : BootOptions} {surroundings : Surroundings} {catalog : Catalog} {app : Application} {c after : Context}
  {s : Startup} {now : Timestamp}

/-! ## The context -/

/-- The context with the classes of the command line. -/
def registered (o : BootOptions) (c : Context) : Except ContextError Context :=
  (Context.registerEach .short o.classes c).1.map fun _ => (Context.registerEach .short o.classes c).2

/-- The context with what lies below the packages. -/
def scanned (o : BootOptions) (catalog : Catalog) (c : Context) : Except ContextError Context :=
  (c.scan .short catalog o.packages).1.map fun _ => (c.scan .short catalog o.packages).2

def filled (o : BootOptions) (catalog : Catalog) (c : Context) : Except ContextError Context :=
  (registered o c).bind (scanned o catalog)

theorem registered_filled (done : registered o c = .ok after) : Context.Filled c after := by
  obtain ⟨_, _, rfl⟩ := ok_of_map done
  exact Context.registerEach_filled .short o.classes c

theorem scanned_filled (done : scanned o catalog c = .ok after) : Context.Filled c after := by
  obtain ⟨_, _, rfl⟩ := ok_of_map done
  exact Context.scan_filled c .short catalog o.packages

theorem filled_filled (done : filled o catalog c = .ok after) : Context.Filled c after := by
  obtain ⟨middle, first, last⟩ := ok_of_bind done
  exact (registered_filled first).trans (scanned_filled last)

theorem registerClasses_fst (fresh : app.Fresh catalog) (s : Startup) :
    (registerClasses o app s).1 = ((registered o app.context).map app.withContext).mapError .context := by
  unfold registerClasses registered
  split
  · rename_i none
    rw [none, Context.registerEach]
    simp [Except.map, Except.mapError]
  · rename_i some
    have outcome := app.register_outcome .short some s
    have result := app.register_after .short o.classes s
    rw [fresh.generator] at outcome result
    dsimp only
    rw [result]
    cases first : (app.register .short o.classes s).1.1 <;>
      cases second : (Context.registerEach .short o.classes app.context).1 <;>
      rw [first, second] at outcome <;> cases outcome <;> rfl

theorem scanPackages_fst (fresh : app.Fresh catalog) (s : Startup) :
    (scanPackages o catalog app s).1 = ((scanned o catalog app.context).map app.withContext).mapError .context := by
  unfold scanPackages scanned
  split
  · rename_i none
    rw [none]
    simp [Context.scan, Context.registerNew, Except.map, Except.mapError]
  · rename_i some
    have outcome := app.scan_outcome .short catalog some s
    have result := app.scan_after .short catalog o.packages s
    rw [fresh.generator, fresh.scanner] at outcome result
    dsimp only
    rw [result, outcome]
    cases (app.context.scan .short catalog o.packages).1 <;> rfl

section AndThen

variable {next : Application → Startup → Except CommandError Application × Startup}
  {done : Except CommandError Application × Startup}

theorem andThen_error {e : CommandError} (failed : done.1 = .error e) : andThen next done = (.error e, done.2) := by
  obtain ⟨result, s⟩ := done
  obtain rfl : result = .error e := failed
  rfl

theorem andThen_ok (succeeded : done.1 = .ok app) : andThen next done = next app done.2 := by
  obtain ⟨result, s⟩ := done
  obtain rfl : result = .ok app := succeeded
  rfl

end AndThen

theorem fill_fst (fresh : app.Fresh catalog) (s : Startup) :
    (andThen (scanPackages o catalog) (registerClasses o app s)).1 =
      ((filled o catalog app.context).map app.withContext).mapError .context := by
  have first := registerClasses_fst (o := o) fresh s
  unfold filled
  cases registered : registered o app.context with
  | error e =>
    rw [registered] at first
    rw [andThen_error first]
    rfl
  | ok c =>
    rw [registered] at first
    rw [andThen_ok first, scanPackages_fst (fresh.filled (registered_filled registered)),
      Application.withContext_context, Application.withContext_withContext]
    rfl

theorem bringUp_fst (fresh : app.Fresh catalog) (now : Timestamp) (s : Startup) :
    (bringUp o catalog now app s).1 =
      ((filled o catalog app.context).map fun c => app.withContext (app.refreshed now c)).mapError .context := by
  have first := fill_fst (o := o) fresh s
  unfold bringUp
  cases full : filled o catalog app.context with
  | error e =>
    rw [full] at first
    rw [andThen_error first]
    rfl
  | ok c =>
    rw [full] at first
    have last (t : Startup) :
        ((app.withContext c).refresh now t).1 = (.ok (), app.withContext (app.refreshed now c)) := by
      rw [(fresh.filled (filled_filled full)).refresh, Application.withContext_context,
        Application.withContext_withContext, Application.refreshed_withContext]
    rw [andThen_ok first]
    simp only [refresh, last]
    rfl

/-! ## What is recorded -/

theorem newApplication_hands (o : BootOptions) (surroundings : Surroundings) (catalog : Catalog) :
    Hands (newApplication o surroundings catalog) := by
  unfold newApplication
  cases o.webPath with
  | some path => exact .pure _
  | none =>
    exact (AnnotatedContext.ofContext_hands _).bind fun a => .pure (Application.annotated (a.withCatalog catalog))

theorem registerClasses_hands (o : BootOptions) (app : Application) : Hands (registerClasses o app) := by
  unfold registerClasses
  split
  · exact .pure _
  · exact (app.register_hands .short o.classes).bind fun r =>
      .pure ((r.1.map fun _ => r.2).mapError CommandError.context)

theorem scanPackages_hands (o : BootOptions) (catalog : Catalog) (app : Application) :
    Hands (scanPackages o catalog app) := by
  unfold scanPackages
  split
  · exact .pure _
  · exact (app.scan_hands .short catalog o.packages).bind fun r =>
      .pure ((r.1.map fun _ => r.2).mapError CommandError.context)

theorem andThen_hands {work : Startup → Except CommandError Application × Startup}
    {next : Application → Startup → Except CommandError Application × Startup} (first : Hands work)
    (others : ∀ app, Hands (next app)) : Hands fun s => andThen next (work s) := by
  have rest (r : Except CommandError Application) : Hands fun s => andThen next (r, s) := by
    cases r with
    | error e => exact .pure _
    | ok app => exact others app
  exact first.bind rest

/-- A boot that succeeds has something to show for it. -/
theorem bringUp_some (fresh : app.Fresh catalog) (o : BootOptions) (now : Timestamp) (f : Flight) :
    ∃ g events, (bringUp o catalog now app (.recording f)).2 = .recording g ∧ f.Handed g events ∧
      (f.Eager → ∀ done, (bringUp o catalog now app (.recording f)).1 = .ok done → events ≠ []) := by
  obtain ⟨g, events, ran, handed⟩ :=
    andThen_hands (registerClasses_hands o app) (scanPackages_hands o catalog) f
  have first := fill_fst (o := o) fresh (.recording f)
  unfold bringUp
  cases full : filled o catalog app.context with
  | error e =>
    rw [full] at first
    rw [andThen_error first]
    exact ⟨g, events, ran, handed, fun _ _ done => by cases done⟩
  | ok c =>
    rw [full] at first
    rw [andThen_ok first, ran]
    have created := (fresh.filled (filled_filled full)).created
    obtain ⟨h, later, last, behind, some⟩ := Application.refresh_some created now g
    refine ⟨h, events ++ later, last, handed.trans behind, fun eager _ _ => ?_⟩
    exact List.append_ne_nil_of_right_ne_nil _ (some (eager.handed handed))

end Boot

namespace BootOptions

variable {o : BootOptions} {surroundings : Surroundings} {catalog : Catalog} {file : Option LineFile}
  {files : FileSystem} {e : CommandError}

/-- The application of a boot before anything is registered. -/
def application (o : BootOptions) (surroundings : Surroundings) (catalog : Catalog) : Application :=
  (Boot.newApplication o surroundings catalog .off).1

theorem application_fresh (o : BootOptions) (surroundings : Surroundings) (catalog : Catalog) :
    (o.application surroundings catalog).Fresh catalog := by
  unfold application Boot.newApplication
  cases o.webPath <;> exact ⟨rfl, rfl, rfl, rfl⟩

theorem newApplication_fst (o : BootOptions) (surroundings : Surroundings) (catalog : Catalog) (s : Startup) :
    (Boot.newApplication o surroundings catalog s).1 = o.application surroundings catalog := by
  unfold application Boot.newApplication
  cases o.webPath <;> rfl

/-- The application of a boot once it has been refreshed. -/
def booted (o : BootOptions) (surroundings : Surroundings) (catalog : Catalog) : Except ContextError Application :=
  let app := o.application surroundings catalog
  (Boot.filled o catalog app.context).map fun c => app.withContext (app.refreshed surroundings.clock.now.wall c)

/-- What has to be there before a context is made: the catalog, and the file of the recording. -/
def prepared (o : BootOptions) (surroundings : Surroundings) :
    Except CommandError (Catalog × Option LineFile × FileSystem) := do
  let catalog ← o.loadCatalog surroundings.files
  let settings ← o.settings surroundings.vars
  let (file, files) ← Boot.openRecording settings surroundings.files
  return (catalog, file, files)

theorem run_eq (o : BootOptions) (surroundings : Surroundings) :
    o.run surroundings = match o.prepared surroundings with
      | .error e => .failing surroundings e
      | .ok (catalog, file, files) =>
        Boot.underFlight o surroundings catalog
          (.launch (o.recorder surroundings.listening file) ⟨files, [], true, surroundings.elapsed⟩
            surroundings.clock) := rfl

/-- The flight of a boot is handed events, from which the context comes out as it would without them. -/
theorem underFlight_eq (o : BootOptions) (surroundings : Surroundings) (catalog : Catalog) (f : Flight) :
    ∃ g events, f.Handed g events ∧
      Boot.underFlight o surroundings catalog f =
        Boot.conclude ((o.booted surroundings catalog).mapError .context) g ∧
      (f.Eager → ∀ app, o.booted surroundings catalog = .ok app → events ≠ []) := by
  obtain ⟨h, early, made, begun⟩ := Boot.newApplication_hands o surroundings catalog f
  have fresh := o.application_fresh surroundings catalog
  obtain ⟨g, later, ran, handed, some⟩ := Boot.bringUp_some fresh o surroundings.clock.now.wall h
  have result := Boot.bringUp_fst (o := o) fresh surroundings.clock.now.wall (.recording h)
  have app := o.newApplication_fst surroundings catalog (.recording f)
  refine ⟨g, early ++ later, begun.trans handed, ?_, fun eager app done => ?_⟩
  · simp only [Boot.underFlight, app, made, ran, result, Startup.flight?, Option.getD_some]
    rfl
  · refine List.append_ne_nil_of_right_ne_nil _ (some (eager.handed begun) app ?_)
    rw [result]
    exact congrArg (Except.mapError CommandError.context) done

end BootOptions

/-! ## What is printed -/

namespace Boot

variable {g : Flight} {f : LineFile} {text : Bytes}

/-- The line of a summary that counts and names the components. -/
def componentsLine (names : List String) : String :=
  "  components (" ++ toString names.length ++ "): " ++ Text.join ", " names ++ "\n"

/-- The line of a summary that names the application, if it has a name. -/
def nameLine (name : String) : String :=
  if name = "" then "" else "  application: " ++ name ++ "\n"

/-- What a summary says before the steps. -/
def heading (app : Application) : String :=
  "context " ++ app.context.id ++ " refreshed\n" ++ nameLine app.name ++ componentsLine app.context.registry.names
    ++ optionalLine "scopes" app.context.registry.scopes

theorem append_componentsLine (before : String) (registry : Registry) :
    before ++ componentsLine registry.names =
      before ++ "  components (" ++ toString registry.size ++ "): " ++ Text.join ", " registry.names ++ "\n" := by
  -- Put together for any texts, since these are long.
  have regroup (a b c d e : String) : before ++ (a ++ b ++ c ++ d ++ e) = before ++ a ++ b ++ c ++ d ++ e := by
    simp only [String.append_assoc]
  have size : registry.names.length = registry.size := by simp only [Registry.names, List.length_map, Registry.size]
  unfold componentsLine
  exact size ▸ regroup _ _ _ _ _

theorem summary_eq (app : Application) (events : List Event) :
    summary app events = heading app ++ "\nstartup steps:\n" ++ StepTree.render (StepTree.ofEvents events) := by
  rw [heading, append_componentsLine]
  rfl

/-- For any texts, since rewriting those of a summary takes long. -/
theorem regroup (a b c d : String) : a ++ b ++ c ++ d = a ++ (b ++ c ++ d) := by
  simp only [String.append_assoc]

theorem closeRecording_printed (printed : String) (g : Flight) :
    ∃ rest, (closeRecording printed g).printed = printed ++ rest := by
  unfold closeRecording
  split
  · exact ⟨"", (String.append_empty).symm⟩
  · split
    · exact ⟨"", (String.append_empty).symm⟩
    · exact ⟨_, by rw [String.append_assoc, String.append_assoc]⟩

/-- Only the last flush can fail. -/
theorem closeRecording_error (printed : String) (g : Flight) :
    (closeRecording printed g).error = g.recorder.files.head?.bind fun file =>
      (file.flush g.host.files).error.map fun e => .recording (.io e) := by
  unfold closeRecording
  split <;> rename_i files
  · rw [files]
    rfl
  · rw [files, List.head?_cons, Option.bind_some]
    split <;> rename_i flushed <;> rw [flushed] <;> rfl

/-- A file that has got all its lines is as it should be. -/
theorem closeRecording_settled (settled : f.Settled g.host.files text) (file : g.recorder.files = [f])
    (printed : String) :
    closeRecording printed g =
      ⟨printed ++ "recording written to " ++ f.path.display ++ "\n", none, g.host.files, g.host.traced⟩ := by
  rw [closeRecording, file]
  dsimp only
  rw [LineFile.flush, if_pos settled.empty]

end Boot

namespace BootOptions

variable {o : BootOptions} {surroundings : Surroundings} {catalog : Catalog} {file : Option LineFile}
  {files : FileSystem} {app : Application}

theorem prepared_ok (prepared : o.prepared surroundings = .ok (catalog, file, files)) :
    ∃ settings, o.settings surroundings.vars = .ok settings ∧
      Boot.openRecording settings surroundings.files = .ok (file, files) := by
  obtain ⟨_, _, prepared⟩ := ok_of_bind prepared
  obtain ⟨settings, asked, prepared⟩ := ok_of_bind prepared
  obtain ⟨made, opened, same⟩ := ok_of_bind prepared
  cases same
  exact ⟨settings, asked, opened⟩

/-- There is a file if there are settings for one, and it has just been made. -/
theorem openRecording_ok {settings : Option RecordingSettings} {fs : FileSystem}
    (opened : Boot.openRecording settings fs = .ok (file, files)) :
    settings = none ∧ file = none ∨
      ∃ chosen f, settings = some chosen ∧ file = some f ∧ LineFile.create chosen fs = .ok (f, files) := by
  unfold Boot.openRecording at opened
  split at opened
  · cases opened
    exact .inl ⟨rfl, rfl⟩
  · rename_i chosen
    split at opened
    · cases opened
    · rename_i created
      cases opened
      exact .inr ⟨chosen, _, rfl, rfl, created⟩

theorem run_unprepared {e : CommandError} (failed : o.prepared surroundings = .error e) :
    o.run surroundings = .failing surroundings e := by
  rw [run_eq, failed]

theorem run_failed {e : ContextError} (prepared : o.prepared surroundings = .ok (catalog, file, files))
    (failed : o.booted surroundings catalog = .error e) : (o.run surroundings).error = some (.context e) := by
  rw [run_eq, prepared]
  dsimp only
  obtain ⟨g, events, -, ran, -⟩ := underFlight_eq o surroundings catalog
    (.launch (o.recorder surroundings.listening file) ⟨files, [], true, surroundings.elapsed⟩ surroundings.clock)
  rw [ran, failed]
  rfl

/-- A boot whose context comes up has recorded events, which its memory and its file have got. -/
theorem run_booted (prepared : o.prepared surroundings = .ok (catalog, file, files))
    (done : o.booted surroundings catalog = .ok app) :
    ∃ events g, o.run surroundings = Boot.closeRecording (Boot.summary app events) g ∧ events ≠ [] ∧
      (∀ e ∈ events, ∃ n, e.startTime = (surroundings.clock.reading n).wall) ∧
      g.recorder.files = (events.foldl (Boot.noted surroundings.elapsed) (file, files)).1.toList ∧
      g.host.files = (events.foldl (Boot.noted surroundings.elapsed) (file, files)).2 := by
  let f : Flight :=
    .launch (o.recorder surroundings.listening file) ⟨files, [], true, surroundings.elapsed⟩ surroundings.clock
  obtain ⟨g, events, handed, ran, some⟩ := underFlight_eq o surroundings catalog f
  obtain ⟨traced, run⟩ := foldl_crew o surroundings.listening [] file f.host events
  obtain ⟨recorder, host⟩ := Prod.mk.inj (handed.kept.trans run)
  refine ⟨events, g, ?_, some (crew_eager crew_nil.symm) app done, handed.started, ?_, ?_⟩
  · rw [run_eq, prepared]
    dsimp only
    rw [ran, done]
    change Boot.closeRecording (Boot.summary app (g.recorder.memories.headD [])) g = _
    rw [recorder, crew_memories, List.nil_append]
  · rw [recorder, crew_files]
    rfl
  · rw [host]
    rfl

/-- Such a boot prints its heading first, whether or not its file can be closed. -/
theorem run_printed (prepared : o.prepared surroundings = .ok (catalog, file, files))
    (done : o.booted surroundings catalog = .ok app) :
    ∃ rest, (o.run surroundings).printed = Boot.heading app ++ rest := by
  obtain ⟨events, g, ran, -⟩ := run_booted prepared done
  obtain ⟨rest, printed⟩ := Boot.closeRecording_printed (Boot.summary app events) g
  rw [ran, printed, Boot.summary_eq, Boot.regroup]
  exact ⟨_, rfl⟩

/-- A boot whose context comes up can only fail at the end, when a file refuses what it has been given. -/
theorem run_error (prepared : o.prepared surroundings = .ok (catalog, file, files))
    (done : o.booted surroundings catalog = .ok app) :
    (o.run surroundings).error = file.bind fun f =>
      if f.isOpen surroundings.elapsed then (f.refusal? files).map fun e => .recording (.io e) else none := by
  obtain ⟨events, g, ran, some, -, recorded, written⟩ := run_booted prepared done
  obtain ⟨_, _, opened⟩ := prepared_ok prepared
  rw [ran, Boot.closeRecording_error, recorded, written]
  rcases openRecording_ok opened with ⟨_, rfl⟩ | ⟨_, f, _, rfl, created⟩
  · rw [Boot.foldl_noted_none]
    rfl
  · have empty : f.buffered = [] := by
      obtain ⟨handle, same⟩ := LineFile.create_eq created
      rw [same]
    obtain ⟨last, after, run, flushed⟩ := Boot.foldl_noted_flush empty files some
    rw [run]
    simp only [Option.toList_some, List.head?_cons, Option.bind_some, flushed]
    split <;> rfl

end BootOptions
end LaunchTrace
