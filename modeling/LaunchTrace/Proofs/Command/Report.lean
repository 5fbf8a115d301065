import LaunchTrace.Command.Run
import LaunchTrace.Proofs.Command.Boot
import LaunchTrace.Proofs.Tree.Conservation

/-! Reporting what a boot has recorded. The steps reach the summary through a memory, and the report through a file. -/
namespace LaunchTrace

variable {o : BootOptions} {s : Surroundings} {settings : RecordingSettings} {app : Application} {events : List Event}

/-- Where there are steps, there are trees. -/
theorem StepTree.isEmpty_ofEvents (some : events ≠ []) : (ofEvents events).isEmpty = false := by
  rw [Bool.eq_false_iff, ne_eq, List.isEmpty_iff]
  intro empty
  have all := ofEvents_perm events
  rw [empty] at all
  exact some (List.nil_perm.mp all)

namespace Boot

/-- What a boot leaves behind that has recorded these events into a regular file. -/
structure Recorded (boot : Outcome) (path : Path) (app : Application) (events : List Event) : Prop where
  error : boot.error = none
  printed : boot.printed = summary app events ++ "recording written to " ++ path.display ++ "\n"
  read : Recording.read boot.files path = .ok events
  some : events ≠ []

end Boot

/-- The file has the lines of all events, so that they are read from it as they were remembered. -/
theorem BootOptions.run_recorded (asked : o.settings s.vars = .ok (some settings))
    (regular : s.files.Regular (.ofText settings.filename))
    (opened : ∀ window ∈ settings.window, s.elapsed.nanos < window.nanos)
    (valid : ∀ n, (s.clock.reading n).wall.Valid) (succeeded : (o.run s).error = none) :
    ∃ app events, Boot.Recorded (o.run s) (.ofText settings.filename) app events := by
  cases prepared : o.prepared s with
  | error e =>
    rw [run_unprepared prepared] at succeeded
    cases succeeded
  | ok made =>
    obtain ⟨catalog, file, files⟩ := made
    cases done : o.booted s catalog with
    | error e =>
      rw [run_failed prepared done] at succeeded
      cases succeeded
    | ok app =>
      obtain ⟨events, g, ran, some, started, recorded, written⟩ := run_booted prepared done
      obtain ⟨_, found, made⟩ := prepared_ok prepared
      obtain rfl := Except.ok.inj (asked.symm.trans found)
      rcases openRecording_ok made with ⟨none, _⟩ | ⟨_, f, same, rfl, created⟩
      · cases none
      · obtain rfl := Option.some.inj same
        have start := LineFile.create_settled regular created
        obtain ⟨handle, rfl⟩ := LineFile.create_eq created
        have inside : LineFile.isOpen ⟨.ofText settings.filename, handle, [], settings.window⟩ s.elapsed = true := by
          unfold LineFile.isOpen
          split
          · rfl
          · rename_i window limited
            exact decide_eq_true (opened window limited)
        obtain ⟨f, last, run, path, settled⟩ := Boot.foldl_noted_settled start inside events
        rw [run] at recorded written
        have written : g.host.files = last := written
        rw [List.nil_append, ← written] at settled
        have closed := ran.trans (Boot.closeRecording_settled settled recorded (Boot.summary app events))
        refine ⟨app, events, succeeded, ?_, ?_, some⟩
        · rw [closed, path]
        · have content := settled.read
          rw [path] at content
          rw [closed, Recording.read, content]
          refine Recording.ofBytes_lineBytes fun e member => ?_
          obtain ⟨n, time⟩ := started e member
          rw [time]
          exact valid n

/-- The report on what a boot has recorded shows the very steps that the boot has shown itself. -/
theorem Request.report_boot (asked : o.settings s.vars = .ok (some settings))
    (regular : s.files.Regular (.ofText settings.filename))
    (opened : ∀ window ∈ settings.window, s.elapsed.nanos < window.nanos)
    (valid : ∀ n, (s.clock.reading n).wall.Valid) (succeeded : ((Request.boot o).run s).error = none)
    (t : Surroundings) :
    let boot := (Request.boot o).run s
    let path := Path.ofText settings.filename
    let report := (Request.report ⟨path, false⟩).run { t with files := boot.files }
    report.error = none ∧ ∃ app events,
      boot.printed = Boot.heading app ++ "\nstartup steps:\n" ++ report.printed ++
        ("recording written to " ++ path.display ++ "\n") ∧
      events ≠ [] ∧ Recording.read boot.files path = .ok events ∧
      report.printed = StepTree.render (StepTree.ofEvents events) := by
  obtain ⟨app, events, recorded⟩ := BootOptions.run_recorded asked regular opened valid succeeded
  intro boot path report
  have shown : report = .printing { t with files := boot.files } (StepTree.render (StepTree.ofEvents events)) := by
    have read : Recording.read boot.files path = .ok events := recorded.read
    have some := StepTree.isEmpty_ofEvents recorded.some
    simp only [report, Request.run, ReportOptions.run, read, Report.treeText, some]
    rfl
  have printed : report.printed = StepTree.render (StepTree.ofEvents events) := congrArg Outcome.printed shown
  refine ⟨congrArg Outcome.error shown, app, events, ?_, recorded.some, recorded.read, printed⟩
  rw [printed, ← Boot.summary_eq, ← Boot.regroup]
  exact recorded.printed

/-- A web context with all that may be asked for but a catalog, recorded into a file that is not there yet. -/
def audited : BootOptions where
  components := ["shop.web.Cart", "shop.Store"]
  configurations := ["shop.Config"]
  packages := ["shop"]
  catalog := none
  recording := some "filename=run.jsonl,duration=1m"
  webPath := some "/shop"
  traceSteps := true
  jsonLogs := false

def atNewYear : Surroundings :=
  ⟨⟨[]⟩, Session.bareHost.files, .still Session.newYear, ⟨0⟩, true, "shop"⟩

theorem report_audited :
    let boot := (Request.boot audited).run atNewYear
    let report := (Request.report ⟨.ofText "run.jsonl", false⟩).run { atNewYear with files := boot.files }
    report.error = none ∧ ∃ app events,
      boot.printed = Boot.heading app ++ "\nstartup steps:\n" ++ report.printed ++
        ("recording written to " ++ (Path.ofText "run.jsonl").display ++ "\n") ∧
      events ≠ [] ∧ Recording.read boot.files (.ofText "run.jsonl") = .ok events ∧
      report.printed = StepTree.render (StepTree.ofEvents events) := by
  have asked : audited.settings atNewYear.vars = .ok (some ⟨"run.jsonl", some (.ofSeconds 60)⟩) := by decide +kernel
  have missing : atNewYear.files.find (.ofText "run.jsonl") = .error .notFound := by decide +kernel
  have regular : atNewYear.files.Regular (.ofText "run.jsonl") := by
    intro node found
    rw [missing] at found
    contradiction
  have opened : ∀ window ∈ some (Duration.ofSeconds 60), atNewYear.elapsed.nanos < window.nanos := by
    intro window limit
    obtain rfl := Option.mem_some_iff.mp limit
    decide +kernel
  have valid : ∀ n, (atNewYear.clock.reading n).wall.Valid := by
    intro n
    change Session.newYear.Valid
    decide
  have succeeded : ((Request.boot audited).run atNewYear).error = none := by decide +kernel
  exact Request.report_boot asked regular opened valid succeeded atNewYear

end LaunchTrace
