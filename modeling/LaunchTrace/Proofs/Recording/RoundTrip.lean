import LaunchTrace.Proofs.Recording.LineFile
import LaunchTrace.Proofs.Recording.Reader
import LaunchTrace.Proofs.Startup.OpenSteps
import LaunchTrace.Recording.Recorder

/-! What is recorded into a file is read back. -/
namespace LaunchTrace

/-- Commits events one after the other, each at its own time. -/
def Recorder.commitAll (r : Recorder) (host : Host) : List (Duration × Event) → List Commit × Recorder × Host
  | [] => ([], r, host)
  | (elapsed, e) :: rest =>
    match r.commit e { host with elapsed } with
    | (r, host, outcome) =>
      match r.commitAll host rest with
      | (outcomes, r, host) => (outcome :: outcomes, r, host)

namespace LineFile

variable {f : LineFile} {text : Bytes} {timed : List (Duration × Event)}

/-- The events that are committed while the window lasts. -/
def taken (f : LineFile) (timed : List (Duration × Event)) : List Event :=
  (timed.filter fun entry => f.isOpen entry.1).map (·.2)

theorem taken_cons (first : Duration × Event) : f.taken (first :: timed) = f.taken [first] ++ f.taken timed := by
  rw [← List.singleton_append, taken, List.filter_append, List.map_append, taken, taken]

theorem taken_congr {g : LineFile} (same : g.window = f.window) : g.taken timed = f.taken timed := by
  simp only [taken, isOpen, same]

theorem taken_eq (opened : ∀ entry ∈ timed, f.isOpen entry.1 = true) : f.taken timed = timed.map (·.2) := by
  rw [taken, List.filter_eq_self.mpr opened]

/-- A commit writes the line of its event while the window lasts, and nothing afterwards. -/
theorem commit_settled (host : Host) (settled : f.Settled host.files text) (e : Event) :
    ∃ g files, (Recorder.sink (.lines f)).commit e host = (.sink (.lines g), { host with files }, .done) ∧
      g.path = f.path ∧ g.window = f.window ∧
      g.Settled files (text ++ Recording.joined ((f.taken [(host.elapsed, e)]).map Recording.lineBytes)) := by
  cases opened : f.isOpen host.elapsed with
  | false =>
    have passed : f.taken [(host.elapsed, e)] = [] := by simp [taken, opened]
    refine ⟨f, host.files, ?_, rfl, rfl, ?_⟩
    · simp [Recorder.commit, Sink.commit, opened]
    · rw [passed, List.map_nil, Recording.joined, List.flatMap_nil, List.append_nil]
      exact settled
  | true =>
    have one : f.taken [(host.elapsed, e)] = [e] := by simp [taken, opened]
    obtain ⟨g, files, appended, path, window, reached⟩ := append_settled settled e
    refine ⟨g, files, ?_, path, window, ?_⟩
    · simp only [Recorder.commit, Sink.commit, opened, if_true, appended]
    · rw [one, List.map_singleton, Recording.joined, List.flatMap_singleton]
      exact reached

/-- A file that was committed to holds the lines of the events that were taken. -/
theorem commitAll_settled (host : Host) (timed : List (Duration × Event)) (settled : f.Settled host.files text) :
    ∃ g after, (Recorder.sink (.lines f)).commitAll host timed =
        (timed.map fun _ => .done, .sink (.lines g), after) ∧ g.path = f.path ∧
      g.Settled after.files (text ++ Recording.joined ((f.taken timed).map Recording.lineBytes)) := by
  induction timed generalizing f host text with
  | nil =>
    refine ⟨f, host, rfl, rfl, ?_⟩
    rw [taken, List.filter_nil, List.map_nil, List.map_nil, Recording.joined, List.flatMap_nil, List.append_nil]
    exact settled
  | cons first rest ih =>
    obtain ⟨elapsed, e⟩ := first
    obtain ⟨g, files, committed, path, window, reached⟩ := commit_settled { host with elapsed } settled e
    obtain ⟨last, after, run, kept, ended⟩ := ih { host with elapsed, files } reached
    refine ⟨last, after, ?_, kept.trans path, ?_⟩
    · rw [Recorder.commitAll, committed]
      dsimp only
      rw [run, List.map_cons]
    · rw [taken_congr window, List.append_assoc, ← Recording.joined_append, ← List.map_append] at ended
      rw [taken_cons]
      exact ended

end LineFile

namespace Recording

/-- While the window lasts, a file that is no device has one line for each event that was committed, and from these
lines the very events are read, in the order of the commits. -/
theorem read_committed {settings : RecordingSettings} {host : Host} {f : LineFile} {files : FileSystem}
    {timed : List (Duration × Event)} (regular : host.files.Regular (.ofText settings.filename))
    (created : LineFile.create settings host.files = .ok (f, files))
    (opened : ∀ entry ∈ timed, f.isOpen entry.1 = true) (dated : ∀ entry ∈ timed, entry.2.Dated) :
    ∃ r after content,
      (Recorder.sink (.lines f)).commitAll { host with files } timed = (timed.map fun _ => .done, r, after) ∧
      after.files.read f.path = .ok content ∧ content.count lineFeed = timed.length ∧
      lines content = timed.map (fun entry => lineBytes entry.2) ∧
      read after.files f.path = .ok (timed.map (·.2)) := by
  have start := LineFile.create_settled regular created
  obtain ⟨g, after, run, path, settled⟩ := LineFile.commitAll_settled { host with files } timed start
  rw [List.nil_append, LineFile.taken_eq opened] at settled
  have content := settled.read
  rw [path] at content
  refine ⟨_, after, _, run, content, ?_, ?_, ?_⟩
  · rw [count_lineBytes, List.length_map]
  · rw [lines_lineBytes, List.map_map, Function.comp_def]
  · rw [read, content]
    refine ofBytes_joined fun e member => ?_
    obtain ⟨entry, there, rfl⟩ := List.mem_map.mp member
    exact dated entry there

/-- Texts that could break a line, and moments at both ends of what can be written. -/
def awkward : List (Duration × Event) := [
  (⟨0⟩, ⟨"first \"half\"\r\n", 1, 0, "a\\b\n", "[\u0085=\u2028\x01\x7f]", ⟨⟨0, 2, 29⟩, 0, 0, 0, 1⟩, 0⟩),
  (⟨9999999999⟩, ⟨"", 18446744073709551615, 1, "ünïcode 🚀\r", "\r", ⟨⟨9999, 12, 31⟩, 23, 59, 60, 999999999⟩,
    18446744073709551615⟩)]

/-- Where there is nothing yet, a recording starts out with a file of its own. -/
theorem create_run (window : Option Duration) :
    let path := Path.ofText "run.jsonl"
    Session.bareHost.files.Regular path ∧
      LineFile.create ⟨"run.jsonl", window⟩ Session.bareHost.files =
        .ok (⟨path, ⟨[path.bytes], 0⟩, [], window⟩, ⟨[], [([path.bytes], .file [])]⟩) := by
  intro path
  have missing : Session.bareHost.files.find path = .error .notFound := by decide +kernel
  have made : Session.bareHost.files.create path =
      .ok (⟨[path.bytes], 0⟩, ⟨[], [([path.bytes], .file [])]⟩) := by decide +kernel
  constructor
  · intro node found
    rw [missing] at found
    contradiction
  · rw [LineFile.create, made]

theorem read_awkward :
    ∃ f files r after content,
      (Recorder.sink (.lines f)).commitAll { Session.bareHost with files } awkward = ([.done, .done], r, after) ∧
      after.files.read f.path = .ok content ∧ content.count lineFeed = 2 ∧
      lines content = awkward.map (fun entry => lineBytes entry.2) ∧
      read after.files f.path = .ok (awkward.map (·.2)) := by
  obtain ⟨regular, created⟩ := create_run (some (.ofSeconds 10))
  have dated : ∀ entry ∈ awkward, entry.2.Dated := by
    rintro entry (_ | ⟨_, _ | ⟨_, none⟩⟩)
    · exact ⟨by decide, by decide, by decide⟩
    · exact ⟨by decide, by decide, by decide⟩
    · contradiction
  exact ⟨_, _, read_committed regular created (by decide) dated⟩

end Recording
end LaunchTrace
