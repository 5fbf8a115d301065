import LaunchTrace.Command.Boot
import LaunchTrace.Proofs.Recording.LineFile
import LaunchTrace.Proofs.Recording.Reader
import LaunchTrace.Proofs.Recording.Refusal
import LaunchTrace.Proofs.Startup.Handing

/-! The recorder of a boot. Its memory gets every event, and so does its file as long as the window lasts, whether or
not steps are traced in between. -/
namespace LaunchTrace

namespace Boot

/-- What an event makes of the file of a recording, if there is one. -/
def noted (elapsed : Duration) : Option LineFile × FileSystem → Event → Option LineFile × FileSystem
  | (none, fs), _ => (none, fs)
  | (some f, fs), e => if f.isOpen elapsed then (some (f.append fs e).2.1, (f.append fs e).2.2) else (some f, fs)

variable {elapsed : Duration} {f : LineFile} {fs : FileSystem} {later : List Event} {text : Bytes}

theorem foldl_noted_none (later : List Event) : later.foldl (noted elapsed) (none, fs) = (none, fs) := by
  induction later with
  | nil => rfl
  | cons e rest ih => exact ih

theorem foldl_noted_closed (closed : f.isOpen elapsed = false) (later : List Event) :
    later.foldl (noted elapsed) (some f, fs) = (some f, fs) := by
  induction later with
  | nil => rfl
  | cons e rest ih =>
    rw [List.foldl_cons, noted, closed]
    exact ih

theorem noted_open (opened : f.isOpen elapsed = true) (e : Event) :
    noted elapsed (some f, fs) e = (some (f.append fs e).2.1, (f.append fs e).2.2) := by
  rw [noted, if_pos opened]

/-- A file that refuses has something in its buffer as soon as there has been an event. -/
theorem foldl_noted_steady (opened : f.isOpen elapsed = true) (fs : FileSystem) (later : List Event) :
    ∃ g files, later.foldl (noted elapsed) (some f, fs) = (some g, files) ∧ g.refusal? files = f.refusal? fs ∧
      (f.refusal? fs ≠ none → f.buffered ≠ [] ∨ later ≠ [] → g.buffered ≠ []) := by
  induction later generalizing f fs with
  | nil => exact ⟨f, fs, rfl, rfl, fun _ some => some.resolve_right (not_not_intro rfl)⟩
  | cons e rest ih =>
    obtain ⟨a, appended, steady, stuck⟩ := f.append_steady fs e
    have still : a.file.isOpen elapsed = true := by
      rw [LineFile.isOpen, steady.window]
      exact opened
    obtain ⟨g, files, run, refusal, held⟩ := ih still a.files
    refine ⟨g, files, ?_, refusal.trans steady.refusal, fun refused _ => ?_⟩
    · rw [List.foldl_cons, noted_open opened, appended, run]
    · exact held (steady.refusal ▸ refused) (.inl (stuck refused))

/-- How the last flush of a file goes that has been given some events: it fails if the file refuses to be written, but
for one whose window was over before. -/
theorem foldl_noted_flush (empty : f.buffered = []) (fs : FileSystem) (some : later ≠ []) :
    ∃ g files, later.foldl (noted elapsed) (.some f, fs) = (.some g, files) ∧
      (g.flush files).error = if f.isOpen elapsed then f.refusal? fs else none := by
  cases opened : f.isOpen elapsed with
  | false =>
    refine ⟨f, fs, foldl_noted_closed opened later, ?_⟩
    rw [LineFile.flush, if_pos empty]
    rfl
  | true =>
    obtain ⟨g, files, run, refusal, stuck⟩ := foldl_noted_steady opened fs later
    refine ⟨g, files, run, ?_⟩
    rw [if_pos rfl]
    cases refused : f.refusal? fs with
    | none => exact (g.flush_steady files).allowed (refusal.trans refused)
    | some e =>
      have kept : g.buffered ≠ [] := stuck (by rw [refused]; exact Option.some_ne_none e) (.inr some)
      rw [LineFile.flush_refused (refusal.trans refused) kept]

/-- A regular file has the lines of the events that it was given. -/
theorem foldl_noted_settled (settled : f.Settled fs text) (opened : f.isOpen elapsed = true) (later : List Event) :
    ∃ g files, later.foldl (noted elapsed) (some f, fs) = (some g, files) ∧ g.path = f.path ∧
      g.Settled files (text ++ Recording.joined (later.map Recording.lineBytes)) := by
  induction later generalizing f fs text with
  | nil =>
    refine ⟨f, fs, rfl, rfl, ?_⟩
    rw [List.map_nil, Recording.joined, List.flatMap_nil, List.append_nil]
    exact settled
  | cons e rest ih =>
    obtain ⟨after, files, appended, path, window, reached⟩ := LineFile.append_settled settled e
    have still : after.isOpen elapsed = true := by
      rw [LineFile.isOpen, window]
      exact opened
    obtain ⟨g, last, run, kept, ended⟩ := ih reached still
    refine ⟨g, last, ?_, kept.trans path, ?_⟩
    · rw [List.foldl_cons, noted_open opened, appended, run]
    · rw [List.append_assoc] at ended
      exact ended

end Boot

namespace BootOptions

variable {o : BootOptions} {listening : Bool} {events later : List Event} {file : Option LineFile} {host : Host}
  {f g : Flight}

/-- The recorder with the events that it has remembered so far and the file as it is by then. -/
def crew (o : BootOptions) (listening : Bool) (events : List Event) (file : Option LineFile) : Recorder :=
  .fanout (
    [.sink (.memory events)] ++ (if o.traceSteps then [.sink (.tracing listening)] else [])
      ++ (file.map fun f => Recorder.sink (.lines f)).toList)

theorem crew_nil : o.crew listening [] file = o.recorder listening file := rfl

theorem crew_memories : (o.crew listening events file).memories.headD [] = events := rfl

theorem crew_files : (o.crew listening events file).files = file.toList := by
  unfold crew
  cases o.traceSteps <;> cases file <;> rfl

/-- The file comes last, so that its failures keep nothing from anybody. -/
theorem commitEach_file (e : Event) (file : Option LineFile) (host : Host) :
    ∃ outcome, Recorder.commitEach e none host (file.map fun f => Recorder.sink (.lines f)).toList =
      (((Boot.noted host.elapsed (file, host.files) e).1.map fun f => Recorder.sink (.lines f)).toList,
        { host with files := (Boot.noted host.elapsed (file, host.files) e).2 }, outcome) := by
  cases file with
  | none => exact ⟨_, rfl⟩
  | some f =>
    have asked : (Recorder.sink (.lines f)).isRecording host = .ok (f.isOpen host.elapsed) := rfl
    simp only [Option.map_some, Option.toList_some, Recorder.commitEach, asked, Boot.noted]
    cases opened : f.isOpen host.elapsed with
    | false => exact ⟨_, rfl⟩
    | true =>
      simp only [Recorder.commit, Sink.commit, opened, if_true]
      cases (f.append host.files e).1 with
      | none => exact ⟨_, rfl⟩
      | some error => exact ⟨_, rfl⟩

/-- Whoever listens is told, and the others get the event all the same. -/
theorem commitEach_tracing (o : BootOptions) (listening : Bool) (e : Event) (host : Host) (others : List Recorder) :
    ∃ traced, Recorder.commitEach e none host
        ((if o.traceSteps then [.sink (.tracing listening)] else []) ++ others) =
      ((if o.traceSteps then [.sink (.tracing listening)] else []) ++
          (Recorder.commitEach e none { host with traced } others).1,
        (Recorder.commitEach e none { host with traced } others).2) := by
  cases o.traceSteps with
  | false => exact ⟨host.traced, rfl⟩
  | true =>
    cases listening with
    | false => exact ⟨host.traced, rfl⟩
    | true => exact ⟨host.traced ++ [e], rfl⟩

theorem after_crew (o : BootOptions) (listening : Bool) (events : List Event) (file : Option LineFile) (host : Host)
    (e : Event) :
    ∃ traced, Recorder.after (o.crew listening events file, host) e =
      (o.crew listening (events ++ [e]) (Boot.noted host.elapsed (file, host.files) e).1,
        { host with files := (Boot.noted host.elapsed (file, host.files) e).2, traced }) := by
  obtain ⟨traced, told⟩ :=
    commitEach_tracing o listening e host (file.map fun f => Recorder.sink (.lines f)).toList
  obtain ⟨_, last⟩ := commitEach_file e file { host with traced }
  rw [last] at told
  refine ⟨traced, ?_⟩
  simp only [Recorder.after, crew, Recorder.commit, List.cons_append, List.nil_append, Recorder.commitEach,
    Recorder.isRecording, Sink.isRecording, Sink.commit, told]

/-- Events that are committed one after the other are all remembered, and the file gets them in turn. -/
theorem foldl_crew (o : BootOptions) (listening : Bool) (events : List Event) (file : Option LineFile) (host : Host)
    (later : List Event) :
    ∃ traced, later.foldl Recorder.after (o.crew listening events file, host) =
      (o.crew listening (events ++ later) (later.foldl (Boot.noted host.elapsed) (file, host.files)).1,
        { host with files := (later.foldl (Boot.noted host.elapsed) (file, host.files)).2, traced }) := by
  induction later generalizing events file host with
  | nil => exact ⟨host.traced, by rw [List.append_nil]; rfl⟩
  | cons e rest ih =>
    obtain ⟨traced, first⟩ := after_crew o listening events file host e
    obtain ⟨last, run⟩ := ih (events ++ [e]) (Boot.noted host.elapsed (file, host.files) e).1
      { host with files := (Boot.noted host.elapsed (file, host.files) e).2, traced }
    refine ⟨last, ?_⟩
    rw [List.foldl_cons, first, run, List.append_assoc, List.singleton_append]
    rfl

/-- The memory of a boot is always recording. -/
theorem crew_eager (crewed : f.recorder = o.crew listening events file) : f.Eager := by
  intro g later handed
  obtain ⟨_, run⟩ := foldl_crew o listening events file f.host later
  rw [← crewed, ← handed.kept] at run
  have recorder := (Prod.mk.inj run).1
  apply Flight.isRecording_of_answer
  rw [recorder]
  rfl

end BootOptions
end LaunchTrace
