import LaunchTrace.Proofs.Files.System
import LaunchTrace.Recording.LineFile

/-! Files that refuse to be written. Whether a file does so is settled when it is opened. One that does keeps all that
is written to it in the buffer, so that the last flush fails as soon as there has been an event. -/
namespace LaunchTrace

namespace FileSystem

variable {fs : FileSystem} {handle : FileHandle} {e : FileError}

/-- What is wrong with writing to a place, if anything is. -/
def refusal? (fs : FileSystem) (place : Place) : Option FileError :=
  match fs.node? place with
  | some (.file _) | some .sink => none
  | some (.refusing e) => some e
  | some .directory => some .isDirectory
  | none => some .notFound

theorem write_refused (refused : fs.refusal? handle.place = some e) (bytes : Bytes) :
    fs.write handle bytes = .error e := by
  rw [refusal?] at refused
  rw [write]
  cases there : fs.node? handle.place with
  | none =>
    rw [there] at refused
    exact congrArg Except.error (Option.some.inj refused)
  | some node =>
    rw [there] at refused
    cases node with
    | file | sink => contradiction
    | refusing | directory => exact congrArg Except.error (Option.some.inj refused)

theorem write_allowed (allowed : fs.refusal? handle.place = none) (bytes : Bytes) :
    ∃ offset after, fs.write handle bytes = .ok ({ handle with offset }, after) ∧
      after.refusal? handle.place = none := by
  rw [refusal?] at allowed
  rw [write]
  cases there : fs.node? handle.place with
  | none =>
    rw [there] at allowed
    contradiction
  | some node =>
    rw [there] at allowed
    cases node with
    | file content =>
      have inner : handle.place ≠ [] := by
        intro root
        rw [root] at there
        cases there
      refine ⟨_, _, rfl, ?_⟩
      rw [refusal?, node?_put inner]
    | sink => exact ⟨_, fs, rfl, by rw [refusal?, there]⟩
    | refusing | directory => contradiction

end FileSystem

namespace LineFile

variable {f : LineFile} {fs : FileSystem} {e : FileError}

/-- What is wrong with writing to the file, if anything is. -/
def refusal? (f : LineFile) (fs : FileSystem) : Option FileError :=
  fs.refusal? f.handle.place

/-- A file that was just opened, with nothing in its buffer. -/
theorem create_eq {settings : RecordingSettings} {files : FileSystem} (created : create settings fs = .ok (f, files)) :
    ∃ handle, f = ⟨.ofText settings.filename, handle, [], settings.window⟩ := by
  unfold create at created
  split at created
  · contradiction
  · obtain ⟨rfl, _⟩ := Prod.mk.inj (Except.ok.inj created)
    exact ⟨_, rfl⟩

/-- An attempt leaves it at that. It only fails if the file refuses, and then something stays in the buffer. -/
structure Attempt.Steady (a : Attempt) (f : LineFile) (fs : FileSystem) : Prop where
  window : a.file.window = f.window
  refusal : a.file.refusal? a.files = f.refusal? fs
  allowed : f.refusal? fs = none → a.error = none
  stuck : f.refusal? fs ≠ none → f.buffered ≠ [] → a.file.buffered ≠ []

theorem Attempt.Steady.refl (f : LineFile) (fs : FileSystem) : Steady ⟨none, f, fs⟩ f fs :=
  ⟨rfl, rfl, fun _ => rfl, fun _ some => some⟩

theorem Attempt.Steady.trans {a b : Attempt} (first : a.Steady f fs) (second : b.Steady a.file a.files) :
    b.Steady f fs where
  window := second.window.trans first.window
  refusal := second.refusal.trans first.refusal
  allowed := by
    rw [← first.refusal]
    exact second.allowed
  stuck := by
    intro refused some
    exact second.stuck (first.refusal ▸ refused) (first.stuck refused some)

theorem writeThrough_refused (refused : f.refusal? fs = some e) (bytes : Bytes) :
    f.writeThrough fs bytes = ⟨some e, f, fs⟩ := by
  rw [writeThrough, FileSystem.write_refused refused]

theorem writeThrough_steady (f : LineFile) (fs : FileSystem) (bytes : Bytes) :
    (f.writeThrough fs bytes).Steady f fs := by
  cases refusal : f.refusal? fs with
  | some e =>
    rw [writeThrough_refused refusal]
    exact ⟨rfl, rfl, fun allowed => by rw [refusal] at allowed; contradiction, fun _ some => some⟩
  | none =>
    obtain ⟨offset, after, written, allowed⟩ := FileSystem.write_allowed refusal bytes
    rw [writeThrough, written]
    exact ⟨rfl, allowed.trans refusal.symm, fun _ => rfl, fun refused => absurd refusal refused⟩

/-- What is buffered for a file that refuses is never written out. -/
theorem flush_refused (refused : f.refusal? fs = some e) (some : f.buffered ≠ []) : f.flush fs = ⟨.some e, f, fs⟩ := by
  rw [flush, if_neg some, writeThrough_refused refused]

theorem flush_steady (f : LineFile) (fs : FileSystem) : (f.flush fs).Steady f fs := by
  cases refusal : f.refusal? fs with
  | some e =>
    by_cases empty : f.buffered = []
    · rw [flush, if_pos empty]
      exact .refl f fs
    · rw [flush_refused refusal empty]
      exact ⟨rfl, rfl, fun allowed => by rw [refusal] at allowed; contradiction, fun _ some => some⟩
  | none =>
    have through := writeThrough_steady f fs f.buffered
    unfold flush
    split
    · exact .refl f fs
    · split
      · rename_i done
        rw [done] at through
        exact ⟨through.window, through.refusal, fun _ => rfl, fun refused => absurd refusal refused⟩
      · exact through

theorem makeRoom_steady (f : LineFile) (fs : FileSystem) (fragment : Bytes) :
    (f.makeRoom fs fragment).Steady f fs := by
  unfold makeRoom
  split
  · exact flush_steady f fs
  · exact .refl f fs

theorem put_steady (f : LineFile) (fs : FileSystem) (fragment : Bytes) : (f.put fs fragment).Steady f fs := by
  have room := makeRoom_steady f fs fragment
  unfold put
  split
  · rename_i g files made
    rw [made] at room
    refine room.trans ?_
    dsimp only
    split
    · exact writeThrough_steady g files fragment
    · exact ⟨rfl, rfl, fun _ => rfl, fun _ some => List.append_ne_nil_of_left_ne_nil some _⟩
  · exact room

theorem putAll_steady (fragments : List Bytes) (f : LineFile) (fs : FileSystem) :
    (putAll fragments f fs).Steady f fs := by
  induction fragments generalizing f fs with
  | nil => exact .refl f fs
  | cons fragment rest ih =>
    have first := put_steady f fs fragment
    unfold putAll
    split
    · rename_i g files done
      rw [done] at first
      exact first.trans (ih g files)
    · exact first

/-- A short fragment is in the buffer, whatever had to make room for it. -/
theorem put_some {fragment : Bytes} (refused : f.refusal? fs ≠ none) (some : fragment ≠ [])
    (short : fragment.length < capacity) : (f.put fs fragment).file.buffered ≠ [] := by
  by_cases empty : f.buffered = []
  · have room : ¬ capacity - f.buffered.length < fragment.length := by
      rw [empty, List.length_nil]
      omega
    rw [put, makeRoom, if_neg room]
    dsimp only
    rw [if_neg (by omega)]
    exact List.append_ne_nil_of_right_ne_nil _ some
  · exact (put_steady f fs fragment).stuck refused empty

/-- An event leaves something in the buffer, if the file refuses. -/
theorem append_steady (f : LineFile) (fs : FileSystem) (e : Event) :
    ∃ a : Attempt, (f.append fs e).2 = (a.file, a.files) ∧ a.Steady f fs ∧
      (f.refusal? fs ≠ none → a.file.buffered ≠ []) := by
  have line := putAll_steady (e.fragments.map Text.Utf8.encode) f fs
  -- The first fragment is a brace, which never goes past the buffer.
  have brace (refused : f.refusal? fs ≠ none) :
      (putAll (e.fragments.map Text.Utf8.encode) f fs).file.buffered ≠ [] := by
    have first : (f.put fs (Text.Utf8.encode ['{'])).file.buffered ≠ [] := put_some refused (by decide) (by decide)
    have steady := put_steady f fs (Text.Utf8.encode ['{'])
    rw [Event.fragments, List.cons_append, List.map_cons, putAll]
    split
    · rename_i g files done
      rw [done] at first steady
      refine (putAll_steady _ g files).stuck ?_ first
      exact steady.refusal ▸ refused
    · exact first
  unfold append
  split
  · rename_i error g files failed
    rw [failed] at line brace
    exact ⟨_, rfl, line, brace⟩
  · rename_i g files done
    rw [done] at line brace
    have ended := line.trans (put_steady g files [lineFeed])
    have last (refused : f.refusal? fs ≠ none) : (g.put files [lineFeed]).file.buffered ≠ [] :=
      (put_steady g files [lineFeed]).stuck (line.refusal ▸ refused) (brace refused)
    split
    · rename_i failed
      rw [failed] at ended last
      exact ⟨_, rfl, ended, last⟩
    · rename_i later put
      rw [put] at ended last
      exact ⟨_, rfl, ended.trans (flush_steady _ _), fun refused =>
        (flush_steady _ _).stuck (ended.refusal ▸ refused) (last refused)⟩

end LineFile
end LaunchTrace
