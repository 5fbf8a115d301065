import LaunchTrace.Proofs.Files.System
import LaunchTrace.Proofs.Recording.Line
import LaunchTrace.Proofs.Text.Utf8

/-! Appending to a regular file. The bytes in the file and those still in the buffer are together what was written,
whichever of them a fragment goes to; at the end of a line all of them are in the file. -/
namespace LaunchTrace.LineFile

variable {f : LineFile} {fs : FileSystem} {text bytes : Bytes}

/-- The file lies where its path leads to, and its content and the buffer make up the text. -/
structure Written (f : LineFile) (fs : FileSystem) (text : Bytes) : Prop where
  located : fs.locate f.path = .ok f.handle.place
  parts : ∃ content, fs.node? f.handle.place = some (.file content) ∧ f.handle.offset = content.length ∧
    content ++ f.buffered = text

/-- The file is found and has the text in it, with nothing left in the buffer. -/
structure Settled (f : LineFile) (fs : FileSystem) (text : Bytes) : Prop where
  written : f.Written fs text
  empty : f.buffered = []

theorem Settled.read (settled : f.Settled fs text) : fs.read f.path = .ok text := by
  obtain ⟨content, there, _, parts⟩ := settled.written.parts
  rw [settled.empty, List.append_nil] at parts
  rw [FileSystem.read_of_node settled.written.located there, parts]

/-- The attempt went well: the file has the text now, and all else about it is as before. -/
structure Attempt.Reaches (a : Attempt) (f : LineFile) (text : Bytes) : Prop where
  done : a.error = none
  path : a.file.path = f.path
  window : a.file.window = f.window
  written : a.file.Written a.files text

theorem Attempt.Reaches.eq {a : Attempt} (reaches : a.Reaches f text) : a = ⟨none, a.file, a.files⟩ := by
  obtain ⟨error, file, files⟩ := a
  obtain rfl : error = none := reaches.done
  rfl

theorem Attempt.Reaches.trans {a b : Attempt} {more : Bytes} (first : a.Reaches f text)
    (second : b.Reaches a.file more) : b.Reaches f more where
  done := second.done
  path := second.path.trans first.path
  window := second.window.trans first.window
  written := second.written

/-- A file is empty when it is created. -/
theorem create_settled {settings : RecordingSettings} {files : FileSystem}
    (regular : fs.Regular (.ofText settings.filename)) (created : create settings fs = .ok (f, files)) :
    f.Settled files [] := by
  unfold create at created
  cases made : fs.create (.ofText settings.filename) with
  | error e =>
    rw [made] at created
    contradiction
  | ok opened =>
    rw [made] at created
    obtain ⟨rfl, rfl⟩ := Prod.mk.inj (Except.ok.inj created)
    obtain ⟨located, there, start⟩ := FileSystem.create_ok regular made
    exact ⟨⟨located, [], there, start, rfl⟩, rfl⟩

/-- Bytes that go past an empty buffer are behind all others. -/
theorem writeThrough_reaches {content : Bytes} (located : fs.locate f.path = .ok f.handle.place)
    (there : fs.node? f.handle.place = some (.file content)) (last : f.handle.offset = content.length) (bytes : Bytes) :
    ∃ handle files, f.writeThrough fs bytes = ⟨none, { f with handle }, files⟩ ∧
      files.locate f.path = .ok handle.place ∧ files.node? handle.place = some (.file (content ++ bytes)) ∧
      handle.offset = (content ++ bytes).length := by
  have inner : f.handle.place ≠ [] := by
    intro root
    rw [root] at there
    cases there
  rw [writeThrough, FileSystem.write_end there last]
  exact ⟨_, _, rfl, FileSystem.locate_put (by rw [there]; simp) located, FileSystem.node?_put inner, rfl⟩

/-- Once flushed, all that was written is in the file. -/
theorem flush_reaches (written : f.Written fs text) :
    (f.flush fs).Reaches f text ∧ (f.flush fs).file.buffered = [] := by
  obtain ⟨located, content, there, last, rfl⟩ := written
  unfold flush
  split
  · rename_i none
    exact ⟨⟨rfl, rfl, rfl, located, content, there, last, rfl⟩, none⟩
  · obtain ⟨handle, files, done, located, there, last⟩ := writeThrough_reaches located there last f.buffered
    rw [done]
    exact ⟨⟨rfl, rfl, rfl, located, _, there, last, List.append_nil _⟩, rfl⟩

/-- Where a fragment goes past the buffer, the buffer is empty. -/
theorem makeRoom_reaches (written : f.Written fs text) (fragment : Bytes) :
    (f.makeRoom fs fragment).Reaches f text ∧
      (capacity ≤ fragment.length → (f.makeRoom fs fragment).file.buffered = []) := by
  unfold makeRoom
  split
  · obtain ⟨reaches, empty⟩ := flush_reaches written
    exact ⟨reaches, fun _ => empty⟩
  · rename_i fits
    refine ⟨⟨rfl, rfl, rfl, written⟩, fun large => ?_⟩
    change f.buffered = []
    have some : 0 < capacity := by decide
    exact List.eq_nil_of_length_eq_zero (by omega)

theorem put_reaches (written : f.Written fs text) (fragment : Bytes) :
    (f.put fs fragment).Reaches f (text ++ fragment) := by
  obtain ⟨room, empty⟩ := makeRoom_reaches written fragment
  refine room.trans ?_
  unfold put
  rw [room.eq]
  dsimp only
  obtain ⟨located, content, there, last, parts⟩ := room.written
  split
  · -- The fragment does not overtake anything: all that was buffered is in the file.
    rename_i large
    rw [empty large, List.append_nil] at parts
    obtain ⟨handle, files, through, located, there, last⟩ := writeThrough_reaches located there last fragment
    rw [through]
    refine ⟨rfl, rfl, rfl, located, _, there, last, ?_⟩
    rw [empty large, parts, List.append_nil]
  · refine ⟨rfl, rfl, rfl, located, content, there, last, ?_⟩
    rw [← List.append_assoc, parts]

theorem putAll_reaches (written : f.Written fs text) (fragments : List Bytes) :
    (putAll fragments f fs).Reaches f (text ++ fragments.flatten) := by
  induction fragments generalizing f fs text with
  | nil =>
    rw [List.flatten_nil, List.append_nil]
    exact ⟨rfl, rfl, rfl, written⟩
  | cons fragment rest ih =>
    have first := put_reaches written fragment
    unfold putAll
    rw [first.eq, List.flatten_cons, ← List.append_assoc]
    exact first.trans (ih first.written)

/-- An event makes one line, which is in the file when the event has been appended. -/
theorem append_settled (settled : f.Settled fs text) (e : Event) :
    ∃ after files, f.append fs e = (none, after, files) ∧ after.path = f.path ∧ after.window = f.window ∧
      after.Settled files (text ++ (Text.Utf8.encode e.line ++ [lineFeed])) := by
  have line := putAll_reaches settled.written (e.fragments.map Text.Utf8.encode)
  rw [← Text.Utf8.encode_flatten, e.fragments_flatten] at line
  have ended := put_reaches line.written [lineFeed]
  obtain ⟨flushed, empty⟩ := flush_reaches ended.written
  have reaches := line.trans (ended.trans flushed)
  unfold append
  rw [line.eq]
  dsimp only
  rw [ended.eq]
  dsimp only
  rw [flushed.eq]
  refine ⟨_, _, rfl, reaches.path, reaches.window, ?_⟩
  rw [← List.append_assoc]
  exact ⟨reaches.written, empty⟩

end LaunchTrace.LineFile
