import LaunchTrace.Proofs.Recording.Reader

/-! Recordings one behind the other. A content that ends with a line is read on its own, whatever comes behind it, and
the lines behind it are numbered on. So reading stops at the first line that cannot be read, and the number in the error
counts all lines before that one. -/
namespace LaunchTrace

/-- The error as it is where so many more lines come before. -/
def RecordingError.shifted (lines : Nat) : RecordingError → RecordingError
  | .malformedLine path line => .malformedLine path (line + lines)
  | error => error

namespace Recording

variable {path : Path} {number : Nat} {a b content : Bytes} {error : RecordingError}

/-- The last line of the content, if there is one, has its end. -/
def Ended (content : Bytes) : Prop :=
  content = [] ∨ content.getLast? = some lineFeed

instance : Decidable (Ended content) :=
  inferInstanceAs (Decidable (_ ∨ _))

theorem ended_concat (body : Bytes) : Ended (body ++ [lineFeed]) :=
  .inr List.getLast?_concat

theorem Ended.cases (ended : Ended content) : content = [] ∨ ∃ body, content = body ++ [lineFeed] := by
  refine ended.imp_right fun last => ?_
  obtain ⟨body, same⟩ := List.getLast?_eq_some_iff.mp last
  exact ⟨body, same⟩

theorem Ended.append (first : Ended a) (second : Ended b) : Ended (a ++ b) := by
  obtain rfl | ⟨body, rfl⟩ := second.cases
  · rwa [List.append_nil]
  · rw [← List.append_assoc]
    exact ended_concat _

theorem lines_ended (body : Bytes) : lines (body ++ [lineFeed]) = (Text.pieces lineFeed body).map chomp := by
  have split : Text.pieces lineFeed (body ++ [lineFeed]) = Text.pieces lineFeed body ++ [[]] :=
    Text.pieces_parted body []
  rw [lines, split]
  simp

/-- Lines that have their ends stay the same whatever follows. -/
theorem lines_append (ended : Ended a) (b : Bytes) : lines (a ++ b) = lines a ++ lines b := by
  obtain rfl | ⟨body, rfl⟩ := ended.cases
  · rfl
  · obtain ⟨piece, found, split⟩ := Text.pieces_cons lineFeed b
    rw [lines_ended, List.append_assoc, List.singleton_append, lines, lines, Text.pieces_parted, split]
    simp [List.getLastD_eq_getLast?, List.getLast?_cons]

theorem length_lines (ended : Ended content) : (lines content).length = content.count lineFeed := by
  obtain rfl | ⟨body, rfl⟩ := ended.cases
  · rfl
  · rw [lines_ended, List.length_map, Text.length_pieces, List.count_append, List.count_singleton_self]

theorem lineEvent?_shifted (line : Bytes) (more : Nat) :
    lineEvent? path (number + more) line = (lineEvent? path number line).mapError (·.shifted more) := by
  unfold lineEvent?
  split
  · rfl
  · split
    · rfl
    · split <;> rfl

/-- With more lines before them, lines are read as the same events, and fail with the number moved on. -/
theorem eventsFrom_shifted (found : List Bytes) (more : Nat) :
    eventsFrom path (number + more) found = (eventsFrom path number found).mapError (·.shifted more) := by
  induction found generalizing number with
  | nil => rfl
  | cons line rest ih =>
    rw [eventsFrom, eventsFrom, lineEvent?_shifted, Nat.add_right_comm, ih]
    cases lineEvent? path number line with
    | error _ => rfl
    | ok _ => cases eventsFrom path (number + 1) rest <;> rfl

theorem eventsFrom_append (first second : List Bytes) :
    eventsFrom path number (first ++ second) =
      (eventsFrom path number first).bind fun events =>
        (eventsFrom path (number + first.length) second).map (events ++ ·) := by
  induction first generalizing number with
  | nil =>
    rw [List.nil_append, List.length_nil, Nat.add_zero]
    cases eventsFrom path number second <;> rfl
  | cons line rest ih =>
    rw [List.cons_append, eventsFrom, eventsFrom, ih, List.length_cons, Nat.add_right_comm, Nat.add_assoc]
    cases lineEvent? path number line with
    | error _ => rfl
    | ok event =>
      cases eventsFrom path (number + 1) rest with
      | error _ => rfl
      | ok events =>
        cases eventsFrom path (number + (rest.length + 1)) second with
        | error _ => rfl
        | ok more => exact congrArg Except.ok (List.append_assoc _ _ _).symm

/-- What comes first decides first, and what comes after it is read as if it stood alone. -/
theorem ofBytes_append (ended : Ended a) (b : Bytes) :
    ofBytes path (a ++ b) =
      (ofBytes path a).bind fun events =>
        ((ofBytes path b).mapError (·.shifted (a.count lineFeed))).map (events ++ ·) := by
  rw [ofBytes, lines_append ended, eventsFrom_append, length_lines ended, eventsFrom_shifted]
  rfl

theorem read_eq {files : FileSystem} (there : files.read path = .ok content) :
    read files path = ofBytes path content := by
  rw [read, there]

theorem ofBytes_append_error (ended : Ended a) (failed : ofBytes path a = .error error) (b : Bytes) :
    ofBytes path (a ++ b) = .error error := by
  rw [ofBytes_append ended, failed]
  rfl

/-! ## Where reading stops -/

/-- All lines before a line are read, and the line is not. It has its end, or it is the last of all. -/
structure StopsAt (path : Path) (error : RecordingError) (before line after : Bytes) : Prop where
  ended : Ended before
  single : lineFeed ∉ line.dropLast
  last : line.getLast? = some lineFeed ∨ after = []
  read : ∃ events, ofBytes path before = .ok events
  reported : error = .io .notText ∨ error = .malformedLine path (before.count lineFeed + 1)
  settled : ofBytes path (before ++ line) = .error error
  /-- Nothing that comes after the line counts. -/
  final : line.getLast? = some lineFeed → ∀ other, ofBytes path (before ++ line ++ other) = .error error

theorem lineEvent?_error {line : Bytes} (failed : lineEvent? path number line = .error error) :
    error = .io .notText ∨ error = .malformedLine path number := by
  unfold lineEvent? at failed
  split at failed
  · exact .inl (Except.error.inj failed).symm
  · split at failed
    · contradiction
    · split at failed
      · contradiction
      · exact .inr (Except.error.inj failed).symm

theorem lines_unended {text : Bytes} (some : text ≠ []) (plain : lineFeed ∉ text) : lines text = [text] := by
  rw [lines, Text.pieces_of_notMem plain]
  simp [some]

/-- Bytes without the end of a line before the last of them are one line. -/
theorem lines_single {line : Bytes} (some : line ≠ []) (single : lineFeed ∉ line.dropLast) :
    ∃ text, lines line = [text] := by
  obtain ⟨body, last, rfl⟩ := (List.eq_nil_or_concat' line).resolve_left some
  rw [List.dropLast_concat] at single
  by_cases ended : last = lineFeed
  · rw [ended, lines_ended, Text.pieces_of_notMem single]
    exact ⟨chomp body, rfl⟩
  · exact ⟨_, lines_unended some (by simpa [Ne.symm ended] using single)⟩

theorem ofBytes_single_error {line : Bytes} (some : line ≠ []) (single : lineFeed ∉ line.dropLast)
    (failed : ofBytes path line = .error error) : error = .io .notText ∨ error = .malformedLine path 1 := by
  obtain ⟨text, only⟩ := lines_single some single
  rw [ofBytes, only, eventsFrom] at failed
  cases read : lineEvent? path 1 text with
  | error e =>
    rw [read] at failed
    obtain rfl := Except.error.inj failed
    exact lineEvent?_error read
  | ok event =>
    rw [read] at failed
    contradiction

/-- A content is read line by line: up to and including the end of its first line, and then on. -/
theorem content_induction {motive : Bytes → Prop} (nil : motive [])
    (line : ∀ line rest : Bytes, line ≠ [] → lineFeed ∉ line.dropLast →
      line.getLast? = some lineFeed ∨ rest = [] → motive rest → motive (line ++ rest))
    (content : Bytes) : motive content := by
  induction length : content.length using Nat.strongRecOn generalizing content with
  | _ n ih =>
    subst length
    by_cases ended : lineFeed ∈ content
    · obtain ⟨body, rest, rfl, single⟩ := List.eq_append_cons_of_mem ended
      have shorter : rest.length < (body ++ lineFeed :: rest).length := by
        rw [List.length_append, List.length_cons]
        omega
      rw [List.append_cons]
      exact line _ rest (by simp) (by rwa [List.dropLast_concat]) (.inl List.getLast?_concat) (ih _ shorter rest rfl)
    · by_cases none : content = []
      · rwa [none]
      · rw [← List.append_nil content]
        exact line content [] none (fun member => ended (List.dropLast_subset _ member)) (.inr rfl) nil

/-- Lines that are read move the place on. -/
theorem StopsAt.behind {first before line after : Bytes} {events : List Event} (ended : Ended first)
    (read : ofBytes path first = .ok events) (stops : StopsAt path error before line after) :
    StopsAt path (error.shifted (first.count lineFeed)) (first ++ before) line after := by
  have moved (rest : Bytes) (failed : ofBytes path rest = .error error) :
      ofBytes path (first ++ rest) = .error (error.shifted (first.count lineFeed)) := by
    rw [ofBytes_append ended, read, failed]
    rfl
  refine ⟨ended.append stops.ended, stops.single, stops.last, ?_, ?_, ?_, ?_⟩
  · obtain ⟨more, others⟩ := stops.read
    exact ⟨events ++ more, by rw [ofBytes_append ended, read, others]; rfl⟩
  · rcases stops.reported with rfl | rfl
    · exact .inl rfl
    · right
      rw [RecordingError.shifted, List.count_append]
      congr 1
      omega
  · rw [List.append_assoc]
    exact moved _ stops.settled
  · intro whole other
    rw [List.append_assoc, List.append_assoc, ← List.append_assoc before]
    exact moved _ (stops.final whole other)

theorem ofBytes_stops (failed : ofBytes path content = .error error) :
    ∃ before line after, content = before ++ line ++ after ∧ StopsAt path error before line after := by
  induction content using content_induction generalizing error with
  | nil => contradiction
  | line line rest some single last ih =>
    cases read : ofBytes path line with
    | error e =>
      have same : e = error := by
        rcases last with whole | rfl
        · exact Except.error.inj ((ofBytes_append_error (.inr whole) read rest).symm.trans failed)
        · rw [List.append_nil, read] at failed
          exact Except.error.inj failed
      subst same
      exact ⟨[], line, rest, rfl, .inl rfl, single, last, ⟨[], rfl⟩, ofBytes_single_error some single read, read,
        fun whole => ofBytes_append_error (.inr whole) read⟩
    | ok events =>
      rcases last with whole | rfl
      · cases later : ofBytes path rest with
        | error e =>
          rw [ofBytes_append (.inr whole), read, later] at failed
          obtain rfl := Except.error.inj failed
          obtain ⟨before, bad, after, rfl, stops⟩ := ih later
          exact ⟨line ++ before, bad, after, by simp, stops.behind (.inr whole) read⟩
        | ok more =>
          rw [ofBytes_append (.inr whole), read, later] at failed
          contradiction
      · rw [List.append_nil, read] at failed
        contradiction

/-- Of two recordings in one file the first is read, with its error if it has one, and then the second, whose lines
are numbered on. Reading a file stops at a line whose number counts all lines before it, whatever they hold, and nothing
behind that line counts. -/
theorem read_concatenated {front back whole : FileSystem} (ended : Ended a) (first : front.read path = .ok a)
    (second : back.read path = .ok b) (both : whole.read path = .ok (a ++ b)) :
    (read whole path =
      match read front path, read back path with
      | .error error, _ => .error error
      | .ok events, .ok more => .ok (events ++ more)
      | .ok _, .error error => .error (error.shifted (a.count lineFeed))) ∧
      ∀ (files : FileSystem) (content : Bytes) (error : RecordingError), files.read path = .ok content →
        read files path = .error error →
          ∃ before line after, content = before ++ line ++ after ∧ StopsAt path error before line after := by
  refine ⟨?_, fun files content error there failed => ofBytes_stops (by rwa [← read_eq there])⟩
  rw [read_eq first, read_eq second, read_eq both, ofBytes_append ended]
  cases ofBytes path a with
  | error _ => rfl
  | ok events => cases ofBytes path b <;> rfl

/-- Blank lines with both kinds of ends before an event, and behind it a blank line before one that is no event. -/
theorem read_continued :
    let path := Path.ofText "run.jsonl"
    let holding (content : Bytes) : FileSystem := ⟨[], [([path.bytes], .file content)]⟩
    let event : Event := ⟨"step", 1, 0, "app", "[]", ⟨⟨2024, 1, 1⟩, 0, 0, 0, 0⟩, 5⟩
    let a := Text.Utf8.encode "\r\n \n".toList ++ (lineBytes event ++ [lineFeed])
    let b := Text.Utf8.encode "\n[]\r\n".toList
    read (holding a) path = .ok [event] ∧ read (holding b) path = .error (.malformedLine path 2) ∧
      read (holding (a ++ b)) path = .error (.malformedLine path 5) := by
  intro path holding event a b
  have front : read (holding a) path = .ok [event] := by decide +kernel
  have back : read (holding b) path = .error (.malformedLine path 2) := by decide +kernel
  have ended : Ended a := by decide +kernel
  have first : (holding a).read path = .ok a := rfl
  have second : (holding b).read path = .ok b := rfl
  have both : (holding (a ++ b)).read path = .ok (a ++ b) := rfl
  have lines : a.count lineFeed = 3 := by decide +kernel
  refine ⟨front, back, ?_⟩
  rw [(read_concatenated ended first second both).1, front, back, lines]
  rfl

end Recording
end LaunchTrace
