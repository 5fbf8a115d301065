import LaunchTrace.Proofs.Json.Cut
import LaunchTrace.Proofs.Recording.Concatenation
import LaunchTrace.Proofs.Recording.RoundTrip
import LaunchTrace.Proofs.Text.Cut

/-! Recordings that are cut off. The events of the lines that are complete are read, and no beginning of a line is an
event or blank, so that reading fails at the line that the cut went through. -/
namespace LaunchTrace

variable {e : Event} {events : List Event}

theorem Event.parse_cut {front back : List Char} (whole : e.line = front ++ back) (begun : front ≠ [])
    (cut : back ≠ []) : Json.parse front = none :=
  Json.parse_cut e.toJson_plain whole begun cut

namespace Recording

variable {path : Path} {number : Nat} {part back : Bytes} {error : RecordingError}

/-- The text of a recording of the events. -/
def recorded (events : List Event) : List Char :=
  events.flatMap fun e => e.line ++ ['\n']

theorem encode_recorded (events : List Event) :
    Text.Utf8.encode (recorded events) = joined (events.map lineBytes) := by
  induction events with
  | nil => rfl
  | cons e rest ih =>
    rw [recorded, List.flatMap_cons, ← recorded, Text.Utf8.encode_append, ih, Text.Utf8.encode_concat]
    rfl

theorem encode_recorded_cons (e : Event) (events : List Event) :
    Text.Utf8.encode (recorded (e :: events)) =
      lineBytes e ++ lineFeed :: Text.Utf8.encode (recorded events) := by
  rw [encode_recorded, encode_recorded, List.map_cons, joined, List.flatMap_cons, List.append_assoc]
  rfl

theorem ended_recorded (events : List Event) : Ended (Text.Utf8.encode (recorded events)) := by
  induction events with
  | nil => exact .inl rfl
  | cons e events ih =>
    rw [encode_recorded_cons, List.append_cons]
    exact (ended_concat _).append ih

/-- What is left of a recording are the lines of some events and the beginning of the next one, if there is a next. -/
theorem recorded_cut (beginning : part <+: Text.Utf8.encode (recorded events)) :
    ∃ k ≤ events.length, ∃ rest, part = Text.Utf8.encode (recorded (events.take k)) ++ rest ∧
      (rest = [] ∨ ∃ e ∈ events[k]?, rest <+: lineBytes e) := by
  induction events generalizing part with
  | nil => exact ⟨0, Nat.le_refl _, [], List.prefix_nil.mp beginning, .inl rfl⟩
  | cons e events ih =>
    rw [encode_recorded_cons, List.append_cons] at beginning
    by_cases through : (lineBytes e ++ [lineFeed]).length ≤ part.length
    · obtain ⟨later, rfl⟩ := List.prefix_of_prefix_length_le (List.prefix_append _ _) beginning through
      rw [List.prefix_append_right_inj] at beginning
      obtain ⟨k, most, rest, rfl, last⟩ := ih beginning
      exact ⟨k + 1, Nat.succ_le_succ most, rest, by simp [encode_recorded_cons], last⟩
    · refine ⟨0, Nat.zero_le _, part, rfl, .inr ⟨e, rfl, ?_⟩⟩
      rw [List.length_append, List.length_singleton] at through
      rw [List.append_assoc] at beginning
      exact List.prefix_of_prefix_length_le beginning (List.prefix_append _ _) (by omega)

/-- The error for a line that is no event: it is no text, or else a text in which there is none. -/
def lineError (path : Path) (number : Nat) (line : Bytes) : RecordingError :=
  match Text.Utf8.decode line with
  | none => .io .notText
  | some _ => .malformedLine path number

theorem lineError_shifted (more : Nat) :
    (lineError path number part).shifted more = lineError path (number + more) part := by
  unfold lineError
  split <;> rfl

/-- A text before the line makes no difference. -/
theorem lineError_append (text : List Char) (line : Bytes) :
    lineError path number (Text.Utf8.encode text ++ line) = lineError path number line := by
  rw [lineError, lineError, Text.Utf8.decode, Text.Utf8.decodeFrom_append (Text.Utf8.decode_encode text),
    ← Text.Utf8.decode]
  cases Text.Utf8.decode line <;> rfl

/-- A line that lacks something at its end is neither an event nor blank. -/
theorem lineEvent?_cut (whole : lineBytes e = part ++ back) (begun : part ≠ []) (cut : back ≠ []) :
    lineEvent? path number part = .error (lineError path number part) := by
  have beginning : part <+: Text.Utf8.encode e.line := ⟨back, whole.symm⟩
  rcases Text.Utf8.front_or_cutInside beginning with ⟨front, ⟨rest, line⟩, rfl⟩ | inside
  · have some : front ≠ [] := by
      rintro rfl
      exact begun rfl
    have lacking : rest ≠ [] := by
      rintro rfl
      rw [List.append_nil] at line
      rw [line] at whole
      exact cut (List.self_eq_append_right.mp whole)
    obtain ⟨inner, braces⟩ := e.line_braces
    obtain ⟨c, tail, rfl⟩ := List.exists_cons_of_ne_nil some
    obtain rfl : c = '{' := by
      rw [braces, List.cons_append] at line
      exact (List.cons.inj line).1
    have visible : Text.isBlankText ('{' :: tail) = false := by
      rw [Text.isBlankText, List.all_cons]
      rfl
    rw [lineEvent?, Text.Utf8.decode_encode]
    dsimp only
    rw [visible, Event.parse_cut line.symm some lacking, lineError, Text.Utf8.decode_encode]
    rfl
  · rw [lineEvent?, lineError, Text.Utf8.decode_of_cutInside beginning inside]

theorem ofBytes_unended {text : Bytes} (some : text ≠ []) (plain : lineFeed ∉ text) :
    ofBytes path text = (lineEvent? path 1 text).map Option.toList := by
  rw [ofBytes, lines_unended some plain, eventsFrom]
  cases lineEvent? path 1 text with
  | error _ => rfl
  | ok event => exact congrArg Except.ok (List.append_nil _)

/-- The cut leaves the lines of the first events, the last of them perhaps without its end. -/
def LeavesLines (events : List Event) (k : Nat) (part : Bytes) : Prop :=
  part = Text.Utf8.encode (recorded (events.take k)) ∨
    part ++ [lineFeed] = Text.Utf8.encode (recorded (events.take k))

instance {k : Nat} : Decidable (LeavesLines events k part) :=
  inferInstanceAs (Decidable (_ ∨ _))

theorem ofBytes_recorded (valid : ∀ e ∈ events, e.startTime.Valid) :
    ofBytes path (Text.Utf8.encode (recorded events)) = .ok events := by
  rw [encode_recorded]
  exact ofBytes_lineBytes valid

theorem encode_recorded_concat (front : List Event) (e : Event) :
    Text.Utf8.encode (recorded (front ++ [e])) =
      Text.Utf8.encode (recorded front) ++ lineBytes e ++ [lineFeed] := by
  rw [recorded, List.flatMap_append, List.flatMap_singleton, ← recorded, Text.Utf8.encode_append,
    Text.Utf8.encode_concat, ← List.append_assoc]
  rfl

/-- The end of the last line does not count. -/
theorem ofBytes_of_unended (valid : ∀ e ∈ events, e.startTime.Valid)
    (whole : part ++ [lineFeed] = Text.Utf8.encode (recorded events)) : ofBytes path part = .ok events := by
  obtain rfl | ⟨front, e, rfl⟩ := List.eq_nil_or_concat' events
  · exact absurd whole (List.append_ne_nil_of_right_ne_nil part (List.cons_ne_nil _ _))
  · rw [encode_recorded_concat] at whole
    have last : ofBytes path (lineBytes e) = .ok [e] := by
      rw [ofBytes_unended (lineBytes_ne_nil e) (lineFeed_notMem_lineBytes e),
        lineEvent?_lineBytes (valid e List.mem_concat_self)]
      rfl
    rw [List.append_cancel_right whole, ofBytes_append (ended_recorded front), last,
      ofBytes_recorded fun other member => valid other (List.mem_append_left _ member)]
    rfl

theorem LeavesLines.ofBytes {k : Nat} (valid : ∀ e ∈ events.take k, e.startTime.Valid)
    (leaves : LeavesLines events k part) : ofBytes path part = .ok (events.take k) := by
  rcases leaves with rfl | whole
  · exact ofBytes_recorded valid
  · exact ofBytes_of_unended valid whole

theorem count_recorded (events : List Event) : (Text.Utf8.encode (recorded events)).count lineFeed = events.length := by
  rw [encode_recorded, count_lineBytes]

theorem stopsAt_unended {line : Bytes} (some : line ≠ []) (plain : lineFeed ∉ line)
    (failed : lineEvent? path 1 line = .error error) : StopsAt path error [] line [] := by
  have single : lineFeed ∉ line.dropLast := fun member => plain (List.dropLast_subset _ member)
  have settled : ofBytes path line = .error error := by
    rw [ofBytes_unended some plain, failed]
    rfl
  exact ⟨.inl rfl, single, .inr rfl, ⟨[], rfl⟩, lineEvent?_error failed, settled,
    fun ended => absurd (List.mem_of_getLast? ended) plain⟩

/-- Where more is left than lines, reading stops at what is left of the next line. -/
theorem recorded_stops (valid : ∀ e ∈ events, e.startTime.Valid)
    (beginning : part <+: Text.Utf8.encode (recorded events)) (inside : ∀ k ≤ events.length, ¬ LeavesLines events k part) :
    ∃ k line, part = Text.Utf8.encode (recorded (events.take k)) ++ line ∧ part.count lineFeed = k ∧
      StopsAt path (lineError path (k + 1) part) (Text.Utf8.encode (recorded (events.take k))) line [] := by
  obtain ⟨k, most, line, rfl, none | ⟨e, next, back, whole⟩⟩ := recorded_cut beginning
  · rw [none, List.append_nil] at inside
    exact absurd (.inl rfl) (inside k most)
  · have begun : line ≠ [] := by
      rintro rfl
      rw [List.append_nil] at inside
      exact inside k most (.inl rfl)
    have cut : back ≠ [] := by
      rintro rfl
      rw [List.append_nil] at whole
      refine inside (k + 1) (List.getElem?_eq_some_iff.mp next).1 (.inr ?_)
      rw [List.take_add_one, next, Option.toList_some, encode_recorded_concat, whole]
    have plain : lineFeed ∉ line := fun member =>
      lineFeed_notMem_lineBytes e (whole ▸ List.mem_append_left back member)
    have lines : (Text.Utf8.encode (recorded (events.take k))).count lineFeed = k := by
      rw [count_recorded, List.length_take_of_le most]
    have before : ofBytes path (Text.Utf8.encode (recorded (events.take k))) = .ok (events.take k) :=
      ofBytes_recorded fun other member => valid other (List.mem_of_mem_take member)
    have stops := (stopsAt_unended begun plain (lineEvent?_cut whole.symm begun cut)).behind (ended_recorded _) before
    rw [lineError_shifted, lines, Nat.add_comm, List.append_nil] at stops
    refine ⟨k, line, rfl, ?_, ?_⟩
    · rw [List.count_append, lines, List.count_eq_zero.mpr plain, Nat.add_zero]
    · rwa [lineError_append]

/-- Of a recording that was cut off, the events of its lines are read if the cut is at the end of a line, before or
behind the mark of that end. Otherwise reading fails at the line that was cut: it is no event, and no text if the cut is
inside a character. -/
theorem read_truncated {settings : RecordingSettings} {host : Host} {f : LineFile} {files : FileSystem}
    {timed : List (Duration × Event)} (regular : host.files.Regular (.ofText settings.filename))
    (created : LineFile.create settings host.files = .ok (f, files))
    (opened : ∀ entry ∈ timed, f.isOpen entry.1 = true) (valid : ∀ entry ∈ timed, entry.2.startTime.Valid) :
    ∃ r after,
      (Recorder.sink (.lines f)).commitAll { host with files } timed = (timed.map fun _ => .done, r, after) ∧
      after.files.read f.path = .ok (Text.Utf8.encode (recorded (timed.map (·.2)))) ∧
      ∀ (cut : FileSystem) (path : Path) (part : Bytes), cut.read path = .ok part →
        part <+: Text.Utf8.encode (recorded (timed.map (·.2))) →
        (∀ k, LeavesLines (timed.map (·.2)) k part → read cut path = .ok ((timed.map (·.2)).take k)) ∧
        ((∀ k ≤ timed.length, ¬ LeavesLines (timed.map (·.2)) k part) →
          ∃ k line error, part = Text.Utf8.encode (recorded ((timed.map (·.2)).take k)) ++ line ∧
            part.count lineFeed = k ∧ read cut path = .error error ∧
            StopsAt path error (Text.Utf8.encode (recorded ((timed.map (·.2)).take k))) line [] ∧
            (Text.Utf8.CutInside (recorded (timed.map (·.2))) part → error = .io .notText) ∧
            (¬ Text.Utf8.CutInside (recorded (timed.map (·.2))) part → error = .malformedLine path (k + 1))) := by
  have start := LineFile.create_settled regular created
  obtain ⟨g, after, run, path, settled⟩ := LineFile.commitAll_settled { host with files } timed start
  have content := settled.read
  rw [List.nil_append, LineFile.taken_eq opened, ← encode_recorded, path] at content
  have dates : ∀ e ∈ timed.map (·.2), e.startTime.Valid := by
    intro e member
    obtain ⟨entry, there, rfl⟩ := List.mem_map.mp member
    exact valid entry there
  refine ⟨_, after, run, content, fun cut path part there beginning => ⟨fun k leaves => ?_, fun inside => ?_⟩⟩
  · rw [read_eq there]
    exact leaves.ofBytes fun e member => dates e (List.mem_of_mem_take member)
  · rw [← List.length_map (·.2)] at inside
    obtain ⟨k, line, parts, lines, stops⟩ := recorded_stops dates beginning inside
    refine ⟨k, line, _, parts, lines, ?_, stops, fun within => ?_, fun without => ?_⟩
    · rw [read_eq there, ← stops.settled, ← parts]
    · rw [lineError, Text.Utf8.decode_of_cutInside beginning within]
    · rw [Text.Utf8.cutInside_iff beginning] at without
      obtain ⟨text, decoded⟩ := Option.ne_none_iff_exists'.mp without
      rw [lineError, decoded]

/-- The cuts are before the end of the first line, before its closing brace and inside a character of the second. -/
theorem read_torn :
    let path := Path.ofText "run.jsonl"
    let holding (content : Bytes) : FileSystem := ⟨[], [([path.bytes], .file content)]⟩
    let content := Text.Utf8.encode (recorded (awkward.map (·.2)))
    ∃ f files r after,
      (Recorder.sink (.lines f)).commitAll { Session.bareHost with files } awkward = ([.done, .done], r, after) ∧
      after.files.read f.path = .ok content ∧
      read (holding (content.take 177)) path = .ok ((awkward.map (·.2)).take 1) ∧
      read (holding (content.take 176)) path = .error (.malformedLine path 1) ∧
      read (holding (content.take 262)) path = .error (.io .notText) := by
  intro path holding content
  obtain ⟨regular, created⟩ := create_run none
  have valid : ∀ entry ∈ awkward, entry.2.startTime.Valid := by decide
  obtain ⟨r, after, run, written, cut⟩ := read_truncated regular created (by decide) valid
  have beginning (n : Nat) : content.take n <+: content := List.take_prefix n content
  have leaves : LeavesLines (awkward.map (·.2)) 1 (content.take 177) := by decide +kernel
  have inBrace : ∀ k ≤ awkward.length, ¬ LeavesLines (awkward.map (·.2)) k (content.take 176) := by decide +kernel
  have inName : ∀ k ≤ awkward.length, ¬ LeavesLines (awkward.map (·.2)) k (content.take 262) := by decide +kernel
  have through : Text.Utf8.CutInside (recorded (awkward.map (·.2))) (content.take 262) := by
    rw [Text.Utf8.cutInside_iff (beginning 262)]
    decide +kernel
  have between : ¬ Text.Utf8.CutInside (recorded (awkward.map (·.2))) (content.take 176) := by
    rw [Text.Utf8.cutInside_iff (beginning 176)]
    decide +kernel
  refine ⟨_, _, r, after, run, written, ?_, ?_, ?_⟩
  · exact (cut (holding (content.take 177)) path _ rfl (beginning 177)).1 1 leaves
  · obtain ⟨k, line, error, parts, lines, failed, -, -, malformed⟩ :=
      (cut (holding (content.take 176)) path _ rfl (beginning 176)).2 inBrace
    have none : (content.take 176).count lineFeed = 0 := by decide +kernel
    rw [failed, malformed between, ← lines, none]
  · obtain ⟨k, line, error, -, -, failed, -, undecoded, -⟩ :=
      (cut (holding (content.take 262)) path _ rfl (beginning 262)).2 inName
    rw [failed, undecoded through]

end Recording
end LaunchTrace
