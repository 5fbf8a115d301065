import LaunchTrace.Proofs.Recording.Line
import LaunchTrace.Proofs.Text.Split
import LaunchTrace.Proofs.Text.Utf8
import LaunchTrace.Recording.Reader

/-! Reading a file in which each line is that of an event. -/
namespace LaunchTrace.Recording

variable {ended : List Bytes} {path : Path} {number : Nat} {events : List Event} {e : Event}

/-- Each line with its end behind it. -/
def joined (ended : List Bytes) : Bytes :=
  ended.flatMap (· ++ [lineFeed])

theorem joined_append (ended more : List Bytes) : joined (ended ++ more) = joined ended ++ joined more :=
  List.flatMap_append

/-- Lines are found where they were ended, without a carriage return. -/
theorem lines_joined (plain : ∀ line ∈ ended, lineFeed ∉ line) : lines (joined ended) = ended.map chomp := by
  have last : (ended ++ [[]]).getLastD [] = [] := by
    rw [List.getLastD_eq_getLast?, List.getLast?_concat]
    rfl
  rw [lines, joined, Text.pieces_ended plain]
  simp only [last, List.dropLast_concat, if_true, List.append_nil]

theorem count_joined (plain : ∀ line ∈ ended, lineFeed ∉ line) : (joined ended).count lineFeed = ended.length := by
  induction ended with
  | nil => rfl
  | cons line rest ih =>
    rw [joined, List.flatMap_cons, List.count_append, ← joined,
      ih fun other member => plain other (List.mem_cons_of_mem _ member), List.count_append,
      List.count_eq_zero.mpr (plain line List.mem_cons_self), List.length_cons]
    simp [Nat.add_comm]

/-- The bytes of the line of an event. -/
def lineBytes (e : Event) : Bytes :=
  Text.Utf8.encode e.line

theorem lineBytes_ne_nil (e : Event) : lineBytes e ≠ [] := by
  obtain ⟨inner, braces⟩ := e.line_braces
  rw [lineBytes, braces, Text.Utf8.encode, List.flatMap_cons]
  exact List.append_ne_nil_of_left_ne_nil (by decide) _

theorem lineFeed_notMem_lineBytes (e : Event) : lineFeed ∉ lineBytes e := by
  intro member
  have found : '\n' ∈ e.line := (Text.Utf8.mem_encode (n := 0x0A) (by decide)).mp member
  exact e.lineFeed_notMem_line found

/-- A line ends in a brace, so there is no carriage return to take off. -/
theorem chomp_lineBytes (e : Event) : chomp (lineBytes e) = lineBytes e := by
  obtain ⟨inner, braces⟩ := e.line_braces
  have last : (lineBytes e).getLast? = some 0x7D := by
    rw [lineBytes, braces, ← List.cons_append, Text.Utf8.encode_append]
    exact List.getLast?_concat
  rw [chomp, last, if_neg (by decide)]

theorem lineEvent?_lineBytes (valid : e.startTime.Valid) :
    lineEvent? path number (lineBytes e) = .ok (some e) := by
  obtain ⟨inner, braces⟩ := e.line_braces
  have visible : Text.isBlankText e.line = false := by
    rw [braces, Text.isBlankText, List.all_cons]
    rfl
  rw [lineEvent?, lineBytes, Text.Utf8.decode_encode]
  dsimp only
  rw [visible, Event.parse_line valid]
  rfl

theorem eventsFrom_lineBytes (valid : ∀ e ∈ events, e.startTime.Valid) :
    eventsFrom path number (events.map lineBytes) = .ok events := by
  induction events generalizing number with
  | nil => rfl
  | cons e rest ih =>
    rw [List.map_cons, eventsFrom, lineEvent?_lineBytes (valid e List.mem_cons_self),
      ih fun other member => valid other (List.mem_cons_of_mem _ member)]
    rfl

theorem lineFeed_notMem_of_mem {line : Bytes} (member : line ∈ events.map lineBytes) : lineFeed ∉ line := by
  obtain ⟨e, _, rfl⟩ := List.mem_map.mp member
  exact lineFeed_notMem_lineBytes e

theorem count_lineBytes : (joined (events.map lineBytes)).count lineFeed = events.length := by
  rw [count_joined fun _ => lineFeed_notMem_of_mem, List.length_map]

/-- The lines of events are found as they were written. -/
theorem lines_lineBytes : lines (joined (events.map lineBytes)) = events.map lineBytes := by
  have kept : (events.map lineBytes).map chomp = events.map lineBytes := by
    simp only [List.map_map, Function.comp_def, chomp_lineBytes]
  rw [lines_joined fun _ => lineFeed_notMem_of_mem, kept]

/-- The lines of events, each ended, are read as the events. -/
theorem ofBytes_lineBytes (valid : ∀ e ∈ events, e.startTime.Valid) :
    ofBytes path (joined (events.map lineBytes)) = .ok events := by
  rw [ofBytes, lines_lineBytes]
  exact eventsFrom_lineBytes valid

theorem ofBytes_joined (dated : ∀ e ∈ events, e.Dated) :
    ofBytes path (joined (events.map lineBytes)) = .ok events :=
  ofBytes_lineBytes fun e member => (dated e member).valid

end LaunchTrace.Recording
