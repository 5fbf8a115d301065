import LaunchTrace.Proofs.Json.RoundTrip
import LaunchTrace.Proofs.Time.Notation
import LaunchTrace.Recording.LineFile

/-! The line of an event: its fragments make it up, and it is read as the event. -/
namespace LaunchTrace

theorem Json.extendRun_flatten (c : Char) (runs : List (Bool × List Char)) :
    ((extendRun c runs).map (·.2)).flatten = c :: (runs.map (·.2)).flatten := by
  unfold extendRun
  split <;> rfl

/-- However characters are put into runs, the runs make up what stands for them. -/
theorem Json.runs_flatten (s : List Char) :
    ((s.foldr
      (fun c found =>
        match escape? c with
        | some escaped => (false, escaped) :: found
        | none => extendRun c found) []).map (·.2)).flatten = s.flatMap escapeChar := by
  induction s with
  | nil => rfl
  | cons c s ih =>
    rw [List.foldr_cons, List.flatMap_cons, escapeChar]
    cases escape? c with
    | none =>
      dsimp only
      rw [extendRun_flatten, ih]
      rfl
    | some escaped =>
      dsimp only
      rw [List.map_cons, List.flatten_cons, ih]
      rfl

theorem Json.literalFragments_flatten (s : List Char) : (literalFragments s).flatten = literal s := by
  simp only [literalFragments, List.flatten_append, List.flatten_cons, List.flatten_nil, List.append_nil]
  exact congrArg (fun runs => ['"'] ++ runs ++ ['"']) (runs_flatten s)

theorem Timestamp.fragments_flatten (t : Timestamp) : t.fragments.flatten = t.text := by
  have singles (s : List Char) : (s.map ([·])).flatten = s := by rw [← List.flatMap_def, List.flatMap_singleton']
  have whole (p : Char → Bool) (s : List Char) : s.takeWhile p ++ s.drop (s.takeWhile p).length = s :=
    List.prefix_iff_eq_append.mp (List.takeWhile_prefix p)
  have figures (s : List Char) : (if s = [] then [] else [s]).flatten = s := by
    split
    · rename_i none
      rw [none, List.flatten_nil]
    · rw [List.flatten_singleton]
  simp only [fragments, List.flatten_append, singles, figures, List.append_assoc]
  rw [← List.append_assoc (List.takeWhile _ _) (List.drop _ _), whole, ← List.drop_drop, whole, whole]

/-- Nothing in the text of a timestamp has to be escaped. -/
theorem Timestamp.escape?_text {t : Timestamp} {c : Char} (member : c ∈ t.text) : Json.escape? c = none := by
  have plain := written_text t c member
  have other (d : Char) (letter : d.isDigit = false) (mark : d ∉ ['+', '-', ':', '.', 'T', 'Z']) : c ≠ d := by
    rintro rfl
    exact plain.elim (by simp [letter]) mark
  have large : ¬ c.toNat < 0x20 := by
    rcases plain with figure | mark
    · have least := (Text.toNat_of_isDigit figure).1
      omega
    · fin_cases mark <;> decide
  rw [Json.escape?, if_neg (other '"' (by decide) (by decide)), if_neg (other '\\' (by decide) (by decide)),
    if_neg (other '\x08' (by decide) (by decide)), if_neg (other '\x0c' (by decide) (by decide)),
    if_neg (other '\n' (by decide) (by decide)), if_neg (other '\r' (by decide) (by decide)),
    if_neg (other '\t' (by decide) (by decide)), if_neg large]

theorem Timestamp.flatMap_text (t : Timestamp) : t.text.flatMap Json.escapeChar = t.text := by
  have single (s : List Char) (plain : ∀ c ∈ s, Json.escape? c = none) : s.flatMap Json.escapeChar = s := by
    induction s with
    | nil => rfl
    | cons c s ih =>
      rw [List.flatMap_cons, Json.escapeChar, plain c List.mem_cons_self,
        ih fun d member => plain d (List.mem_cons_of_mem _ member)]
      rfl
  exact single _ fun _ => escape?_text

namespace Event

variable {e : Event}

theorem fragments_flatten (e : Event) : e.fragments.flatten = e.line := by
  simp [fragments, fieldFragments, List.intercalate, List.intersperse, Json.literalFragments_flatten,
    Timestamp.fragments_flatten, line, toJson, Json.ofMembers, Json.render, Json.renderMembers, Json.literalOf,
    Json.ofString, Json.ofNat, Json.literal, Timestamp.flatMap_text]

theorem toJson_plain (e : Event) : e.toJson.Plain := by
  apply Json.Plain.object
  simp only [List.mem_cons, List.not_mem_nil, or_false]
  rintro member (rfl | rfl | rfl | rfl | rfl | rfl | rfl)
  · exact .string _
  · exact .number _
  · exact .number _
  · exact .string _
  · exact .string _
  · exact .string _
  · exact .number _

/-- The start is a moment of the years 0 to 9999. -/
structure Dated (e : Event) : Prop where
  valid : e.startTime.Valid
  first : 0 ≤ e.startTime.date.year
  last : e.startTime.date.year ≤ 9999

theorem word?_ofNat (n : UInt64) : (Json.ofNat n.toNat).word? = some n := by
  have small : n.toNat < Text.wordLimit := n.toNat_lt
  have figures : (Nat.toDigits 10 n.toNat).all Char.isDigit = true :=
    List.all_eq_true.mpr fun _ => Text.isDigit_of_mem
  rw [Json.ofNat, Json.word?, Text.digitsValue_toDigits, if_pos ⟨Nat.toDigits_ne_nil, figures, small⟩,
    UInt64.ofNat_toNat]

theorem ofJson?_toJson (valid : e.startTime.Valid) : ofJson? e.toJson = some e := by
  have time : time? (.ofString (String.ofList e.startTime.text)) = some e.startTime := by
    rw [time?, Json.ofString, Json.text?, Option.bind_some, String.toList_ofList,
      Timestamp.parse_text valid]
  have text (s : String) : (Json.ofString s).text? = some s := rfl
  rw [toJson, Json.ofMembers, ofJson?]
  simp only [Option.bind_eq_bind]
  rw [← Json.named, Json.Record.ofMembers?_named, Option.bind_some]
  simp [Json.Record.required?, Json.Record.valuesOf, ofFields?, word?_ofNat, time, text]

/-- The event is read back from its line. -/
theorem parse_line (valid : e.startTime.Valid) : (Json.parse e.line).bind ofJson? = some e := by
  rw [line, Json.parse_render e.toJson_plain, Option.bind_some, ofJson?_toJson valid]

theorem line_braces (e : Event) : ∃ inner, e.line = '{' :: (inner ++ ['}']) :=
  ⟨_, rfl⟩

/-- There is no end of a line in a line. -/
theorem lineFeed_notMem_line (e : Event) : '\n' ∉ e.line :=
  fun member => absurd (e.toJson_plain.render_visible _ member) (by decide)

end Event
end LaunchTrace
