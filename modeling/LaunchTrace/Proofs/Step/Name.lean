import LaunchTrace.Proofs.Text.Split
import LaunchTrace.Startup.Error
import Mathlib.Tactic.SplitIfs

/-! Texts that are step names, and those that are not: names are segments with single dots between them, so names may
be put together with dots and taken apart at them. -/
namespace LaunchTrace.StepName

variable {name : String} {fault : StepNameFault}

theorem fault?_eq_none {text : List Char} : fault? text = none ↔
    text ≠ [] ∧ (∀ c ∈ text, Text.isBlank c = false ∧ Text.isControl c = false) ∧ [] ∉ Text.pieces '.' text := by
  unfold fault?
  split_ifs with none unfit gap
  · simp [none]
  · simp only [List.any_eq_true, Bool.or_eq_true] at unfit
    obtain ⟨c, member, unfit⟩ := unfit
    simp only [false_iff]
    rintro ⟨-, plain, -⟩
    simp [plain c member] at unfit
  · simp [gap]
  · simpa [none, gap, List.any_eq_true] using unfit

theorem check_text (name : StepName) : check name.text = .ok name := by
  unfold check
  split
  · rename_i fault faulty
    rw [name.sound] at faulty
    contradiction
  · rfl

theorem check_of_fault (faulty : fault? name.toList = some fault) : check name = .error fault := by
  unfold check
  split
  · rename_i found same
    rw [faulty] at same
    exact congrArg Except.error (Option.some.inj same).symm
  · rename_i sound
    rw [faulty] at sound
    contradiction

/-- A sound name is the name that it says. -/
theorem validate_text (name : StepName) : validate name.text = .ok name := by
  rw [validate, check_text]

/-- A fault is reported together with the name that has it. -/
theorem validate_of_fault (faulty : fault? name.toList = some fault) : validate name = .error (.ofFault name fault) := by
  rw [validate, check_of_fault faulty]

/-! ## Names as segments -/

def Accepted (text : String) : Prop :=
  ∃ name, validate text = .ok name ∧ name.text = text

/-- A character that no name has. -/
def Unfit (c : Char) : Prop :=
  Text.isBlank c = true ∨ Text.isControl c = true

structure Segments (segments : List String) : Prop where
  some : segments ≠ []
  full : ∀ s ∈ segments, s ≠ ""
  plain : ∀ s ∈ segments, ∀ c ∈ s.toList, c ≠ '.' ∧ ¬Unfit c

variable {text : String}

theorem not_unfit {c : Char} : ¬Unfit c ↔ Text.isBlank c = false ∧ Text.isControl c = false := by
  simp [Unfit]

theorem accepted_iff : Accepted text ↔ fault? text.toList = none := by
  constructor
  · rintro ⟨name, _, rfl⟩
    exact name.sound
  · intro sound
    exact ⟨⟨text, sound⟩, validate_text ⟨text, sound⟩, rfl⟩

/-- Segments hold no dots, so they are the pieces of the name that they make. -/
theorem Segments.pieces {segments : List String} (sound : Segments segments) :
    Text.pieces '.' (".".intercalate segments).toList = segments.map String.toList := by
  rw [String.toList_intercalate, Text.pieces_eq_splitOn]
  apply List.splitOn_intercalate
  · intro piece member dot
    obtain ⟨s, inside, rfl⟩ := List.mem_map.mp member
    exact (sound.plain s inside '.' dot).1 rfl
  · simpa using sound.some

theorem intercalate_pieces (text : String) :
    ".".intercalate ((Text.pieces '.' text.toList).map String.ofList) = text := by
  rw [← String.toList_inj, String.toList_intercalate, List.map_map]
  simp [Text.pieces_eq_splitOn, Function.comp_def, List.intercalate_splitOn]

theorem accepted_iff_segments : Accepted text ↔ ∃ segments, Segments segments ∧ text = ".".intercalate segments := by
  rw [accepted_iff, fault?_eq_none]
  constructor
  · rintro ⟨_, plain, full⟩
    refine ⟨(Text.pieces '.' text.toList).map String.ofList, ⟨?_, ?_, ?_⟩, (intercalate_pieces text).symm⟩
    · simp [Text.pieces_eq_splitOn]
    · intro s member none
      obtain ⟨piece, inside, rfl⟩ := List.mem_map.mp member
      obtain rfl : piece = [] := by simpa using none
      exact full inside
    · intro s member c inside
      obtain ⟨piece, found, rfl⟩ := List.mem_map.mp member
      obtain ⟨held, other⟩ := Text.mem_pieces.mp ⟨piece, found, by simpa using inside⟩
      exact ⟨other, not_unfit.mpr (plain c held)⟩
  · rintro ⟨segments, sound, rfl⟩
    have full : [] ∉ Text.pieces '.' (".".intercalate segments).toList := by
      rw [sound.pieces]
      intro member
      obtain ⟨s, inside, none⟩ := List.mem_map.mp member
      exact sound.full s inside (by simpa using none)
    refine ⟨?_, ?_, full⟩
    · intro none
      rw [none] at full
      exact full List.mem_cons_self
    · intro c member
      by_cases dot : c = '.'
      · subst dot
        decide
      · obtain ⟨piece, found, inside⟩ := Text.mem_pieces.mpr ⟨member, dot⟩
        rw [sound.pieces] at found
        obtain ⟨s, segment, rfl⟩ := List.mem_map.mp found
        exact not_unfit.mp (sound.plain s segment c inside).2

/-- A name with a dot and a name behind it is a name, and a dot in a name parts it into two. -/
theorem accepted_dotted (front back : String) :
    Accepted (front ++ "." ++ back) ↔ Accepted front ∧ Accepted back := by
  have parted : (front ++ "." ++ back).toList = front.toList ++ '.' :: back.toList := by simp
  -- A text without empty segments is not empty.
  have some {s : List Char} (full : [] ∉ Text.pieces '.' s) : s ≠ [] := by
    rintro rfl
    exact full List.mem_cons_self
  have dot : Text.isBlank '.' = false ∧ Text.isControl '.' = false := by decide
  simp only [accepted_iff, fault?_eq_none, parted, Text.pieces_parted, List.mem_append, List.mem_cons, not_or]
  constructor
  · rintro ⟨_, plain, before, behind⟩
    exact ⟨⟨some before, fun c member => plain c (.inl member), before⟩,
      some behind, fun c member => plain c (.inr (.inr member)), behind⟩
  · rintro ⟨⟨_, first, before⟩, _, second, behind⟩
    refine ⟨by simp, ?_, before, behind⟩
    rintro c (member | rfl | member)
    · exact first c member
    · exact dot
    · exact second c member

/-! ## Faults -/

theorem fault?_eq_empty {text : List Char} : fault? text = some .empty ↔ text = [] := by
  unfold fault?
  split_ifs with none <;> simp [none]

theorem fault?_eq_blankOrControl {text : List Char} : fault? text = some .blankOrControl ↔ ∃ c ∈ text, Unfit c := by
  unfold fault?
  split_ifs with none unfit gap
  · simp [none]
  · simpa [Unfit, List.any_eq_true] using unfit
  · simpa [Unfit, List.any_eq_true] using unfit
  · simpa [Unfit, List.any_eq_true] using unfit

theorem fault?_eq_emptySegment {text : List Char} : fault? text = some .emptySegment ↔
    text ≠ [] ∧ (∀ c ∈ text, ¬Unfit c) ∧ fault? text ≠ none := by
  constructor
  · intro found
    refine ⟨?_, ?_, by simp [found]⟩
    · intro none
      simp [fault?_eq_empty.mpr none] at found
    · intro c member unfit
      simp [fault?_eq_blankOrControl.mpr ⟨c, member, unfit⟩] at found
  · rintro ⟨some, plain, faulty⟩
    obtain ⟨fault, found⟩ := Option.ne_none_iff_exists'.mp faulty
    cases fault with
    | empty => exact absurd (fault?_eq_empty.mp found) some
    | blankOrControl =>
      obtain ⟨c, member, unfit⟩ := fault?_eq_blankOrControl.mp found
      exact absurd unfit (plain c member)
    | emptySegment => exact found

theorem ofFault_injective {other : StepNameFault}
    (same : StartupError.ofFault text fault = .ofFault text other) : fault = other := by
  cases fault <;> cases other <;> simp_all [StartupError.ofFault]

theorem validate_eq_error (fault : StepNameFault) :
    validate text = .error (.ofFault text fault) ↔ fault? text.toList = some fault := by
  cases found : fault? text.toList with
  | none =>
    have accepted := validate_text ⟨text, found⟩
    simp [accepted]
  | some other =>
    rw [validate_of_fault found, Except.error.injEq, Option.some.injEq]
    exact ⟨ofFault_injective, congrArg _⟩

/-- A text is a name if it is made of segments with single dots between them, so two texts with a dot between them are
a name if both of them are. Otherwise the first of three faults is reported: that the text is empty, that it has a
blank or control character somewhere, or that a segment is empty. -/
theorem validate_segments (text front back : String) :
    (Accepted text ↔ ∃ segments, Segments segments ∧ text = ".".intercalate segments) ∧
      (Accepted (front ++ "." ++ back) ↔ Accepted front ∧ Accepted back) ∧
      (Accepted text ∨ ∃ fault, validate text = .error (.ofFault text fault)) ∧
      (validate text = .error .emptyName ↔ text = "") ∧
      (validate text = .error (.invalidName text "whitespace or control character") ↔ ∃ c ∈ text.toList, Unfit c) ∧
      (validate text = .error (.invalidName text "empty namespace segment") ↔
        text ≠ "" ∧ (∀ c ∈ text.toList, ¬Unfit c) ∧ ¬Accepted text) := by
  refine ⟨accepted_iff_segments, accepted_dotted front back, ?_, ?_, ?_, ?_⟩
  · cases found : fault? text.toList with
    | none => exact .inl (accepted_iff.mpr found)
    | some fault => exact .inr ⟨fault, validate_of_fault found⟩
  · rw [← String.toList_eq_nil_iff, ← fault?_eq_empty]
    exact validate_eq_error .empty
  · rw [← fault?_eq_blankOrControl]
    exact validate_eq_error .blankOrControl
  · rw [accepted_iff, ne_eq, ← String.toList_eq_nil_iff, ← fault?_eq_emptySegment]
    exact validate_eq_error .emptySegment

end LaunchTrace.StepName
