import LaunchTrace.Text.Split
import Mathlib.Data.List.Basic

/-! The pieces of a sequence between its separators. -/
namespace LaunchTrace.Text

variable {α : Type} [DecidableEq α] {separator a : α} {front rest : List α}

theorem pieces_cons_self (separator : α) (rest : List α) :
    pieces separator (separator :: rest) = [] :: pieces separator rest :=
  if_pos rfl

theorem pieces_cons_of_ne (other : a ≠ separator) {piece : List α} {pieces' : List (List α)}
    (split : pieces separator rest = piece :: pieces') :
    pieces separator (a :: rest) = (a :: piece) :: pieces' := by
  rw [pieces, List.foldr_cons, if_neg other, ← pieces, split]

theorem pieces_of_notMem (plain : separator ∉ front) : pieces separator front = [front] := by
  induction front with
  | nil => rfl
  | cons a front ih =>
    obtain ⟨other, plain⟩ := not_or.mp (List.mem_cons.not.mp plain)
    exact pieces_cons_of_ne (Ne.symm other) (ih plain)

theorem pieces_cons (separator : α) (s : List α) : ∃ piece found, pieces separator s = piece :: found := by
  induction s with
  | nil => exact ⟨[], [], rfl⟩
  | cons a s ih =>
    obtain ⟨piece, found, split⟩ := ih
    by_cases same : a = separator
    · exact ⟨[], pieces separator s, by rw [same, pieces_cons_self]⟩
    · exact ⟨a :: piece, found, pieces_cons_of_ne same split⟩

/-- A separator parts the pieces before it from those behind it. -/
theorem pieces_parted (front rest : List α) :
    pieces separator (front ++ separator :: rest) = pieces separator front ++ pieces separator rest := by
  induction front with
  | nil => exact pieces_cons_self separator rest
  | cons a front ih =>
    by_cases same : a = separator
    · rw [same, List.cons_append, pieces_cons_self, pieces_cons_self, ih, List.cons_append]
    · obtain ⟨piece, found, split⟩ := pieces_cons separator front
      rw [split, List.cons_append] at ih
      rw [List.cons_append, pieces_cons_of_ne same ih, pieces_cons_of_ne same split, List.cons_append]

/-- A piece ends at the first separator. -/
theorem pieces_append (plain : separator ∉ front) (rest : List α) :
    pieces separator (front ++ separator :: rest) = front :: pieces separator rest := by
  rw [pieces_parted, pieces_of_notMem plain, List.singleton_append]

/-- Pieces that each have a separator behind them leave nothing behind the last. -/
theorem pieces_ended {ended : List (List α)} (plain : ∀ piece ∈ ended, separator ∉ piece) :
    pieces separator (ended.flatMap (· ++ [separator])) = ended ++ [[]] := by
  induction ended with
  | nil => rfl
  | cons piece rest ih =>
    rw [List.flatMap_cons, List.append_assoc, List.singleton_append, pieces_append (plain piece List.mem_cons_self),
      ih fun other member => plain other (List.mem_cons_of_mem _ member), List.cons_append]

theorem length_pieces (s : List α) : (pieces separator s).length = s.count separator + 1 := by
  induction s with
  | nil => rfl
  | cons a s ih =>
    by_cases same : a = separator
    · rw [same, pieces_cons_self, List.length_cons, ih, List.count_cons_self]
    · obtain ⟨piece, found, split⟩ := pieces_cons separator s
      rw [split, List.length_cons] at ih
      rw [pieces_cons_of_ne same split, List.length_cons, ih, List.count_cons_of_ne same]

theorem pieces_eq_splitOn (separator : α) (s : List α) : pieces separator s = s.splitOn separator := by
  induction s with
  | nil => rfl
  | cons a s ih =>
    rw [List.splitOn_cons_eq_if_modifyHead, ← ih]
    by_cases same : a = separator
    · rw [same, pieces_cons_self, if_pos (beq_self_eq_true _)]
    · obtain ⟨piece, found, split⟩ := pieces_cons separator s
      rw [pieces_cons_of_ne same split, if_neg (by simpa using same), split, List.modifyHead_cons]

/-- What a sequence holds besides separators is in its pieces, and they hold nothing else. -/
theorem mem_pieces : (∃ piece ∈ pieces separator rest, a ∈ piece) ↔ a ∈ rest ∧ a ≠ separator := by
  induction rest with
  | nil => simp [pieces]
  | cons b rest ih =>
    by_cases same : b = separator
    · rw [same, pieces_cons_self]
      simp only [List.mem_cons, exists_eq_or_imp, List.not_mem_nil, false_or, ih]
      constructor
      · exact fun ⟨member, other⟩ => ⟨.inr member, other⟩
      · exact fun ⟨member, other⟩ => ⟨member.resolve_left other, other⟩
    · obtain ⟨piece, found, split⟩ := pieces_cons separator rest
      simp only [split, List.mem_cons, exists_eq_or_imp] at ih
      simp only [pieces_cons_of_ne same split, List.mem_cons, exists_eq_or_imp, or_assoc, ih]
      constructor
      · rintro (rfl | ⟨member, other⟩)
        · exact ⟨.inl rfl, same⟩
        · exact ⟨.inr member, other⟩
      · rintro ⟨rfl | member, other⟩
        · exact .inl rfl
        · exact .inr ⟨member, other⟩

/-! ## The first separator -/

theorem cutAtFirst_of_notMem (plain : separator ∉ front) : cutAtFirst separator front = none := by
  induction front with
  | nil => rfl
  | cons a front ih =>
    obtain ⟨other, plain⟩ := not_or.mp (List.mem_cons.not.mp plain)
    rw [cutAtFirst, if_neg (Ne.symm other), ih plain, Option.map_none]

theorem cutAtFirst_append (plain : separator ∉ front) (rest : List α) :
    cutAtFirst separator (front ++ separator :: rest) = some (front, rest) := by
  induction front with
  | nil => exact if_pos rfl
  | cons a front ih =>
    obtain ⟨other, plain⟩ := not_or.mp (List.mem_cons.not.mp plain)
    rw [List.cons_append, cutAtFirst, if_neg (Ne.symm other), ih plain, Option.map_some]

end LaunchTrace.Text
