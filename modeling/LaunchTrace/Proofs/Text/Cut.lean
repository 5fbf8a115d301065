import LaunchTrace.Proofs.Text.Utf8
import Mathlib.Tactic.SplitIfs

/-! Texts whose bytes are cut off. Between two characters what is left is the text before the cut. Inside a character
it is no text, since the bytes of a character are read as that one character and not as two. -/
namespace LaunchTrace.Text.Utf8

variable {state next : State} {b : UInt8} {part rest : List UInt8} {s text : List Char} {c : Char}

/-- What follows a text is read on its own. -/
theorem decodeFrom_append (read : decodeFrom state part = some s) (rest : List UInt8) :
    decodeFrom state (part ++ rest) = (decodeFrom .ready rest).map (s ++ ·) := by
  fun_induction decodeFrom state part generalizing s with
  | case1 =>
    obtain rfl := Option.some.inj read
    exact Option.map_id'.symm
  | case2 => contradiction
  | case3 => contradiction
  | case4 _ _ _ _ stepped ih =>
    rw [List.cons_append, decodeFrom, stepped]
    exact ih read
  | case5 _ _ _ _ _ stepped ih =>
    obtain ⟨found, inner, rfl⟩ := Option.map_eq_some_iff.mp read
    rw [List.cons_append, decodeFrom, stepped]
    dsimp only
    rw [ih inner, Option.map_map]
    rfl

/-- A byte that completes no character leads into one. -/
theorem ne_ready_of_step (stepped : step state b = some (next, none)) : next ≠ .ready := by
  rintro rfl
  cases state with
  | ready =>
    simp only [step, lead] at stepped
    split_ifs at stepped <;> simp at stepped
  | inside bits missing low high =>
    simp only [step] at stepped
    split_ifs at stepped <;> simp at stepped

theorem decodeFrom_ne_nil (read : decodeFrom state part = some s) (some : part ≠ [] ∨ state ≠ .ready) : s ≠ [] := by
  fun_induction decodeFrom state part generalizing s with
  | case1 => exact absurd rfl (some.resolve_left (not_not.mpr rfl))
  | case2 => contradiction
  | case3 => contradiction
  | case4 _ _ _ _ stepped ih => exact ih read (.inr (ne_ready_of_step stepped))
  | case5 =>
    obtain ⟨found, -, rfl⟩ := Option.map_eq_some_iff.mp read
    exact List.cons_ne_nil _ _

/-- Part of a character is no text. -/
theorem decode_encodeChar_cut (whole : encodeChar c = part ++ rest) (begun : part ≠ []) (cut : rest ≠ []) :
    decode part = none := by
  cases first : decode part with
  | none => rfl
  | some s =>
    have both := decodeFrom_append first rest
    rw [← whole, ← List.append_nil (encodeChar c), decodeFrom_encodeChar] at both
    obtain ⟨t, second, same⟩ := Option.map_eq_some_iff.mp both.symm
    have more := List.length_pos_iff.mpr (decodeFrom_ne_nil first (.inl begun))
    have again := List.length_pos_iff.mpr (decodeFrom_ne_nil second (.inl cut))
    have one := congrArg List.length same
    rw [List.length_append, List.length_singleton] at one
    omega

/-- The bytes of the text, cut off at the end of the part, are cut inside a character. -/
def CutInside (text : List Char) (part : List UInt8) : Prop :=
  ∃ front c back, text = front ++ c :: back ∧ (encode front).length < part.length ∧
    part.length < (encode (front ++ [c])).length

theorem encode_cons (c : Char) (s : List Char) : encode (c :: s) = encodeChar c ++ encode s :=
  List.flatMap_cons

theorem encode_concat (s : List Char) (c : Char) : encode (s ++ [c]) = encode s ++ encodeChar c := by
  rw [encode_append, encode, encode, List.flatMap_singleton]

theorem decode_of_cutInside (beginning : part <+: encode text) (inside : CutInside text part) : decode part = none := by
  obtain ⟨front, c, back, rfl, more, less⟩ := inside
  have parts : encode (front ++ c :: back) = encode (front ++ [c]) ++ encode back := by
    rw [List.append_cons, encode_append]
  have within : part <+: encode (front ++ [c]) :=
    List.prefix_of_prefix_length_le beginning (parts ▸ List.prefix_append _ _) (Nat.le_of_lt less)
  have before : encode front <+: part :=
    List.prefix_of_prefix_length_le (encode_append _ _ ▸ List.prefix_append _ _) beginning (Nat.le_of_lt more)
  obtain ⟨begun, rfl⟩ := before
  rw [encode_concat, List.prefix_append_right_inj] at within
  obtain ⟨cut, whole⟩ := within
  rw [encode_concat, List.length_append, List.length_append, ← whole, List.length_append] at less
  rw [List.length_append] at more
  have none : decode begun = none :=
    decode_encodeChar_cut whole.symm (List.ne_nil_of_length_pos (by omega)) (List.ne_nil_of_length_pos (by omega))
  rw [decode] at none
  rw [decode, decodeFrom_append (decode_encode front), none]
  rfl

/-- Bytes from the front of a text are the front of the text, or they end inside a character. -/
theorem front_or_cutInside (beginning : part <+: encode text) :
    (∃ front, front <+: text ∧ part = encode front) ∨ CutInside text part := by
  induction text generalizing part with
  | nil => exact .inl ⟨[], List.nil_prefix, List.prefix_nil.mp beginning⟩
  | cons c text ih =>
    rw [encode_cons] at beginning
    by_cases through : (encodeChar c).length ≤ part.length
    · obtain ⟨later, rfl⟩ := List.prefix_of_prefix_length_le (List.prefix_append _ _) beginning through
      rw [List.prefix_append_right_inj] at beginning
      rcases ih beginning with ⟨front, first, rfl⟩ | ⟨front, d, back, rfl, more, less⟩
      · exact .inl ⟨c :: front, List.cons_prefix_cons.mpr ⟨rfl, first⟩, (encode_cons c front).symm⟩
      · refine .inr ⟨c :: front, d, back, rfl, ?_, ?_⟩
        · rw [encode_cons, List.length_append, List.length_append]
          omega
        · rw [List.cons_append, encode_cons, List.length_append, List.length_append]
          omega
    · by_cases begun : part = []
      · exact .inl ⟨[], List.nil_prefix, begun⟩
      · refine .inr ⟨[], c, text, rfl, List.length_pos_iff.mpr begun, ?_⟩
        rw [encode_concat]
        exact Nat.lt_of_not_le through

theorem cutInside_iff (beginning : part <+: encode text) : CutInside text part ↔ decode part = none := by
  refine ⟨decode_of_cutInside beginning, fun none => (front_or_cutInside beginning).resolve_left ?_⟩
  rintro ⟨front, -, rfl⟩
  rw [decode_encode] at none
  contradiction

end LaunchTrace.Text.Utf8
