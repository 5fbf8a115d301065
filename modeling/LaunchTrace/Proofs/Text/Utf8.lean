import LaunchTrace.Text.Utf8
import Mathlib.Data.List.Basic

/-! Writing a text as bytes and reading it back. A byte below 0x80 stands for the character of that number wherever it
is found, so a line feed among the bytes is a line feed of the text. -/
namespace LaunchTrace.Text.Utf8

variable {n bits missing : Nat} {low high b : UInt8} {rest : List UInt8} {c : Char}

theorem toNat_ofNat_of_lt (small : n < 0x100) : (UInt8.ofNat n).toNat = n := by
  rw [UInt8.toNat_ofNat']
  exact Nat.mod_eq_of_lt small

theorem trailing_toNat (n : Nat) : (trailing n).toNat = 0x80 + n % 0x40 :=
  toNat_ofNat_of_lt (by omega)

theorem decodeFrom_last (above : low ≤ b) (below : b ≤ high) :
    decodeFrom (.inside bits 1 low high) (b :: rest) =
      (decodeFrom .ready rest).map (Char.ofNat (bits * 0x40 + (b.toNat - 0x80)) :: ·) := by
  simp [decodeFrom, step, above, below]

theorem decodeFrom_more (above : low ≤ b) (below : b ≤ high) :
    decodeFrom (.inside bits (missing + 2) low high) (b :: rest) =
      decodeFrom (.inside (bits * 0x40 + (b.toNat - 0x80)) (missing + 1) 0x80 0xBF) rest := by
  simp [decodeFrom, step, above, below]

theorem trailing_low (n : Nat) : 0x80 ≤ trailing n := by
  rw [UInt8.le_iff_toNat_le, trailing_toNat]
  exact Nat.le_add_right _ _

theorem trailing_high (n : Nat) : trailing n ≤ 0xBF := by
  rw [UInt8.le_iff_toNat_le, trailing_toNat]
  have small : n % 0x40 < 0x40 := Nat.mod_lt _ (by decide)
  exact Nat.add_le_add_left (Nat.le_of_lt_succ small) 0x80

/-- The first byte of a character decides by its number alone. -/
theorem lead_ofNat (small : n < 0x100) : lead (UInt8.ofNat n) =
    if n < 0x80 then some (.ready, some (Char.ofNat n))
    else if n < 0xC2 then none
    else if n < 0xE0 then some (.inside (n - 0xC0) 1 0x80 0xBF, none)
    else if n < 0xF0 then
      some (.inside (n - 0xE0) 2 (if n = 0xE0 then 0xA0 else 0x80) (if n = 0xED then 0x9F else 0xBF), none)
    else if n < 0xF5 then
      some (.inside (n - 0xF0) 3 (if n = 0xF0 then 0x90 else 0x80) (if n = 0xF4 then 0x8F else 0xBF), none)
    else none := by
  have same (m : UInt8) : UInt8.ofNat n = m ↔ n = m.toNat := by
    rw [← UInt8.toNat_inj, toNat_ofNat_of_lt small]
  simp only [lead, UInt8.lt_iff_toNat_lt, same, toNat_ofNat_of_lt small]
  rfl

theorem decodeFrom_one (small : n < 0x80) :
    decodeFrom .ready (UInt8.ofNat n :: rest) = (decodeFrom .ready rest).map (Char.ofNat n :: ·) := by
  rw [decodeFrom, step, lead_ofNat (by omega), if_pos small]

theorem decodeFrom_two (least : 0x80 ≤ n) (small : n < 0x800) :
    decodeFrom .ready (UInt8.ofNat (0xC0 + n / 0x40) :: trailing n :: rest) =
      (decodeFrom .ready rest).map (Char.ofNat n :: ·) := by
  have value : (0xC0 + n / 0x40 - 0xC0) * 0x40 + (0x80 + n % 0x40 - 0x80) = n := by omega
  rw [decodeFrom, step, lead_ofNat (by omega), if_neg (by omega), if_neg (by omega), if_pos (by omega)]
  dsimp only
  rw [decodeFrom_last (trailing_low n) (trailing_high n), trailing_toNat, value]

theorem decodeFrom_three (least : 0x800 ≤ n) (small : n < 0x10000) (scalar : n < 0xD800 ∨ 0xDFFF < n) :
    decodeFrom .ready (UInt8.ofNat (0xE0 + n / 0x1000) :: trailing (n / 0x40) :: trailing n :: rest) =
      (decodeFrom .ready rest).map (Char.ofNat n :: ·) := by
  -- Behind 0xE0 a shorter form is ruled out, behind 0xED a surrogate.
  have above : (if 0xE0 + n / 0x1000 = 0xE0 then 0xA0 else 0x80) ≤ trailing (n / 0x40) := by
    split
    · rw [UInt8.le_iff_toNat_le, trailing_toNat]
      change 0xA0 ≤ 0x80 + n / 0x40 % 0x40
      omega
    · exact trailing_low _
  have below : trailing (n / 0x40) ≤ (if 0xE0 + n / 0x1000 = 0xED then 0x9F else 0xBF) := by
    split
    · rw [UInt8.le_iff_toNat_le, trailing_toNat]
      change 0x80 + n / 0x40 % 0x40 ≤ 0x9F
      omega
    · exact trailing_high _
  have value : ((0xE0 + n / 0x1000 - 0xE0) * 0x40 + (0x80 + n / 0x40 % 0x40 - 0x80)) * 0x40 +
      (0x80 + n % 0x40 - 0x80) = n := by omega
  rw [decodeFrom, step, lead_ofNat (by omega), if_neg (by omega), if_neg (by omega), if_neg (by omega),
    if_pos (by omega)]
  dsimp only
  rw [decodeFrom_more above below, decodeFrom_last (trailing_low n) (trailing_high n), trailing_toNat,
    trailing_toNat, value]

theorem decodeFrom_four (least : 0x10000 ≤ n) (small : n < 0x110000) :
    decodeFrom .ready (UInt8.ofNat (0xF0 + n / 0x40000) :: trailing (n / 0x1000) :: trailing (n / 0x40) ::
        trailing n :: rest) =
      (decodeFrom .ready rest).map (Char.ofNat n :: ·) := by
  -- Behind 0xF0 a shorter form is ruled out, behind 0xF4 what lies past the last code point.
  have above : (if 0xF0 + n / 0x40000 = 0xF0 then 0x90 else 0x80) ≤ trailing (n / 0x1000) := by
    split
    · rw [UInt8.le_iff_toNat_le, trailing_toNat]
      change 0x90 ≤ 0x80 + n / 0x1000 % 0x40
      omega
    · exact trailing_low _
  have below : trailing (n / 0x1000) ≤ (if 0xF0 + n / 0x40000 = 0xF4 then 0x8F else 0xBF) := by
    split
    · rw [UInt8.le_iff_toNat_le, trailing_toNat]
      change 0x80 + n / 0x1000 % 0x40 ≤ 0x8F
      omega
    · exact trailing_high _
  have value : (((0xF0 + n / 0x40000 - 0xF0) * 0x40 + (0x80 + n / 0x1000 % 0x40 - 0x80)) * 0x40 +
      (0x80 + n / 0x40 % 0x40 - 0x80)) * 0x40 + (0x80 + n % 0x40 - 0x80) = n := by omega
  rw [decodeFrom, step, lead_ofNat (by omega), if_neg (by omega), if_neg (by omega), if_neg (by omega),
    if_neg (by omega), if_pos (by omega)]
  dsimp only
  rw [decodeFrom_more above below, decodeFrom_more (trailing_low _) (trailing_high _),
    decodeFrom_last (trailing_low n) (trailing_high n), trailing_toNat, trailing_toNat, trailing_toNat, value]

/-- The bytes of a character, whatever follows them, are read as that character. -/
theorem decodeFrom_encodeChar (c : Char) (rest : List UInt8) :
    decodeFrom .ready (encodeChar c ++ rest) = (decodeFrom .ready rest).map (c :: ·) := by
  have scalar : c.toNat < 0xD800 ∨ 0xDFFF < c.toNat ∧ c.toNat < 0x110000 := c.valid
  have same : Char.ofNat c.toNat = c := Char.ofNat_toNat c
  simp only [encodeChar]
  split
  · rename_i small
    simp only [List.cons_append, List.nil_append, decodeFrom_one small, same]
  · split
    · rename_i least small
      simp only [List.cons_append, List.nil_append, decodeFrom_two (Nat.le_of_not_lt least) small, same]
    · split
      · rename_i least small
        have scalar := scalar.imp_right And.left
        simp only [List.cons_append, List.nil_append, decodeFrom_three (Nat.le_of_not_lt least) small scalar, same]
      · rename_i least
        have small : c.toNat < 0x110000 := by omega
        simp only [List.cons_append, List.nil_append, decodeFrom_four (Nat.le_of_not_lt least) small, same]

theorem decode_encode (s : List Char) : decode (encode s) = some s := by
  unfold decode encode
  induction s with
  | nil => rfl
  | cons c s ih => rw [List.flatMap_cons, decodeFrom_encodeChar, ih, Option.map_some]

/-- A byte below 0x80 is a character of its own, never part of another. -/
theorem mem_encodeChar (small : n < 0x80) : UInt8.ofNat n ∈ encodeChar c ↔ c.toNat = n := by
  have number : (UInt8.ofNat n).toNat = n := toNat_ofNat_of_lt (by omega)
  have scalar : c.toNat < 0xD800 ∨ 0xDFFF < c.toNat ∧ c.toNat < 0x110000 := c.valid
  have other (m : Nat) (large : 0x80 ≤ m) (byte : m < 0x100) : UInt8.ofNat n ≠ UInt8.ofNat m := by
    rw [ne_eq, ← UInt8.toNat_inj, number, toNat_ofNat_of_lt byte]
    omega
  have behind (m : Nat) : UInt8.ofNat n ≠ trailing m := other _ (by omega) (by omega)
  simp only [encodeChar]
  split
  · rw [List.mem_singleton, ← UInt8.toNat_inj, number, toNat_ofNat_of_lt (by omega), eq_comm]
  · have large : c.toNat ≠ n := by omega
    split
    · have first := other (0xC0 + c.toNat / 0x40) (by omega) (by omega)
      simp only [List.mem_cons, List.not_mem_nil, first, behind, large, or_self]
    · split
      · have first := other (0xE0 + c.toNat / 0x1000) (by omega) (by omega)
        simp only [List.mem_cons, List.not_mem_nil, first, behind, large, or_self]
      · have first := other (0xF0 + c.toNat / 0x40000) (by omega) (by omega)
        simp only [List.mem_cons, List.not_mem_nil, first, behind, large, or_self]

theorem mem_encode {s : List Char} (small : n < 0x80) : UInt8.ofNat n ∈ encode s ↔ Char.ofNat n ∈ s := by
  have number : (Char.ofNat n).toNat = n := by
    rw [Char.ofNat, dif_pos (Or.inl (by omega))]
    rfl
  rw [encode, List.mem_flatMap]
  constructor
  · rintro ⟨c, member, byte⟩
    rw [mem_encodeChar small] at byte
    rwa [← byte, Char.ofNat_toNat]
  · intro member
    exact ⟨Char.ofNat n, member, (mem_encodeChar small).mpr number⟩

theorem encode_append (s t : List Char) : encode (s ++ t) = encode s ++ encode t :=
  List.flatMap_append

theorem encode_flatten (parts : List (List Char)) : encode parts.flatten = (parts.map encode).flatten := by
  induction parts with
  | nil => rfl
  | cons part rest ih => rw [List.flatten_cons, encode_append, ih, List.map_cons, List.flatten_cons]

end LaunchTrace.Text.Utf8
