import LaunchTrace.Json.Parser
import LaunchTrace.Json.Printer
import LaunchTrace.Proofs.Text.Digits
import Mathlib.Tactic.FinCases

/-! Literals and numbers as they are written are read as what they were written for. -/
namespace LaunchTrace.Json

variable {c : Char} {s rest : List Char} {n : Nat}

/-- Puts a code point before those of a literal. -/
def consUnit (n : Nat) : List Nat × List Char → List Nat × List Char
  | (units, rest) => (n :: units, rest)

theorem scanString_escaped {e : Char} (other : e ≠ 'u') (found : unescape? e = some c) :
    scanString ('\\' :: e :: rest) = (scanString rest).map (consUnit c.toNat) := by
  rw [scanString]
  · rw [found]
    rfl
  · intro _ _ _ _ _ same
    exact fun _ => other same

theorem scanString_plain (quote : c ≠ '"') (backslash : c ≠ '\\') (plain : ¬ c.toNat < 0x20) :
    scanString (c :: rest) = (scanString rest).map (consUnit c.toNat) := by
  rw [scanString]
  · rw [if_neg (not_or.mpr ⟨plain, backslash⟩)]
    rfl
  · exact quote
  · intro _ _ _ _ _ same
    exact fun _ => backslash same
  · intro _ _ same
    exact fun _ => backslash same

theorem hexValue?_digitChar (small : n < 16) : hexValue? (Nat.digitChar n) = some n := by
  revert n
  decide

theorem scanString_unit {a b : Nat} (first : a < 16) (last : b < 16) (rest : List Char) :
    scanString ('\\' :: 'u' :: '0' :: '0' :: Nat.digitChar a :: Nat.digitChar b :: rest) =
      (scanString rest).map (consUnit (a * 16 + b)) := by
  have zero : hexValue? '0' = some 0 := by decide
  have value : ((0 * 16 + 0) * 16 + a) * 16 + b = a * 16 + b := by omega
  rw [scanString, zero, hexValue?_digitChar first, hexValue?_digitChar last]
  dsimp only
  rw [value]
  rfl

/-- The forms that a character may take in a literal. -/
inductive Escaped (c : Char) : List Char → Prop where
  | short {e : Char} (other : e ≠ 'u') (visible : 0x20 ≤ e.toNat) (found : unescape? e = some c) : Escaped c ['\\', e]
  | unit (control : c.toNat < 0x20) :
    Escaped c ['\\', 'u', '0', '0', Nat.digitChar (c.toNat / 16), Nat.digitChar (c.toNat % 16)]
  | plain (quote : c ≠ '"') (backslash : c ≠ '\\') (visible : 0x20 ≤ c.toNat) : Escaped c [c]

theorem escapeChar_escaped (c : Char) : Escaped c (escapeChar c) := by
  by_cases short : c ∈ ['"', '\\', '\x08', '\x0c', '\n', '\r', '\t']
  · fin_cases short <;> exact .short (by decide) (by decide) rfl
  · simp only [List.mem_cons, List.not_mem_nil, or_false, not_or] at short
    obtain ⟨quote, backslash, _, _, _, _, _⟩ := short
    by_cases control : c.toNat < 0x20
    · have escaped : escapeChar c =
          ['\\', 'u', '0', '0', Nat.digitChar (c.toNat / 16), Nat.digitChar (c.toNat % 16)] := by
        simp [escapeChar, escape?, *]
      rw [escaped]
      exact .unit control
    · have plain : escapeChar c = [c] := by
        simp [escapeChar, escape?, *]
      rw [plain]
      exact .plain quote backslash (Nat.le_of_not_lt control)

/-- What stands for a character in a literal is read as its code point. -/
theorem scanString_escapeChar (c : Char) (rest : List Char) :
    scanString (escapeChar c ++ rest) = (scanString rest).map (consUnit c.toNat) := by
  have escaped := escapeChar_escaped c
  generalize escapeChar c = text at escaped ⊢
  cases escaped with
  | short other _ found => exact scanString_escaped other found
  | unit control =>
    have value : c.toNat / 16 * 16 + c.toNat % 16 = c.toNat := by omega
    have read := scanString_unit (show c.toNat / 16 < 16 by omega) (show c.toNat % 16 < 16 by omega) rest
    rw [value] at read
    exact read
  | plain quote backslash visible => exact scanString_plain quote backslash (Nat.not_lt.mpr visible)

theorem escapeChar_visible {d : Char} (member : d ∈ escapeChar c) : 0x20 ≤ d.toNat := by
  have escaped := escapeChar_escaped c
  have digit (n : Nat) (small : n < 16) : 0x20 ≤ (Nat.digitChar n).toNat := by
    revert n
    decide
  generalize escapeChar c = text at escaped member
  cases escaped with
  | short _ visible _ =>
    simp only [List.mem_cons, List.not_mem_nil, or_false] at member
    rcases member with rfl | rfl
    · decide
    · exact visible
  | unit control =>
    simp only [List.mem_cons, List.not_mem_nil, or_false] at member
    rcases member with rfl | rfl | rfl | rfl | rfl | rfl
    · decide
    · decide
    · decide
    · decide
    · exact digit _ (by omega)
    · exact digit _ (by omega)
  | plain _ _ visible =>
    obtain rfl := List.mem_singleton.mp member
    exact visible

theorem literal_visible (member : c ∈ literal s) : 0x20 ≤ c.toNat := by
  simp only [literal, List.cons_append, List.mem_cons, List.mem_append, List.mem_flatMap, List.not_mem_nil,
    or_false] at member
  rcases member with rfl | ⟨d, _, member⟩ | rfl
  · decide
  · exact escapeChar_visible member
  · decide

theorem scanString_literal (s rest : List Char) :
    scanString (s.flatMap escapeChar ++ '"' :: rest) = some (s.map Char.toNat, rest) := by
  induction s with
  | nil => rfl
  | cons c s ih =>
    rw [List.flatMap_cons, List.append_assoc, scanString_escapeChar, ih]
    rfl

theorem joinSurrogates_map (s : List Char) : joinSurrogates (s.map Char.toNat) = some s := by
  have alone (c : Char) : isHighSurrogate c.toNat = false ∧ isLowSurrogate c.toNat = false := by
    have scalar : c.toNat < 0xD800 ∨ 0xDFFF < c.toNat ∧ c.toNat < 0x110000 := c.valid
    simp only [isHighSurrogate, isLowSurrogate, Bool.and_eq_false_iff, decide_eq_false_iff_not]
    omega
  induction s with
  | nil => rfl
  | cons c s ih =>
    obtain ⟨high, low⟩ := alone c
    cases s with
    | nil => simp [joinSurrogates, high, low]
    | cons d s =>
      rw [List.map_cons] at ih
      simp [joinSurrogates, high, low, ih]

/-- The literal of a text is that text again. -/
theorem literalText_map (s : String) : literalText (s.toList.map Char.toNat) = some s := by
  rw [literalText, joinSurrogates_map, Option.map_some, String.ofList_toList]

/-! ## Numbers -/

/-- What follows does not carry on a number. -/
def Ends (rest : List Char) : Prop :=
  ∀ c ∈ rest.head?, c.isDigit = false ∧ c ≠ '.' ∧ c ≠ 'e' ∧ c ≠ 'E'

theorem scanDigits_append {digits : List Char} (some : digits ≠ []) (all : ∀ c ∈ digits, c.isDigit = true)
    (ends : Ends rest) : scanDigits (digits ++ rest) = Option.some (digits, rest) := by
  have stop : rest.takeWhile Char.isDigit = [] ∧ rest.dropWhile Char.isDigit = rest := by
    cases rest with
    | nil => exact ⟨rfl, rfl⟩
    | cons c rest =>
      have other := (ends c rfl).1
      simp [other]
  rw [scanDigits, List.takeWhile_append_of_pos all, List.dropWhile_append_of_pos all, stop.1, stop.2, List.append_nil,
    if_neg some]

theorem scanWhole_toDigits (n : Nat) (ends : Ends rest) :
    scanWhole (Nat.toDigits 10 n ++ rest) = some (Nat.toDigits 10 n, rest) := by
  unfold scanWhole
  rw [scanDigits_append Nat.toDigits_ne_nil (fun _ => Text.isDigit_of_mem) ends]
  split
  · rename_i same
    exact absurd (Prod.mk.inj (Option.some.inj same)).1 (Text.toDigits_ne_zero_cons _ _)
  · rfl

theorem scanFraction_ends (ends : Ends rest) : scanFraction rest = some ([], rest) := by
  cases rest with
  | nil => rfl
  | cons c rest =>
    have other := (ends c rfl).2.1
    rw [scanFraction]
    exact fun _ same => other (List.cons.inj same).1

theorem scanExponent_ends (ends : Ends rest) : scanExponent rest = some ([], rest) := by
  cases rest with
  | nil => rfl
  | cons c rest =>
    obtain ⟨-, -, small, capital⟩ := ends c rfl
    simp only [scanExponent, small, capital, or_self, if_false]

theorem scanNumber_toDigits (n : Nat) (ends : Ends rest) :
    scanNumber (Nat.toDigits 10 n ++ rest) = some (Nat.toDigits 10 n, rest) := by
  have magnitude : scanMagnitude (Nat.toDigits 10 n ++ rest) = some (Nat.toDigits 10 n, rest) := by
    simp [scanMagnitude, scanWhole_toDigits n ends, scanFraction_ends ends, scanExponent_ends ends]
  rw [← magnitude, scanNumber]
  intro _ same
  obtain ⟨c, tail, digits, figure⟩ := Text.toDigits_cons n
  rw [digits] at same
  exact Text.ne_of_isDigit figure (by decide) (List.cons.inj same).1

end LaunchTrace.Json
