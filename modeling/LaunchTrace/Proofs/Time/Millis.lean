import LaunchTrace.Proofs.Text.Split
import LaunchTrace.Proofs.Time.Notation
import LaunchTrace.Proofs.Time.Rounding

/-! Durations in milliseconds. Those under `2 ^ 43` milliseconds are shown as they are, and no duration is shown shorter
than a shorter one. -/
namespace LaunchTrace.Millis

variable {micros less more n : Nat} {c : Char}

/-! ## Milliseconds as binary fractions -/

theorem num_div_thousand (b : Binary) : (b.num / (b.den * 1000 : Nat) : ℚ) = b.value / 1000 := by
  rw [Nat.cast_mul, ← div_div, b.num_div_den]
  rfl

theorem num_thousand_div (b : Binary) : ((b.num * 1000 : Nat) / b.den : ℚ) = b.value * 1000 := by
  rw [← b.num_div_den, Nat.cast_mul, mul_div_right_comm]
  rfl

theorem den_thousand_pos (b : Binary) : 0 < b.den * 1000 :=
  Nat.mul_pos b.den_pos (by decide)

theorem ofMicros_mono (le : less ≤ more) : (ofMicros less).value ≤ (ofMicros more).value := by
  have whole : (nearest less 1).value ≤ (nearest more 1).value := by
    apply nearest_mono Nat.one_pos Nat.one_pos
    gcongr
  apply nearest_mono (den_thousand_pos _) (den_thousand_pos _)
  rw [num_div_thousand, num_div_thousand]
  gcongr

/-- Under `2 ^ 43` milliseconds the units are too small for the error to reach half a microsecond. -/
theorem ofMicros_error (small : micros < 2 ^ 43 * 1000) : |(ofMicros micros).value - micros / 1000| ≤ 1 / 2 ^ 11 := by
  rcases Nat.eq_zero_or_pos micros with rfl | some
  · have none : ofMicros 0 = ⟨0, 0⟩ := rfl
    norm_num [none, Binary.value]
  have exact : (nearest micros 1).value = micros := nearest_natural (by omega)
  have ratio := num_div_thousand (nearest micros 1)
  rw [exact] at ratio
  have figures : 0 < (nearest micros 1).num := Binary.num_pos (by rw [exact]; exact_mod_cast some)
  have near := nearest_error figures (den_thousand_pos (nearest micros 1))
  obtain ⟨least, -⟩ := unitExponent_bounds figures (den_thousand_pos (nearest micros 1))
  have limit : (micros : ℚ) < 2 ^ 43 * 1000 := by exact_mod_cast small
  rw [ratio] at near least
  generalize unitExponent (nearest micros 1).num ((nearest micros 1).den * 1000) = exponent at near least
  have fine : exponent < -9 := by
    have unit : (2 ^ exponent : ℚ) < 2 ^ (-9 : Int) := by
      norm_num
      linarith
    exact (zpow_lt_zpow_iff_right₀ one_lt_two).mp unit
  have unit : (2 ^ exponent : ℚ) ≤ 2 ^ (-10 : Int) := zpow_le_zpow_right₀ one_le_two (by omega)
  refine near.trans ?_
  norm_num at unit ⊢
  linarith

theorem thousandths_eq (small : micros < 2 ^ 43 * 1000) : thousandths micros = micros := by
  obtain ⟨below, above⟩ := abs_le.mp (ofMicros_error small)
  apply roundDiv_eq (Binary.den_pos _)
  · rw [num_thousand_div]
    linarith
  · rw [num_thousand_div]
    linarith

theorem thousandths_mono (le : less ≤ more) : thousandths less ≤ thousandths more := by
  apply roundDiv_mono (Binary.den_pos _) (Binary.den_pos _)
  rw [num_thousand_div, num_thousand_div]
  gcongr
  exact ofMicros_mono le

/-! ## Decimal texts -/

theorem fixed_eq (n : Nat) : fixed n = Nat.toDigits 10 (n / 1000) ++ '.' :: Timestamp.threeDigits n := rfl

theorem figure_of_mem_text (member : c ∈ text micros) : c.isDigit = true ∨ c = '.' := by
  rw [text, fixed_eq, List.mem_append, List.mem_cons] at member
  rcases member with figure | point | figure
  · exact .inl (Text.isDigit_of_mem figure)
  · exact .inr point
  · exact .inl (Timestamp.isDigit_of_mem_threeDigits figure)

/-- The number that a decimal text writes. -/
def decimal (text : List Char) : ℚ :=
  let (whole, places) := (Text.cutAtFirst '.' text).getD (text, [])
  Text.digitsValue whole + Text.digitsValue places / 10 ^ places.length

theorem decimal_fixed (n : Nat) : decimal (fixed n) = n / 1000 := by
  have plain : '.' ∉ Nat.toDigits 10 (n / 1000) := fun member => absurd (Text.isDigit_of_mem member) (by decide)
  have three : (Timestamp.threeDigits n).length = 3 := rfl
  have parts : (n : ℚ) = 1000 * (n / 1000 : Nat) + (n % 1000 : Nat) := by exact_mod_cast (Nat.div_add_mod n 1000).symm
  rw [decimal, fixed_eq, Text.cutAtFirst_append plain, Option.getD_some]
  simp only [three, Text.digitsValue_toDigits, Timestamp.digitsValue_threeDigits]
  rw [parts]
  norm_num
  linarith

theorem decimal_text_mono (le : less ≤ more) : decimal (text less) ≤ decimal (text more) := by
  rw [text, text, decimal_fixed, decimal_fixed]
  gcongr
  exact thousandths_mono le

theorem text_eq (small : micros < 2 ^ 43 * 1000) :
    text micros = Nat.toDigits 10 (micros / 1000) ++ '.' :: Timestamp.padded 3 (micros % 1000) := by
  have behind : micros % 1000 < 1000 := Nat.mod_lt micros (by decide)
  rw [text, thousandths_eq small, fixed_eq, Timestamp.padded_three behind, Timestamp.threeDigits_mod]

end LaunchTrace.Millis
