import LaunchTrace.Time.Millis
import Mathlib.Algebra.Order.Field.Power
import Mathlib.Data.Rat.Cast.Order
import Mathlib.Tactic.Linarith
import Mathlib.Tactic.Positivity

/-! Rounding to whole numbers and to binary fractions of 53 bits. Either keeps the order of what is rounded and goes at
most half a unit astray. -/
namespace LaunchTrace.Millis

variable {num den num' den' n : Nat}

/-! ## Whole numbers -/

theorem lt_roundDiv_iff (positive : 0 < den) :
    n < roundDiv num den ↔ (2 * n + 1) * den < 2 * num ∨ (2 * n + 1) * den = 2 * num ∧ n % 2 = 1 := by
  have whole : num = num / den * den + num % den := (Nat.div_add_mod' num den).symm
  have part : num % den < den := Nat.mod_lt num positive
  have near : num / den ≤ roundDiv num den ∧ roundDiv num den ≤ num / den + 1 := by
    unfold roundDiv
    dsimp only
    split_ifs <;> omega
  have middle : (2 * n + 1) * den = 2 * (n * den) + den := by rw [Nat.add_mul, Nat.one_mul, Nat.mul_assoc]
  rw [middle]
  rcases lt_trichotomy n (num / den) with before | same | behind
  · have least : (n + 1) * den ≤ num / den * den := Nat.mul_le_mul_right den before
    rw [Nat.succ_mul] at least
    omega
  · unfold roundDiv
    dsimp only
    rw [← same] at whole ⊢
    split_ifs <;> omega
  · have most : (num / den + 1) * den ≤ n * den := Nat.mul_le_mul_right den behind
    rw [Nat.succ_mul] at most
    omega

/-- Rounding goes beyond `n` from the middle between `n` and its successor on, and in the middle where `n` is odd. -/
theorem lt_roundDiv (positive : 0 < den) : n < roundDiv num den ↔
    (n + 1 / 2 : ℚ) < num / den ∨ (n + 1 / 2 : ℚ) = num / den ∧ n % 2 = 1 := by
  have divisor : (0 : ℚ) < den := Nat.cast_pos.mpr positive
  rw [lt_roundDiv_iff positive, lt_div_iff₀ divisor, eq_div_iff divisor.ne', ← @Nat.cast_lt ℚ, ← @Nat.cast_inj ℚ]
  push_cast
  constructor
  · rintro (past | ⟨middle, odd⟩)
    · exact .inl (by linarith)
    · exact .inr ⟨by linarith, odd⟩
  · rintro (past | ⟨middle, odd⟩)
    · exact .inl (by linarith)
    · exact .inr ⟨by linarith, odd⟩

theorem roundDiv_mono (positive : 0 < den) (positive' : 0 < den') (le : (num / den : ℚ) ≤ num' / den') :
    roundDiv num den ≤ roundDiv num' den' := by
  apply le_of_forall_lt
  intro n below
  rw [lt_roundDiv positive] at below
  rw [lt_roundDiv positive']
  rcases below with past | ⟨middle, odd⟩
  · exact .inl (past.trans_le le)
  · rcases (middle.le.trans le).lt_or_eq with past | same
    · exact .inl past
    · exact .inr ⟨same, odd⟩

theorem le_roundDiv_add (num : Nat) (positive : 0 < den) : (num / den : ℚ) ≤ roundDiv num den + 1 / 2 := by
  have stop := lt_irrefl (roundDiv num den)
  rw [lt_roundDiv positive] at stop
  exact le_of_not_gt fun past => stop (.inl past)

theorem roundDiv_le_add (num : Nat) (positive : 0 < den) : (roundDiv num den : ℚ) ≤ num / den + 1 / 2 := by
  cases rounded : roundDiv num den with
  | zero =>
    have least : (0 : ℚ) ≤ num / den := by positivity
    push_cast
    linarith
  | succ n =>
    have past : n < roundDiv num den := by omega
    have beyond : (n + 1 / 2 : ℚ) ≤ num / den := by
      rcases (lt_roundDiv positive).mp past with past | ⟨middle, -⟩
      · exact past.le
      · exact middle.le
    push_cast
    linarith

theorem le_roundDiv (positive : 0 < den) (above : (n : ℚ) < num / den + 1 / 2) : n ≤ roundDiv num den := by
  have most : (n : ℚ) < roundDiv num den + 1 := by linarith [le_roundDiv_add num positive]
  exact Nat.lt_succ_iff.mp (by exact_mod_cast most)

theorem roundDiv_le (positive : 0 < den) (below : (num / den : ℚ) < n + 1 / 2) : roundDiv num den ≤ n := by
  have least : (roundDiv num den : ℚ) < n + 1 := by linarith [roundDiv_le_add num positive]
  exact Nat.lt_succ_iff.mp (by exact_mod_cast least)

/-- What is nearer to `n` than the middle is rounded to `n`. -/
theorem roundDiv_eq (positive : 0 < den) (above : (n : ℚ) < num / den + 1 / 2) (below : (num / den : ℚ) < n + 1 / 2) :
    roundDiv num den = n :=
  le_antisymm (roundDiv_le positive below) (le_roundDiv positive above)

/-! ## Binary fractions -/

def Binary.value (b : Binary) : ℚ :=
  b.mantissa * 2 ^ b.exponent

theorem pow_div_pow (exponent : Int) :
    ((2 ^ exponent.toNat : Nat) : ℚ) / ((2 ^ (-exponent).toNat : Nat) : ℚ) = 2 ^ exponent := by
  rcases le_total 0 exponent with positive | negative
  · obtain ⟨n, rfl⟩ := Int.eq_ofNat_of_zero_le positive
    simp
  · obtain ⟨n, whole⟩ := Int.eq_ofNat_of_zero_le (Int.neg_nonneg_of_nonpos negative)
    obtain rfl : exponent = -(n : Int) := by omega
    simp

theorem Binary.num_div_den (b : Binary) : (b.num / b.den : ℚ) = b.value := by
  rw [Binary.num, Binary.den, Binary.value, ← pow_div_pow, Nat.cast_mul, mul_div_assoc]
  rfl

theorem Binary.den_pos (b : Binary) : 0 < b.den :=
  Nat.two_pow_pos _

theorem Binary.num_pos {b : Binary} (positive : 0 < b.value) : 0 < b.num := by
  apply Nat.pos_of_ne_zero
  intro none
  rw [← b.num_div_den, none, Nat.cast_zero, zero_div] at positive
  exact lt_irrefl _ positive

theorem scale_den_pos (num : Nat) (positive : 0 < den) (exponent : Int) : 0 < (scale num den exponent).2 :=
  Nat.mul_pos positive (Nat.two_pow_pos _)

theorem scale_ratio (num den : Nat) (exponent : Int) :
    ((scale num den exponent).1 / (scale num den exponent).2 : ℚ) = num / den / 2 ^ exponent := by
  rw [← pow_div_pow exponent, scale, div_div_eq_mul_div, div_mul_eq_mul_div, div_div, Nat.cast_mul, Nat.cast_mul]
  rfl

theorem significand_iff (positive : 0 < den) (exponent : Int) :
    (scale num den exponent).1 / (scale num den exponent).2 < significandLimit ↔
      (num / den : ℚ) < 2 ^ 53 * 2 ^ exponent := by
  have divisor : (0 : ℚ) < (scale num den exponent).2 := Nat.cast_pos.mpr (scale_den_pos num positive exponent)
  have limit : (significandLimit : ℚ) = 2 ^ 53 := by norm_num [significandLimit]
  rw [← div_lt_iff₀ (by positivity), ← scale_ratio, div_lt_iff₀ divisor, ← limit,
    Nat.div_lt_iff_lt_mul (scale_den_pos num positive exponent)]
  exact_mod_cast Iff.rfl

/-- The logarithms leave the unit open by a factor of two. -/
theorem log2_bounds (some : 0 < num) (positive : 0 < den) {low : Int}
    (logarithms : low = (Nat.log2 num : Int) - Nat.log2 den - 53) :
    2 ^ 52 * 2 ^ low ≤ (num / den : ℚ) ∧ (num / den : ℚ) < 2 ^ 53 * 2 ^ (low + 1) := by
  have divisor : (0 : ℚ) < den := Nat.cast_pos.mpr positive
  have least : (2 ^ num.log2 : ℚ) ≤ num := by exact_mod_cast Nat.log2_self_le some.ne'
  have most : (num : ℚ) < 2 ^ (num.log2 + 1) := by exact_mod_cast Nat.lt_log2_self
  have below : (2 ^ den.log2 : ℚ) ≤ den := by exact_mod_cast Nat.log2_self_le positive.ne'
  have above : (den : ℚ) < 2 ^ (den.log2 + 1) := by exact_mod_cast Nat.lt_log2_self
  rw [le_div_iff₀ divisor, div_lt_iff₀ divisor]
  constructor
  · calc (2 ^ 52 * 2 ^ low * den : ℚ) ≤ 2 ^ 52 * 2 ^ low * 2 ^ (den.log2 + 1) := by gcongr
      _ = 2 ^ num.log2 := by
        simp only [← zpow_natCast, ← zpow_add₀ (two_ne_zero' ℚ), logarithms]
        congr 1
        push_cast
        omega
      _ ≤ num := least
  · calc (num : ℚ) < 2 ^ (num.log2 + 1) := most
      _ = 2 ^ 53 * 2 ^ (low + 1) * 2 ^ den.log2 := by
        simp only [← zpow_natCast, ← zpow_add₀ (two_ne_zero' ℚ), logarithms]
        congr 1
        push_cast
        omega
      _ ≤ 2 ^ 53 * 2 ^ (low + 1) * den := by gcongr

/-- In its unit, a number has 53 bits before the point. -/
theorem unitExponent_bounds (some : 0 < num) (positive : 0 < den) :
    2 ^ 52 * 2 ^ unitExponent num den ≤ (num / den : ℚ) ∧ (num / den : ℚ) < 2 ^ 53 * 2 ^ unitExponent num den := by
  obtain ⟨least, most⟩ := log2_bounds some positive rfl
  unfold unitExponent
  dsimp only
  split_ifs with fits
  · exact ⟨least, (significand_iff positive _).mp fits⟩
  · refine ⟨?_, most⟩
    have beyond := le_of_not_gt fun small => fits ((significand_iff positive _).mpr small)
    rw [zpow_add_one₀ (two_ne_zero' ℚ)]
    linarith

theorem nearest_zero (den : Nat) : nearest 0 den = ⟨0, 0⟩ := rfl

/-- The significand is the number in its unit, rounded. -/
theorem value_nearest (some : 0 < num) (den : Nat) :
    (nearest num den).value = roundDiv (scale num den (unitExponent num den)).1
      (scale num den (unitExponent num den)).2 * 2 ^ unitExponent num den := by
  rw [nearest, if_neg some.ne']
  rfl

theorem value_nonneg (b : Binary) : 0 ≤ b.value := by
  unfold Binary.value
  positivity

theorem value_nearest_bounds (some : 0 < num) (positive : 0 < den) :
    2 ^ 52 * 2 ^ unitExponent num den ≤ (nearest num den).value ∧
      (nearest num den).value ≤ 2 ^ 53 * 2 ^ unitExponent num den := by
  obtain ⟨least, most⟩ := unitExponent_bounds some positive
  have unit : (0 : ℚ) < 2 ^ unitExponent num den := by positivity
  have divisor := scale_den_pos num positive (unitExponent num den)
  rw [value_nearest some, mul_le_mul_iff_left₀ unit, mul_le_mul_iff_left₀ unit]
  rw [← le_div_iff₀ unit, ← scale_ratio] at least
  rw [← div_lt_iff₀ unit, ← scale_ratio] at most
  constructor
  · exact_mod_cast le_roundDiv (n := 2 ^ 52) divisor (by push_cast; linarith)
  · exact_mod_cast roundDiv_le (n := 2 ^ 53) divisor (by push_cast; linarith)

/-- A greater number has no smaller unit. -/
theorem unitExponent_mono (some : 0 < num) (positive : 0 < den) (positive' : 0 < den')
    (le : (num / den : ℚ) ≤ num' / den') (some' : 0 < num') : unitExponent num den ≤ unitExponent num' den' := by
  obtain ⟨least, -⟩ := unitExponent_bounds some positive
  obtain ⟨-, most⟩ := unitExponent_bounds some' positive'
  have units : (2 ^ unitExponent num den : ℚ) < 2 ^ (unitExponent num' den' + 1) := by
    rw [zpow_add_one₀ (two_ne_zero' ℚ)]
    linarith
  exact Int.lt_add_one_iff.mp ((zpow_lt_zpow_iff_right₀ one_lt_two).mp units)

theorem nearest_mono (positive : 0 < den) (positive' : 0 < den') (le : (num / den : ℚ) ≤ num' / den') :
    (nearest num den).value ≤ (nearest num' den').value := by
  rcases Nat.eq_zero_or_pos num with rfl | some
  · refine le_trans (le_of_eq ?_) (value_nonneg _)
    simp [nearest_zero, Binary.value]
  have divisor : (0 : ℚ) < den' := Nat.cast_pos.mpr positive'
  have some' : 0 < num' := by
    have ratio : (0 : ℚ) < num' / den' := lt_of_lt_of_le (by positivity) le
    exact_mod_cast (div_pos_iff_of_pos_right divisor).mp ratio
  rcases (unitExponent_mono some positive positive' le some').lt_or_eq with less | same
  · -- Between different units stands the power of two that either reaches at most.
    obtain ⟨-, most⟩ := value_nearest_bounds some positive
    obtain ⟨least, -⟩ := value_nearest_bounds some' positive'
    have units : (2 ^ (unitExponent num den + 1) : ℚ) ≤ 2 ^ unitExponent num' den' :=
      zpow_le_zpow_right₀ one_le_two less
    rw [zpow_add_one₀ (two_ne_zero' ℚ)] at units
    linarith
  · rw [value_nearest some, value_nearest some', ← same]
    gcongr
    apply roundDiv_mono (scale_den_pos num positive _) (scale_den_pos num' positive' _)
    rw [scale_ratio, scale_ratio]
    gcongr

/-- A multiple of its unit is kept. -/
theorem nearest_exact (some : 0 < num) (positive : 0 < den)
    (multiple : (num / den : ℚ) = n * 2 ^ unitExponent num den) : (nearest num den).value = num / den := by
  have unit : (0 : ℚ) < 2 ^ unitExponent num den := by positivity
  have whole : roundDiv (scale num den (unitExponent num den)).1 (scale num den (unitExponent num den)).2 = n := by
    apply roundDiv_eq (scale_den_pos num positive _)
    · rw [scale_ratio, multiple, mul_div_cancel_right₀ _ unit.ne']
      linarith
    · rw [scale_ratio, multiple, mul_div_cancel_right₀ _ unit.ne']
      linarith
  rw [value_nearest some, whole, multiple]

/-- A whole number of at most 53 bits is kept. -/
theorem nearest_natural (small : n < 2 ^ 53) : (nearest n 1).value = n := by
  rcases Nat.eq_zero_or_pos n with rfl | some
  · simp [nearest_zero, Binary.value]
  obtain ⟨least, -⟩ := unitExponent_bounds some Nat.one_pos
  have whole : ((n : ℚ) / (1 : Nat)) = n := by rw [Nat.cast_one, div_one]
  have limit : (n : ℚ) < 2 ^ 53 := by exact_mod_cast small
  rw [whole] at least
  -- The unit is at most one, so the number is a multiple of it.
  have fine : unitExponent n 1 < 1 := by
    have unit : (2 ^ unitExponent n 1 : ℚ) < 2 ^ (1 : Int) := by
      rw [zpow_one]
      linarith
    exact (zpow_lt_zpow_iff_right₀ one_lt_two).mp unit
  obtain ⟨j, exponent⟩ := Int.eq_ofNat_of_zero_le (show 0 ≤ -unitExponent n 1 by omega)
  have multiple : (n / (1 : Nat) : ℚ) = (n * 2 ^ j : Nat) * 2 ^ unitExponent n 1 := by
    rw [whole, ← neg_neg (unitExponent n 1), exponent, zpow_neg, zpow_natCast]
    push_cast
    rw [mul_assoc, mul_inv_cancel₀ (by positivity), mul_one]
  rw [nearest_exact some Nat.one_pos multiple, whole]

/-- The error is at most half the unit. -/
theorem nearest_error (some : 0 < num) (positive : 0 < den) :
    |(nearest num den).value - num / den| ≤ 2 ^ unitExponent num den / 2 := by
  have unit : (0 : ℚ) < 2 ^ unitExponent num den := by positivity
  have divisor := scale_den_pos num positive (unitExponent num den)
  have most := roundDiv_le_add (scale num den (unitExponent num den)).1 divisor
  have least := le_roundDiv_add (scale num den (unitExponent num den)).1 divisor
  rw [scale_ratio] at most least
  have above := mul_le_mul_of_nonneg_right most unit.le
  have below := mul_le_mul_of_nonneg_right least unit.le
  rw [add_mul, div_mul_cancel₀ _ unit.ne'] at above below
  rw [value_nearest some, abs_le]
  constructor <;> linarith

end LaunchTrace.Millis
