import LaunchTrace.Proofs.Text.Digits
import LaunchTrace.Recording.Settings
import Mathlib.Data.List.TakeWhile

/-! How long is recorded, as settings give it: digits and a unit. What they come to is counted in a word, so that there
is a longest time in each unit; whatever else is written is refused as it stands. -/
namespace LaunchTrace

/-- What time is given in. Seconds may go without their letter. -/
inductive TimeUnit where
  | bare
  | milliseconds
  | seconds
  | minutes
  | hours
deriving DecidableEq

namespace TimeUnit

variable {unit other : TimeUnit}

def symbol : TimeUnit → List Char
  | bare => []
  | milliseconds => ['m', 's']
  | seconds => ['s']
  | minutes => ['m']
  | hours => ['h']

def nanos : TimeUnit → Nat
  | milliseconds => 10 ^ 6
  | bare | seconds => 10 ^ 9
  | minutes => 60 * 10 ^ 9
  | hours => 3600 * 10 ^ 9

def times (unit : TimeUnit) (n : Nat) : Duration :=
  ⟨n * unit.nanos⟩

/-- The number fits a word, and so do the seconds that minutes and hours come to. -/
def Fits : TimeUnit → Nat → Prop
  | minutes, n => 60 * n < 2 ^ 64
  | hours, n => 3600 * n < 2 ^ 64
  | _, n => n < 2 ^ 64

theorem Fits.lt {n : Nat} (fits : unit.Fits n) : n < 2 ^ 64 := by
  cases unit <;> simp only [Fits] at fits <;> omega

theorem symbol_injective (same : unit.symbol = other.symbol) : unit = other := by
  cases unit <;> cases other <;> first | rfl | exact absurd same (by decide)

theorem takeWhile_symbol (unit : TimeUnit) : unit.symbol.takeWhile Char.isDigit = [] := by
  cases unit <;> decide

/-- A time that fits has its seconds counted in a word. -/
theorem Fits.wholeSeconds_lt {n : Nat} (fits : unit.Fits n) : (unit.times n).wholeSeconds < 2 ^ 64 := by
  cases unit <;> simp only [Fits] at fits <;> simp only [Duration.wholeSeconds, times, nanos] <;> omega

theorem times_eq_zero {n : Nat} : (unit.times n).nanos = 0 ↔ n = 0 := by
  have some : unit.nanos ≠ 0 := by cases unit <;> decide
  rw [times, Nat.mul_eq_zero, or_iff_left some]

end TimeUnit

namespace RecordingSettings

variable {v : String} {value digits : List Char} {n : Nat} {unit : TimeUnit} {d : Duration}

/-- The text is a number in decimal digits, one at least, and the unit behind it. -/
def Spells (value : List Char) (n : Nat) (unit : TimeUnit) : Prop :=
  ∃ digits, value = digits ++ unit.symbol ∧ digits ≠ [] ∧ (∀ c ∈ digits, c.isDigit = true) ∧
    Nat.ofDigitChars 10 digits 0 = n

theorem amountOf?_symbol (fits : unit.Fits n) : amountOf? n unit.symbol = some (unit.times n) := by
  have limit : Text.wordLimit = 2 ^ 64 := by decide
  cases unit with
  | bare | milliseconds | seconds => rfl
  | minutes =>
    have small : n * 60 < Text.wordLimit := by rwa [limit, Nat.mul_comm]
    refine (if_pos small).trans ?_
    rw [Duration.ofSeconds, Nat.mul_assoc]
    rfl
  | hours =>
    have small : n * 3600 < Text.wordLimit := by rwa [limit, Nat.mul_comm]
    refine (if_pos small).trans ?_
    rw [Duration.ofSeconds, Nat.mul_assoc]
    rfl

/-- Nothing else has an amount. -/
theorem symbol_of_amountOf? {symbol : List Char} (small : n < 2 ^ 64) (found : amountOf? n symbol = some d) :
    ∃ unit : TimeUnit, symbol = unit.symbol ∧ unit.Fits n := by
  have limit : Text.wordLimit = 2 ^ 64 := by decide
  unfold amountOf? at found
  split_ifs at found with milliseconds seconds minutes most hours most
  · exact ⟨.milliseconds, milliseconds, small⟩
  · exact seconds.elim (fun bare => ⟨.bare, bare, small⟩) fun letter => ⟨.seconds, letter, small⟩
  · exact ⟨.minutes, minutes, by rwa [limit, Nat.mul_comm] at most⟩
  · exact ⟨.hours, hours, by rwa [limit, Nat.mul_comm] at most⟩

theorem duration?_of_spells (spells : Spells value n unit) (fits : unit.Fits n) :
    duration? value = some (unit.times n) := by
  obtain ⟨digits, rfl, some, figures, rfl⟩ := spells
  have front : (digits ++ unit.symbol).takeWhile Char.isDigit = digits := by
    rw [List.takeWhile_append_of_pos figures, unit.takeWhile_symbol, List.append_nil]
  have back : (digits ++ unit.symbol).dropWhile Char.isDigit = unit.symbol := by
    rw [List.dropWhile_append_of_pos figures, List.dropWhile_eq_self_iff]
    cases unit <;> simp [TimeUnit.symbol]
  have small : Text.digitsValue digits < Text.wordLimit := by
    rw [Text.digitsValue_eq]
    exact fits.lt
  rw [duration?, front, back, if_pos ⟨some, small⟩, Text.digitsValue_eq, amountOf?_symbol fits]

theorem spells_of_duration? (found : duration? value = some d) :
    ∃ n unit, Spells value n unit ∧ unit.Fits n := by
  unfold duration? at found
  dsimp only at found
  split_ifs at found with counted
  obtain ⟨some, small⟩ := counted
  obtain ⟨unit, behind, fits⟩ := symbol_of_amountOf? small found
  rw [Text.digitsValue_eq] at fits
  refine ⟨_, unit, ⟨value.takeWhile Char.isDigit, ?_, some, fun c => List.mem_takeWhile_imp, rfl⟩, fits⟩
  rw [← behind, List.takeWhile_append_dropWhile]

theorem parseDuration_of_spells (spells : Spells value n unit) (fits : unit.Fits n) :
    parseDuration value = .ok (if n = 0 then none else some (unit.times n)) := by
  simp only [parseDuration, duration?_of_spells spells fits, TimeUnit.times_eq_zero]

theorem parseDuration_of_unspelled (unspelled : ¬ ∃ n unit, Spells value n unit ∧ unit.Fits n) :
    parseDuration value = .error (.invalidDuration (String.ofList value)) := by
  cases found : duration? value with
  | none => simp only [parseDuration, found]
  | some d => exact absurd (spells_of_duration? found) unspelled

/-- The digits end where the unit begins. -/
theorem Spells.unique {m : Nat} {other : TimeUnit} (spells : Spells value n unit) (again : Spells value m other) :
    m = n ∧ other = unit := by
  obtain ⟨digits, rfl, _, figures, rfl⟩ := spells
  obtain ⟨others, same, _, figures', rfl⟩ := again
  have front := congrArg (List.takeWhile Char.isDigit) same
  rw [List.takeWhile_append_of_pos figures, List.takeWhile_append_of_pos figures', unit.takeWhile_symbol,
    other.takeWhile_symbol, List.append_nil, List.append_nil] at front
  subst front
  exact ⟨rfl, TimeUnit.symbol_injective (List.append_cancel_left same).symm⟩

theorem parseDuration_eq_ok {limit : Option Duration} : parseDuration value = .ok limit ↔
    ∃ n unit, Spells value n unit ∧ unit.Fits n ∧ limit = if n = 0 then none else some (unit.times n) := by
  constructor
  · intro read
    by_cases spelled : ∃ n unit, Spells value n unit ∧ unit.Fits n
    · obtain ⟨n, unit, spells, fits⟩ := spelled
      rw [parseDuration_of_spells spells fits] at read
      exact ⟨n, unit, spells, fits, (Except.ok.inj read).symm⟩
    · rw [parseDuration_of_unspelled spelled] at read
      contradiction
  · rintro ⟨n, unit, spells, fits, rfl⟩
    exact parseDuration_of_spells spells fits

theorem parseDuration_eq_error {e : SettingsError} : parseDuration value = .error e ↔
    (¬ ∃ n unit, Spells value n unit ∧ unit.Fits n) ∧ e = .invalidDuration (String.ofList value) := by
  constructor
  · intro refused
    have unspelled : ¬ ∃ n unit, Spells value n unit ∧ unit.Fits n := by
      rintro ⟨n, unit, spells, fits⟩
      rw [parseDuration_of_spells spells fits] at refused
      contradiction
    rw [parseDuration_of_unspelled unspelled] at refused
    exact ⟨unspelled, (Except.error.inj refused).symm⟩
  · rintro ⟨unspelled, rfl⟩
    exact parseDuration_of_unspelled unspelled

/-- Zeros in front do not count. -/
theorem spells_zeros (zeros n : Nat) (unit : TimeUnit) :
    Spells (List.replicate zeros '0' ++ Nat.toDigits 10 n ++ unit.symbol) n unit := by
  refine ⟨_, rfl, List.append_ne_nil_of_right_ne_nil _ Nat.toDigits_ne_nil, ?_, ?_⟩
  · intro c member
    rcases List.mem_append.mp member with zero | figure
    · rw [List.eq_of_mem_replicate zero]
      decide
    · exact Text.isDigit_of_mem figure
  · rw [← Text.digitsValue_eq, Text.digitsValue_append, Text.digitsValue_zeros, Text.digitsValue_toDigits,
      Nat.mul_zero, Nat.zero_add]

/-- A duration is read exactly where a text spells a number and a unit that fit, and then it is that time, or no limit
where the number is zero. There is one reading at most, whatever the zeros in front, and its seconds fit a word. All
other texts are refused, and the error carries them unchanged. -/
theorem parseDuration_spells (v : String) :
    (∀ limit, parseDuration v.toList = .ok limit ↔
        ∃ n unit, Spells v.toList n unit ∧ unit.Fits n ∧ limit = if n = 0 then none else some (unit.times n)) ∧
      (∀ e, parseDuration v.toList = .error e ↔
        (¬ ∃ n unit, Spells v.toList n unit ∧ unit.Fits n) ∧ e = .invalidDuration v) ∧
      (∀ n unit m other, Spells v.toList n unit → Spells v.toList m other → m = n ∧ other = unit) ∧
      (∀ zeros n unit, v.toList = List.replicate zeros '0' ++ Nat.toDigits 10 n ++ TimeUnit.symbol unit →
        Spells v.toList n unit) ∧
      ∀ d, parseDuration v.toList = .ok (some d) → d.wholeSeconds < 2 ^ 64 := by
  refine ⟨fun limit => parseDuration_eq_ok, fun e => ?_, fun n unit m other => Spells.unique, ?_, ?_⟩
  · rw [parseDuration_eq_error, String.ofList_toList]
  · intro zeros n unit text
    rw [text]
    exact spells_zeros zeros n unit
  · intro d read
    obtain ⟨n, unit, _, fits, amount⟩ := parseDuration_eq_ok.mp read
    split_ifs at amount
    obtain rfl := Option.some.inj amount
    exact fits.wholeSeconds_lt

/-- The longest times there are, and the shortest that are too long. -/
example :
    parseDuration "0018446744073709551615ms".toList = .ok (some (.ofMillis 18446744073709551615)) ∧
      parseDuration "18446744073709551616".toList = .error (.invalidDuration "18446744073709551616") ∧
      parseDuration "5124095576030431h".toList = .ok (some (.ofSeconds 18446744073709551600)) ∧
      parseDuration "5124095576030432h".toList = .error (.invalidDuration "5124095576030432h") := by
  decide +kernel

end RecordingSettings
end LaunchTrace
