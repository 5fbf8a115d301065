import LaunchTrace.Proofs.Text.Digits
import LaunchTrace.Time.Notation

/-! Valid timestamps are read back from their texts, to the nanosecond. -/
namespace LaunchTrace.Timestamp

variable {n : Nat} {c : Char} {rest digits : List Char}

theorem isDigit_digit (n : Nat) : (digit n).isDigit = true := by
  rw [digit, Nat.isDigit_digitChar, decide_eq_true_eq]
  exact Nat.mod_lt n (by decide)

theorem digitValue_digit (n : Nat) : Text.digitValue (digit n) = n % 10 := by
  rw [Text.digitValue, digit, Nat.toNat_digitChar_of_lt_ten (Nat.mod_lt n (by decide))]
  exact Nat.add_sub_cancel_left _ _

theorem isDigit_of_mem_twoDigits (member : c ∈ twoDigits n) : c.isDigit = true := by
  simp only [twoDigits, List.mem_cons, List.not_mem_nil, or_false] at member
  rcases member with rfl | rfl <;> exact isDigit_digit _

theorem digitsValue_twoDigits (n : Nat) : Text.digitsValue (twoDigits n) = n % 100 := by
  simp only [Text.digitsValue, twoDigits, List.foldl_cons, List.foldl_nil, digitValue_digit]
  omega

theorem isDigit_of_mem_threeDigits (member : c ∈ threeDigits n) : c.isDigit = true := by
  rcases List.mem_cons.mp member with rfl | member
  · exact isDigit_digit _
  · exact isDigit_of_mem_twoDigits member

theorem digitsValue_threeDigits (n : Nat) : Text.digitsValue (threeDigits n) = n % 1000 := by
  simp only [Text.digitsValue, threeDigits, twoDigits, List.foldl_cons, List.foldl_nil, digitValue_digit]
  omega

theorem trimStart_cons (solid : Text.isBlank c = false) : Text.trimStart (c :: rest) = c :: rest := by
  rw [Text.trimStart, List.dropWhile_cons_of_neg (by simp [solid])]

/-- Digits are no blanks. -/
theorem isBlank_of_isDigit (figure : c.isDigit = true) : Text.isBlank c = false := by
  obtain ⟨least, most⟩ := Text.toNat_of_isDigit figure
  simp only [Text.isBlank, Text.blankRanges, Text.Ranges.contains, List.any_cons, List.any_nil, Bool.or_false,
    Bool.or_eq_false_iff, Bool.and_eq_false_iff, decide_eq_false_iff_not]
  omega

theorem scanNumber_digits (some : digits ≠ []) (all : ∀ c ∈ digits, c.isDigit = true) (rest : List Char) :
    scanNumber digits.length (digits ++ rest) = Option.some (Text.digitsValue digits, rest) := by
  have own : digits.takeWhile Char.isDigit = digits := by
    rw [← List.append_nil digits, List.takeWhile_append_of_pos all, List.takeWhile_nil]
  simp only [scanNumber, List.take_left', own, if_neg some, List.drop_left']

theorem scanPart_twoDigits (small : n < 100) : scanPart 2 (twoDigits n ++ rest) = some (n, rest) := by
  have start : Text.trimStart (twoDigits n ++ rest) = twoDigits n ++ rest :=
    trimStart_cons (isBlank_of_isDigit (isDigit_digit _))
  have scanned := scanNumber_digits (by simp [twoDigits]) (fun _ => isDigit_of_mem_twoDigits (n := n)) rest
  rw [digitsValue_twoDigits, Nat.mod_eq_of_lt small] at scanned
  rw [scanPart, start]
  exact scanned

theorem scanMark_cons {mark : Char} (solid : Text.isBlank mark = false) : scanMark mark (mark :: rest) = some rest := by
  rw [scanMark, trimStart_cons solid]
  exact if_pos rfl

theorem scanYear_yearText {year : Int} (first : 0 ≤ year) (last : year ≤ 9999) :
    scanYear (yearText year ++ rest) = some (year, rest) := by
  obtain ⟨n, rfl⟩ := Int.eq_ofNat_of_zero_le first
  have small : n < 10000 := by omega
  rw [yearText, if_pos ⟨first, last⟩, Int.toNat_natCast]
  have all : ∀ c ∈ twoDigits (n / 100) ++ twoDigits n, c.isDigit = true := by
    intro c member
    rcases List.mem_append.mp member with member | member
    · exact isDigit_of_mem_twoDigits member
    · exact isDigit_of_mem_twoDigits member
  have value : Text.digitsValue (twoDigits (n / 100) ++ twoDigits n) = n := by
    rw [Text.digitsValue_append, digitsValue_twoDigits, digitsValue_twoDigits, twoDigits]
    simp only [List.length_cons, List.length_nil]
    omega
  have scanned := scanNumber_digits (by simp [twoDigits]) all rest
  rw [value] at scanned
  have start : Text.trimStart (twoDigits (n / 100) ++ twoDigits n ++ rest) =
      twoDigits (n / 100) ++ twoDigits n ++ rest := trimStart_cons (isBlank_of_isDigit (isDigit_digit _))
  -- There is no sign before four digits.
  have figure := isDigit_digit (n / 100 / 10)
  rw [scanYear, start]
  split <;> rename_i same
  · rw [twoDigits, List.cons_append, List.cons_append] at same
    rw [(List.cons.inj same).1] at figure
    contradiction
  · rw [twoDigits, List.cons_append, List.cons_append] at same
    rw [(List.cons.inj same).1] at figure
    contradiction
  · exact congrArg (Option.map fun found => ((found.1 : Int), found.2)) scanned

theorem isDigit_of_mem_padded {width : Nat} (member : c ∈ padded width n) : c.isDigit = true := by
  rcases List.mem_append.mp member with zero | figure
  · rw [List.eq_of_mem_replicate zero]
    decide
  · exact Text.isDigit_of_mem figure

theorem digitsValue_padded (width n : Nat) : Text.digitsValue (padded width n) = n := by
  rw [padded, Text.digitsValue_append, Text.digitsValue_zeros, Text.digitsValue_toDigits, Nat.mul_zero, Nat.zero_add]

theorem threeDigits_mod (n : Nat) : threeDigits (n % 1000) = threeDigits n := by
  have first : n % 1000 / 100 % 10 = n / 100 % 10 := by omega
  have second : n % 1000 / 10 % 10 = n / 10 % 10 := by omega
  have third : n % 1000 % 10 = n % 10 := by omega
  simp only [threeDigits, twoDigits, digit, first, second, third]

theorem padded_three (small : n < 1000) : padded 3 n = threeDigits n := by
  have last (m : Nat) (least : 10 ≤ m) : Nat.toDigits 10 m = Nat.toDigits 10 (m / 10) ++ [digit m] := by
    rw [Nat.toDigits_eq_if (by decide), if_neg (by omega)]
    rfl
  have one (m : Nat) (below : m < 10) : Nat.toDigits 10 m = [digit m] := by
    rw [Nat.toDigits_of_lt_base below, digit, Nat.mod_eq_of_lt below]
  have zero (m : Nat) (none : m = 0) : digit m = '0' := none ▸ rfl
  have hundreds : n / 10 / 10 = n / 100 := Nat.div_div_eq_div_mul n 10 10
  rw [padded, threeDigits, twoDigits]
  rcases Nat.lt_or_ge n 10 with units | tens
  · rw [one n units, zero (n / 100) (by omega), zero (n / 10) (by omega)]
    rfl
  · rcases Nat.lt_or_ge n 100 with below | above
    · rw [last n tens, one (n / 10) (by omega), zero (n / 100) (by omega)]
      rfl
    · rw [last n tens, last (n / 10) (by omega), hundreds, one (n / 100) (by omega)]
      rfl

/-- A number that may have any length ends where the digits do. -/
theorem scanNumber_padded (width n : Nat) (mark : Char) (rest : List Char) (other : mark.isDigit = false) :
    scanNumber (padded width n ++ mark :: rest).length (padded width n ++ mark :: rest) = some (n, mark :: rest) := by
  have own : (padded width n ++ mark :: rest).takeWhile Char.isDigit = padded width n := by
    rw [List.takeWhile_append_of_pos fun _ => isDigit_of_mem_padded,
      List.takeWhile_cons_of_neg (by rw [other]; exact Bool.false_ne_true), List.append_nil]
  have some : padded width n ≠ [] := List.append_ne_nil_of_right_ne_nil _ Nat.toDigits_ne_nil
  simp only [scanNumber, List.take_length, own, if_neg some, List.drop_left', digitsValue_padded]

/-- A year that needs a sign may have more digits than four, up to the dash behind it. -/
theorem scanYear_signed {year : Int} (outside : ¬ (0 ≤ year ∧ year ≤ 9999)) :
    scanYear (yearText year ++ '-' :: rest) = some (year, '-' :: rest) := by
  have scanned := scanNumber_padded 4 year.natAbs '-' rest (by decide)
  rw [yearText, if_neg outside, List.cons_append, scanYear]
  split_ifs with negative
  · have value : -(year.natAbs : Int) = year := by omega
    rw [trimStart_cons (by decide)]
    refine (congrArg (Option.map fun found => (-(found.1 : Int), found.2)) scanned).trans ?_
    rw [Option.map_some, value]
  · have value : (year.natAbs : Int) = year := by omega
    rw [trimStart_cons (by decide)]
    refine (congrArg (Option.map fun found => ((found.1 : Int), found.2)) scanned).trans ?_
    rw [Option.map_some, value]

theorem scanFraction_digits (digits : List Char) (some : digits ≠ []) (short : digits.length ≤ 9)
    (all : ∀ c ∈ digits, c.isDigit = true) (value : 10 ^ (9 - digits.length) * Text.digitsValue digits = n) :
    scanFraction ('.' :: digits ++ ['Z']) = Option.some (n, ['Z']) := by
  have own : (digits ++ ['Z']).takeWhile Char.isDigit = digits := by
    rw [List.takeWhile_append_of_pos all, List.takeWhile_cons_of_neg (by decide), List.append_nil]
  have behind : (digits ++ ['Z']).dropWhile Char.isDigit = ['Z'] := by
    rw [List.dropWhile_append_of_pos all, List.dropWhile_cons_of_neg (by decide)]
  have nine : (digits ++ List.replicate 9 '0').take 9 = digits ++ List.replicate (9 - digits.length) '0' := by
    rw [List.take_append, List.take_of_length_le short, List.take_replicate, Nat.min_eq_left (Nat.sub_le _ _)]
  rw [List.cons_append, scanFraction, own, behind, if_neg some, nine, Text.digitsValue_append,
    Text.digitsValue_zeros, List.length_replicate, Nat.add_zero, value]

theorem scanFraction_fractionText (small : n < 1000000000) :
    scanFraction (fractionText n ++ ['Z']) = some (n, ['Z']) := by
  have three (m : Nat) : ∀ c ∈ threeDigits m, c.isDigit = true := fun _ => isDigit_of_mem_threeDigits
  have more {front : List Char} (m : Nat) (all : ∀ c ∈ front, c.isDigit = true) :
      ∀ c ∈ front ++ threeDigits m, c.isDigit = true := by
    intro c member
    exact (List.mem_append.mp member).elim (all c) (three m c)
  have length (m : Nat) : (threeDigits m).length = 3 := rfl
  unfold fractionText
  split
  · rename_i none
    rw [none]
    rfl
  · split
    · refine scanFraction_digits (threeDigits _) (by simp [threeDigits]) (by simp [length]) (three _) ?_
      rw [digitsValue_threeDigits, length]
      omega
    · split
      · refine scanFraction_digits (threeDigits _ ++ threeDigits _) (by simp [threeDigits]) (by simp [length])
          (more _ (three _)) ?_
        simp only [Text.digitsValue_append, digitsValue_threeDigits, List.length_append, length]
        omega
      · refine scanFraction_digits (threeDigits _ ++ threeDigits _ ++ threeDigits _) (by simp [threeDigits])
          (by simp [length]) (more _ (more _ (three _))) ?_
        simp only [Text.digitsValue_append, digitsValue_threeDigits, List.length_append, length]
        omega

/-- Without an offset local time is universal time. -/
theorem ofLocal_zero {t : Timestamp} (hour : t.hour < 24) (minute : t.minute < 60) : t.ofLocal 0 = t := by
  obtain ⟨date, h, m, second, nano⟩ := t
  dsimp only at hour minute
  have early : ¬ ((h * 60 + m - 0 : Int) < 0) := by omega
  have late : ¬ (minutesPerDay ≤ (h * 60 + m - 0 : Int)) := by
    simp only [minutesPerDay]
    omega
  simp only [ofLocal, if_neg early, if_neg late]
  congr
  · omega
  · omega

/-- The text from the hour on. -/
def clockText (t : Timestamp) : List Char :=
  twoDigits t.hour ++ ':' :: (twoDigits t.minute ++ ':' :: (twoDigits t.second ++ (fractionText t.nano ++ ['Z'])))

theorem text_eq (t : Timestamp) : t.text = yearText t.date.year ++ '-' :: (twoDigits t.date.month ++
    '-' :: (twoDigits t.date.day ++ 'T' :: clockText t)) := by
  simp [text, clockText]

theorem daysInMonth_le (year : Int) (month : Nat) : Date.daysInMonth year month ≤ 31 := by
  unfold Date.daysInMonth
  split
  · split <;> decide
  · split <;> decide

theorem scanDate_text {t : Timestamp} (valid : t.date.Valid) :
    scanDate t.text = some (t.date, 'T' :: clockText t) := by
  obtain ⟨_, _, _, month, _, day⟩ := valid
  have days := daysInMonth_le t.date.year t.date.month
  have dash (rest : List Char) : scanMark '-' ('-' :: rest) = some rest := scanMark_cons (by decide)
  have month : t.date.month < 100 := by omega
  have day : t.date.day < 100 := by omega
  have year (rest : List Char) : scanYear (yearText t.date.year ++ '-' :: rest) = some (t.date.year, '-' :: rest) := by
    by_cases inside : 0 ≤ t.date.year ∧ t.date.year ≤ 9999
    · exact scanYear_yearText inside.1 inside.2
    · exact scanYear_signed inside
  simp only [scanDate, text_eq, year, dash, scanPart_twoDigits month, scanPart_twoDigits day, Option.bind_eq_bind,
    Option.bind_some]
  rfl

theorem parse_text {t : Timestamp} (valid : t.Valid) : parse t.text = some t := by
  have ⟨date, hour, minute, second, nano⟩ := valid
  have hours : t.hour < 100 := by omega
  have minutes : t.minute < 100 := by omega
  have seconds : t.second < 100 := by omega
  have separator (rest : List Char) : skipSeparator ('T' :: rest) = some rest := by simp [skipSeparator]
  have colon (rest : List Char) : scanMark ':' (':' :: rest) = some rest := scanMark_cons (by decide)
  have zone : Text.trimStart ['Z'] = ['Z'] := trimStart_cons (by decide)
  have universal : scanOffset ['Z'] = some (0, []) := rfl
  rw [parse, scanDate_text date]
  simp only [Option.bind_eq_bind, Option.bind_some, separator, clockText, colon, scanPart_twoDigits hours,
    scanPart_twoDigits minutes, scanPart_twoDigits seconds, scanFraction_fractionText nano, zone, universal]
  have same := ofLocal_zero hour minute
  rw [if_pos ⟨rfl, valid, by decide, by decide, by rwa [same]⟩, same]

/-- Characters that dates and times are written with. -/
def Written (s : List Char) : Prop :=
  ∀ c ∈ s, c.isDigit = true ∨ c ∈ ['+', '-', ':', '.', 'T', 'Z']

theorem written_nil : Written [] :=
  fun _ member => absurd member List.not_mem_nil

theorem written_append {front back : List Char} : Written (front ++ back) ↔ Written front ∧ Written back :=
  List.forall_mem_append

theorem written_cons : Written (c :: rest) ↔
    (c.isDigit = true ∨ c ∈ ['+', '-', ':', '.', 'T', 'Z']) ∧ Written rest :=
  List.forall_mem_cons

theorem written_digits (all : ∀ c ∈ digits, c.isDigit = true) : Written digits :=
  fun c member => Or.inl (all c member)

theorem written_twoDigits (n : Nat) : Written (twoDigits n) :=
  written_digits fun _ => isDigit_of_mem_twoDigits

theorem written_yearText (year : Int) : Written (yearText year) := by
  unfold yearText
  split
  · exact written_append.mpr ⟨written_twoDigits _, written_twoDigits _⟩
  · refine written_cons.mpr ⟨by split <;> decide, written_append.mpr ⟨?_, ?_⟩⟩
    · exact written_digits fun c member => by rw [List.eq_of_mem_replicate member]; decide
    · exact written_digits fun _ => Text.isDigit_of_mem

theorem written_fractionText (nano : Nat) : Written (fractionText nano) := by
  have three (n : Nat) : Written (threeDigits n) := written_digits fun _ => isDigit_of_mem_threeDigits
  have point : '.'.isDigit = true ∨ '.' ∈ ['+', '-', ':', '.', 'T', 'Z'] := by decide
  unfold fractionText
  split
  · exact written_nil
  · split
    · exact written_cons.mpr ⟨point, three _⟩
    · split
      · exact written_cons.mpr ⟨point, written_append.mpr ⟨three _, three _⟩⟩
      · exact written_cons.mpr ⟨point, written_append.mpr ⟨written_append.mpr ⟨three _, three _⟩, three _⟩⟩

theorem written_text (t : Timestamp) : Written t.text := by
  rw [text_eq, clockText]
  simp only [written_append, written_cons, written_nil, written_twoDigits, written_yearText, written_fractionText]
  decide

end LaunchTrace.Timestamp
