import LaunchTrace.Text.Blank
import LaunchTrace.Text.Digits
import LaunchTrace.Time.Timestamp

/-! Timestamps as text, `2024-05-06T07:08:09.25Z`. Writing uses universal time and three, six or nine digits of
fraction, the fewest that are exact. Reading is wider: it takes any offset below a day, any number of digits of
fraction, either case of the letters, a space for the `T`, and blanks around the parts. -/
namespace LaunchTrace.Timestamp

def digit (n : Nat) : Char :=
  Nat.digitChar (n % 10)

def twoDigits (n : Nat) : List Char :=
  [digit (n / 10), digit n]

def threeDigits (n : Nat) : List Char :=
  digit (n / 100) :: twoDigits n

/-- At least `width` digits, with zeros in front. -/
def padded (width n : Nat) : List Char :=
  List.replicate (width - (Nat.toDigits 10 n).length) '0' ++ Nat.toDigits 10 n

/-- Four digits for the years 0 to 9999; other years have a sign in front. -/
def yearText (year : Int) : List Char :=
  if 0 ≤ year ∧ year ≤ 9999 then twoDigits (year.toNat / 100) ++ twoDigits year.toNat
  else (if year < 0 then '-' else '+') :: padded 4 year.natAbs

def fractionText (nano : Nat) : List Char :=
  if nano = 0 then []
  else if nano % 1000000 = 0 then '.' :: threeDigits (nano / 1000000)
  else if nano % 1000 = 0 then '.' :: threeDigits (nano / 1000000) ++ threeDigits (nano / 1000)
  else '.' :: threeDigits (nano / 1000000) ++ threeDigits (nano / 1000) ++ threeDigits nano

def text (t : Timestamp) : List Char :=
  yearText t.date.year ++ '-' :: twoDigits t.date.month ++ '-' :: twoDigits t.date.day
    ++ 'T' :: twoDigits t.hour ++ ':' :: twoDigits t.minute ++ ':' :: twoDigits t.second
    ++ fractionText t.nano ++ ['Z']

/-! ## Reading -/

/-- A number of at least one digit, of which the first `most` count as its own. -/
def scanNumber (most : Nat) (s : List Char) : Option (Nat × List Char) :=
  let digits := (s.take most).takeWhile Char.isDigit
  if digits = [] then none else some (Text.digitsValue digits, s.drop digits.length)

/-- A number behind blanks. -/
def scanPart (most : Nat) (s : List Char) : Option (Nat × List Char) :=
  scanNumber most (Text.trimStart s)

def scanMark (mark : Char) (s : List Char) : Option (List Char) :=
  match Text.trimStart s with
  | c :: rest => if c = mark then some rest else none
  | [] => none

/-- Without a sign a year has four digits at most. -/
def scanYear (s : List Char) : Option (Int × List Char) :=
  match Text.trimStart s with
  | '-' :: rest => (scanNumber rest.length rest).map fun (n, rest) => (-(n : Int), rest)
  | '+' :: rest => (scanNumber rest.length rest).map fun (n, rest) => ((n : Int), rest)
  | s => (scanNumber 4 s).map fun (n, rest) => ((n : Int), rest)

def scanDate (s : List Char) : Option (Date × List Char) := do
  let (year, s) ← scanYear s
  let s ← scanMark '-' s
  let (month, s) ← scanPart 2 s
  let s ← scanMark '-' s
  let (day, s) ← scanPart 2 s
  return (⟨year, month, day⟩, s)

def skipSeparator : List Char → Option (List Char)
  | c :: rest => if c = 'T' ∨ c = 't' ∨ c = ' ' then some rest else none
  | [] => none

/-- The nanoseconds that a fraction spells. Digits behind the ninth are dropped. -/
def scanFraction : List Char → Option (Nat × List Char)
  | '.' :: rest =>
    let digits := rest.takeWhile Char.isDigit
    if digits = [] then none
    else some (Text.digitsValue ((digits ++ List.replicate 9 '0').take 9), rest.dropWhile Char.isDigit)
  | s => some (0, s)

def isOffsetGap (c : Char) : Bool :=
  c = ':' || Text.isBlank c

/-- Hours and minutes of an offset, two digits each, as minutes. -/
def scanOffsetSize : List Char → Option (Nat × List Char)
  | a :: b :: rest =>
    if a.isDigit && b.isDigit then
      match rest.dropWhile isOffsetGap with
      | c :: d :: behind =>
        if c.isDigit && d.isDigit && Text.digitsValue [c, d] < 60 then
          some (Text.digitsValue [a, b] * 60 + Text.digitsValue [c, d], behind)
        else none
      | _ => none
    else none
  | _ => none

/-- The minutes by which local time is ahead of universal time. -/
def scanOffset (s : List Char) : Option (Int × List Char) :=
  match s with
  | 'Z' :: rest | 'z' :: rest => some (0, rest)
  | '+' :: rest => (scanOffsetSize rest).map fun (n, rest) => ((n : Int), rest)
  | '-' :: rest | '\u2212' :: rest => (scanOffsetSize rest).map fun (n, rest) => (-(n : Int), rest)
  | u :: t :: c :: rest =>
    if u.toUpper = 'U' ∧ t.toUpper = 'T' ∧ c.toUpper = 'C' then some (0, rest) else none
  | _ => none

/-- A timestamp whose parts are in range, at an offset below a day, and whose date stays in reach in universal
time. -/
def parse (s : List Char) : Option Timestamp := do
  let (date, s) ← scanDate s
  let s ← skipSeparator s
  let (hour, s) ← scanPart 2 s
  let s ← scanMark ':' s
  let (minute, s) ← scanPart 2 s
  let s ← scanMark ':' s
  let (second, s) ← scanPart 2 s
  let (nano, s) ← scanFraction s
  let (offset, s) ← scanOffset (Text.trimStart s)
  let t : Timestamp := ⟨date, hour, minute, second, nano⟩
  if Text.isBlankText s ∧ t.Valid ∧ -minutesPerDay < offset ∧ offset < minutesPerDay ∧
      (t.ofLocal offset).date.Valid then
    some (t.ofLocal offset)
  else none

end LaunchTrace.Timestamp
