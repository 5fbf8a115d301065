/-! Moments in universal time, by the calendar and to the nanosecond. -/
namespace LaunchTrace

structure Date where
  year : Int
  month : Nat
  day : Nat
deriving DecidableEq, Repr

namespace Date

def isLeapYear (year : Int) : Bool :=
  year % 4 = 0 && (year % 100 ≠ 0 || year % 400 = 0)

def daysInMonth (year : Int) (month : Nat) : Nat :=
  if month = 2 then (if isLeapYear year then 29 else 28)
  else if month = 4 ∨ month = 6 ∨ month = 9 ∨ month = 11 then 30
  else 31

/-- The years that dates reach. -/
def firstYear : Int := -262143
def lastYear : Int := 262142

def Valid (d : Date) : Prop :=
  firstYear ≤ d.year ∧ d.year ≤ lastYear ∧ 1 ≤ d.month ∧ d.month ≤ 12 ∧
    1 ≤ d.day ∧ d.day ≤ daysInMonth d.year d.month

instance (d : Date) : Decidable d.Valid :=
  inferInstanceAs (Decidable (_ ∧ _))

def next (d : Date) : Date :=
  if d.day < daysInMonth d.year d.month then { d with day := d.day + 1 }
  else if d.month < 12 then ⟨d.year, d.month + 1, 1⟩
  else ⟨d.year + 1, 1, 1⟩

def previous (d : Date) : Date :=
  if 1 < d.day then { d with day := d.day - 1 }
  else if 1 < d.month then ⟨d.year, d.month - 1, daysInMonth d.year (d.month - 1)⟩
  else ⟨d.year - 1, 12, 31⟩

end Date

structure Timestamp where
  date : Date
  hour : Nat
  minute : Nat
  /-- A leap second is the second 60. -/
  second : Nat
  nano : Nat
deriving DecidableEq, Repr

namespace Timestamp

def Valid (t : Timestamp) : Prop :=
  t.date.Valid ∧ t.hour < 24 ∧ t.minute < 60 ∧ t.second ≤ 60 ∧ t.nano < 1000000000

instance (t : Timestamp) : Decidable t.Valid :=
  inferInstanceAs (Decidable (_ ∧ _))

def minutesPerDay : Int := 1440

/-- Universal time for a local time that is `offset` minutes ahead of it. Offsets stay below a day, so the date
moves by one day at most. -/
def ofLocal (offset : Int) (t : Timestamp) : Timestamp :=
  let minutes : Int := t.hour * 60 + t.minute - offset
  let (date, minutes) :=
    if minutes < 0 then (t.date.previous, minutes + minutesPerDay)
    else if minutesPerDay ≤ minutes then (t.date.next, minutes - minutesPerDay)
    else (t.date, minutes)
  { t with date, hour := (minutes / 60).toNat, minute := (minutes % 60).toNat }

/-- The moment so many seconds after the start of 1970. -/
def ofEpoch (seconds nano : Nat) : Timestamp :=
  let inDay := seconds % 86400
  ⟨Nat.repeat Date.next (seconds / 86400) ⟨1970, 1, 1⟩, inDay / 3600, inDay / 60 % 60, inDay % 60, nano⟩

end Timestamp
end LaunchTrace
