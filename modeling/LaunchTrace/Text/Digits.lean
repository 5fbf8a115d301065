/-! Decimal digits read as numbers. -/
namespace LaunchTrace.Text

def digitValue (c : Char) : Nat :=
  c.toNat - '0'.toNat

/-- The number that digits spell. -/
def digitsValue (digits : List Char) : Nat :=
  digits.foldl (fun n c => 10 * n + digitValue c) 0

/-- What fits 64 bits lies below. -/
def wordLimit : Nat := 0x10000000000000000

end LaunchTrace.Text
