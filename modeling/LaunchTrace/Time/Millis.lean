/-! A number of microseconds shown in milliseconds with three places. The number is first carried as a binary
fraction of 53 significant bits, once on entry and once when it is divided by 1000, so counts beyond `2 ^ 53` show
what such a fraction can still tell apart. Every rounding goes to the nearest, and from halfway to the even one. -/
namespace LaunchTrace.Millis

/-- The integer nearest to `num / den`. -/
def roundDiv (num den : Nat) : Nat :=
  let q := num / den
  let r := num % den
  if 2 * r < den then q
  else if 2 * r = den then q + q % 2
  else q + 1

/-- The value `mantissa * 2 ^ exponent`. -/
structure Binary where
  mantissa : Nat
  exponent : Int
deriving DecidableEq, Repr

/-- Numerator and denominator of a value. -/
def Binary.num (b : Binary) : Nat :=
  b.mantissa * Nat.pow 2 b.exponent.toNat

def Binary.den (b : Binary) : Nat :=
  Nat.pow 2 (-b.exponent).toNat

/-- `num / den` measured in units of `2 ^ exponent`: numerator and denominator. -/
def scale (num den : Nat) (exponent : Int) : Nat × Nat :=
  (num * Nat.pow 2 (-exponent).toNat, den * Nat.pow 2 exponent.toNat)

/-- What has 53 bits lies below. -/
def significandLimit : Nat := 0x20000000000000

/-- The exponent at which `num / den` has 53 bits before the point. The logarithms leave it open by one. -/
def unitExponent (num den : Nat) : Int :=
  let low : Int := (Nat.log2 num : Int) - Nat.log2 den - 53
  let (n, d) := scale num den low
  if n / d < significandLimit then low else low + 1

/-- `num / den` with 53 significant bits. -/
def nearest (num den : Nat) : Binary :=
  if num = 0 then ⟨0, 0⟩
  else
    let exponent := unitExponent num den
    let (n, d) := scale num den exponent
    ⟨roundDiv n d, exponent⟩

def ofMicros (micros : Nat) : Binary :=
  let whole := nearest micros 1
  nearest whole.num (whole.den * 1000)

/-- The value in thousandths. -/
def thousandths (micros : Nat) : Nat :=
  roundDiv ((ofMicros micros).num * 1000) (ofMicros micros).den

/-- A number of thousandths as whole part, point and three digits. -/
def fixed (n : Nat) : List Char :=
  Nat.toDigits 10 (n / 1000) ++
    ['.', Nat.digitChar (n / 100 % 10), Nat.digitChar (n / 10 % 10), Nat.digitChar (n % 10)]

def text (micros : Nat) : List Char :=
  fixed (thousandths micros)

end LaunchTrace.Millis
