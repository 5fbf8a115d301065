import LaunchTrace.Text.Digits

/-! JSON values. A number keeps its spelling, since what it may stand for is up to its reader. The members of an
object keep their order and their repetitions. -/
namespace LaunchTrace

inductive Json where
  | null
  | bool (b : Bool)
  | number (spelling : List Char)
  /-- There is no text where the escapes of a literal leave half of a surrogate pair alone. -/
  | string (text : Option String)
  | array (items : List Json)
  | object (members : List (Option String × Json))

namespace Json

def ofString (s : String) : Json :=
  .string (some s)

def ofNat (n : Nat) : Json :=
  .number (Nat.toDigits 10 n)

def ofStrings (texts : List String) : Json :=
  .array (texts.map ofString)

/-- An object with the given members in this order. -/
def ofMembers (members : List (String × Json)) : Json :=
  .object (members.map fun (key, value) => (some key, value))

def text? : Json → Option String
  | .string text => text
  | _ => none

def texts? : Json → Option (List String)
  | .array items => items.mapM text?
  | _ => none

/-- A number below `2 ^ 64` that is written as digits only: no sign, no fraction, no exponent. -/
def word? : Json → Option UInt64
  | .number spelling =>
    if spelling ≠ [] ∧ spelling.all Char.isDigit ∧ Text.digitsValue spelling < Text.wordLimit then
      some (UInt64.ofNat (Text.digitsValue spelling))
    else none
  | _ => none

end Json
end LaunchTrace
