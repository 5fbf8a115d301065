import LaunchTrace.Json.Basic

/-! Objects read as records with known fields. A known field may not be repeated, any other may. -/
namespace LaunchTrace.Json

/-- The members of an object whose keys are all texts. -/
structure Record where
  members : List (String × Json)

namespace Record

/-- A member whose key is a text. -/
def named? : Option String × Json → Option (String × Json)
  | (key, value) => key.map (·, value)

def ofMembers? (members : List (Option String × Json)) : Option Record :=
  (members.mapM named?).map Record.mk

def valuesOf (r : Record) (key : String) : List Json :=
  (r.members.filter (·.1 = key)).map (·.2)

def required? (r : Record) (key : String) : Option Json :=
  match r.valuesOf key with
  | [value] => some value
  | _ => none

/-- The value of a field that may be missing. -/
def optional? (r : Record) (key : String) : Option (Option Json) :=
  match r.valuesOf key with
  | [] => some none
  | [value] => some (some value)
  | _ => none

end Record
end LaunchTrace.Json
