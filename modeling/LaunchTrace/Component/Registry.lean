import LaunchTrace.Component.Class
import LaunchTrace.Context.Error

/-! The definitions of a context in the order of their registration, with singletons and scopes beside them. -/
namespace LaunchTrace

structure Registry where
  definitions : List ComponentDefinition
  /-- Names with descriptions. -/
  singletons : List (String × String)
  scopes : List String
  /-- Whether a definition may take the place of one of another type. -/
  overriding : Bool

namespace Registry

def empty : Registry := ⟨[], [], [], false⟩

def view (r : Registry) : RegistryView :=
  ⟨r.definitions.map (·.view), r.singletons, r.scopes, r.overriding⟩

def names (r : Registry) : List String :=
  r.definitions.map (·.name)

def size (r : Registry) : Nat :=
  r.definitions.length

def get? (r : Registry) (name : String) : Option ComponentDefinition :=
  r.definitions.find? (·.name = name)

def singleton? (r : Registry) (name : String) : Option String :=
  r.singletons.lookup name

/-- Whether there is a definition or a singleton of the name. -/
def contains (r : Registry) (name : String) : Bool :=
  (r.get? name).isSome || (r.singleton? name).isSome

def containsType (r : Registry) (typeName : String) : Bool :=
  r.definitions.any (·.typeName = typeName)

/-- Puts a definition in the place of the one with its name, or behind all others. -/
def put (r : Registry) (d : ComponentDefinition) : Registry :=
  if (r.get? d.name).isSome then
    { r with definitions := r.definitions.map fun e => if e.name = d.name then d else e }
  else { r with definitions := r.definitions ++ [d] }

/-- Registers a definition. Its name must not belong to another type unless overriding is allowed. -/
def register (r : Registry) (d : ComponentDefinition) : Except ContextError Registry :=
  match r.get? d.name with
  | some existing =>
    if existing.typeName ≠ d.typeName ∧ ¬ r.overriding then
      .error (.duplicateComponent d.name d.typeName existing.typeName)
    else .ok (r.put d)
  | none => .ok (r.put d)

/-- Removes the definition of a name, if there is one. -/
def remove (r : Registry) (name : String) : Registry :=
  { r with definitions := r.definitions.eraseP (·.name = name) }

/-- Describes a singleton. One that is known keeps its place. -/
def registerSingleton (r : Registry) (name description : String) : Registry :=
  if (r.singleton? name).isSome then
    { r with singletons := r.singletons.map fun s => if s.1 = name then (name, description) else s }
  else { r with singletons := r.singletons ++ [(name, description)] }

def registerScope (r : Registry) (scope : String) : Registry :=
  if scope ∈ r.scopes then r else { r with scopes := r.scopes ++ [scope] }

end Registry
end LaunchTrace
