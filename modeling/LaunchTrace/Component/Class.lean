import LaunchTrace.Environment.Basic

/-! Component classes, as they are given to a context, and definitions, as they are registered under a name. -/
namespace LaunchTrace

inductive ComponentKind where
  | component
  | configuration
deriving DecidableEq, Repr

/-- When a condition is looked at: as configurations are read, or as components are registered. -/
inductive Phase where
  | parse
  | register
deriving DecidableEq, Repr

/-- What a component shows to conditions: all but what its own conditions ask. -/
structure ComponentView where
  name : String
  typeName : String
  kind : ComponentKind
  scope : String
  phases : List (Option Phase)

/-- What a registry shows to conditions. -/
structure RegistryView where
  definitions : List ComponentView
  singletons : List (String × String)
  scopes : List String
  overriding : Bool

/-- What a condition asks. -/
inductive Question where
  /-- Whether a property has a value, or any value but `false`. Without the property the answer is given. -/
  | property (key : String) (expected : Option String) (ifMissing : Bool)
  /-- Whether one of the profiles is accepted. -/
  | profile (expressions : List String)
  /-- Whether a component is there, or is not. -/
  | component (name : String) (present : Bool)
  /-- What a program asks by itself. -/
  | custom (answer : Environment → RegistryView → ComponentView → Bool)

structure Condition where
  /-- The only phase in which the condition counts, or none if it counts in both. -/
  phase : Option Phase
  question : Question

structure ComponentClass where
  typeName : String
  kind : ComponentKind
  /-- The name it asks for. -/
  name : Option String
  scope : String
  conditions : List Condition

structure ComponentDefinition where
  name : String
  typeName : String
  kind : ComponentKind
  scope : String
  conditions : List Condition

def singletonScope : String := "singleton"

namespace ComponentDefinition

def isConfiguration (d : ComponentDefinition) : Bool :=
  d.kind = .configuration

def view (d : ComponentDefinition) : ComponentView :=
  ⟨d.name, d.typeName, d.kind, d.scope, d.conditions.map (·.phase)⟩

end ComponentDefinition

namespace ComponentClass

/-- A class of its kind with nothing else to say. -/
def plain (kind : ComponentKind) (typeName : String) : ComponentClass :=
  ⟨typeName, kind, none, singletonScope, []⟩

/-- What stands before the first two colons in a row. -/
def beforeColons : List Char → List Char
  | [] => []
  | ':' :: ':' :: _ => []
  | c :: rest => c :: beforeColons rest

/-- The type name behind its last double colon, and of that what is behind the last dot. -/
def shortName (c : ComponentClass) : String :=
  String.ofList ((beforeColons c.typeName.toList.reverse).takeWhile (· ≠ '.')).reverse

def define (c : ComponentClass) (name : String) : ComponentDefinition :=
  ⟨name, c.typeName, c.kind, c.scope, c.conditions⟩

end ComponentClass

/-- What package scans find their classes by. -/
structure Scanner where
  /-- The classes below a package. -/
  find : String → List ComponentClass

def Scanner.empty : Scanner :=
  ⟨fun _ => []⟩

end LaunchTrace
