import LaunchTrace.Component.Class
import LaunchTrace.Context.Error
import LaunchTrace.Files.System
import LaunchTrace.Json.Parser
import LaunchTrace.Json.Printer
import LaunchTrace.Json.Record

/-! Catalogs list the component types that package scans choose from. They are kept as JSON, in which fields that
say nothing may be left out. -/
namespace LaunchTrace

structure CatalogEntry where
  typeName : String
  kind : ComponentKind
  name : Option String
  scope : Option String
  /-- A property that has to be set, to anything but `false`. -/
  onProperty : Option String
  /-- Profiles one of which has to be accepted, if there are any. -/
  profiles : List String
deriving DecidableEq, Repr

structure Catalog where
  components : List CatalogEntry
deriving DecidableEq, Repr

namespace CatalogEntry

def conditions (e : CatalogEntry) : List Condition :=
  (e.onProperty.map fun key => ⟨none, .property key none false⟩).toList
    ++ if e.profiles = [] then [] else [⟨none, .profile e.profiles⟩]

def toClass (e : CatalogEntry) : ComponentClass :=
  ⟨e.typeName, e.kind, e.name, e.scope.getD singletonScope, e.conditions⟩

/-- A package without the dots and colons at its end. -/
def packageStem (package : String) : List Char :=
  (package.toList.reverse.dropWhile fun c => c = '.' || c = ':').reverse

/-- Whether a name goes on below a package. -/
def startsBelow : List Char → Bool
  | '.' :: _ => true
  | ':' :: ':' :: _ => true
  | _ => false

/-- Whether the type lies below a package. Everything lies below the empty one. -/
def isUnder (e : CatalogEntry) (package : String) : Bool :=
  let stem := packageStem package
  stem = [] || (stem.isPrefixOf e.typeName.toList && startsBelow (e.typeName.toList.drop stem.length))

/-! ## JSON -/

def kindText : ComponentKind → String
  | .component => "component"
  | .configuration => "configuration"

def optionalMember (key : String) (value : Option String) : List (String × Json) :=
  (value.map fun s => (key, Json.ofString s)).toList

def toJson (e : CatalogEntry) : Json :=
  .ofMembers (
    [("type_name", .ofString e.typeName), ("kind", .ofString (kindText e.kind))]
      ++ optionalMember "name" e.name ++ optionalMember "scope" e.scope
      ++ optionalMember "on_property" e.onProperty
      ++ if e.profiles = [] then [] else [("profiles", .ofStrings e.profiles)])

def kindNamed? (s : String) : Option ComponentKind :=
  if s = "component" then some .component
  else if s = "configuration" then some .configuration
  else none

/-- A kind is given by its name, or by an object with nothing under that name. -/
def kind? : Json → Option ComponentKind
  | .string text => text.bind kindNamed?
  | .object [(key, .null)] => key.bind kindNamed?
  | _ => none

/-- A text or nothing. -/
def optionalText? : Json → Option (Option String)
  | .null => some none
  | value => value.text?.map some

/-- A field that stands for `default` where it is missing. -/
def defaulted {α : Type} (default : α) (read : Json → Option α) : Option Json → Option α
  | none => some default
  | some value => read value

/-- The entry with the given values of its six fields, all but the first of which may be missing. -/
def ofFields? (typeName : Json) (kind name scope onProperty profiles : Option Json) : Option CatalogEntry := do
  return {
    typeName := ← typeName.text?
    kind := ← defaulted .component kind? kind
    name := ← defaulted none optionalText? name
    scope := ← defaulted none optionalText? scope
    onProperty := ← defaulted none optionalText? onProperty
    profiles := ← defaulted [] Json.texts? profiles }

/-- An array gives the fields in their order, as many as it has. -/
def ofJson? : Json → Option CatalogEntry
  | .object members => do
    let record ← Json.Record.ofMembers? members
    ofFields? (← record.required? "type_name") (← record.optional? "kind") (← record.optional? "name")
      (← record.optional? "scope") (← record.optional? "on_property") (← record.optional? "profiles")
  | .array (typeName :: rest) =>
    if rest.length ≤ 5 then ofFields? typeName rest[0]? rest[1]? rest[2]? rest[3]? rest[4]? else none
  | _ => none

end CatalogEntry

namespace Catalog

def empty : Catalog := ⟨[]⟩

/-- The classes below a package. -/
def candidates (c : Catalog) (package : String) : List ComponentClass :=
  (c.components.filter (·.isUnder package)).map (·.toClass)

instance : Coe Catalog Scanner :=
  ⟨fun c => ⟨c.candidates⟩⟩

def toJson (c : Catalog) : Json :=
  .ofMembers [("components", .array (c.components.map (·.toJson)))]

def ofEntries? : Json → Option Catalog
  | .array items => (items.mapM CatalogEntry.ofJson?).map Catalog.mk
  | _ => none

def ofJson? : Json → Option Catalog
  | .object members => do
    let record ← Json.Record.ofMembers? members
    ofEntries? (← record.required? "components")
  | .array [components] => ofEntries? components
  | _ => none

def ofBytes (content : Bytes) : Except ContextError Catalog :=
  match Text.Utf8.decode content with
  | none => .error (.catalogFile .notText)
  | some s =>
    match (Json.parse s).bind ofJson? with
    | some catalog => .ok catalog
    | none => .error .malformedCatalog

def read (fs : FileSystem) (path : Path) : Except ContextError Catalog :=
  match fs.read path with
  | .error e => .error (.catalogFile e)
  | .ok content => ofBytes content

end Catalog
end LaunchTrace
