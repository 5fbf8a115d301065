import LaunchTrace.Environment.Properties
import LaunchTrace.Environment.Variables
import LaunchTrace.Text.Blank
import LaunchTrace.Text.Split

/-! The environment of a context: named sources of properties, of which the first that has a key decides it, and
the profiles that are active. Source names are distinct. -/
namespace LaunchTrace

structure PropertySource where
  name : String
  properties : Properties
deriving DecidableEq, Repr

structure Environment where
  sources : List PropertySource
  /-- The active profiles, where they have been set. -/
  explicitProfiles : Option (List String)
  /-- The profiles that hold where none is active. -/
  defaultProfiles : List String
  /-- The keys that a refresh demands. -/
  required : List String
deriving DecidableEq, Repr

namespace Environment

def activeProfilesKey : String := "sprout.profiles.active"
def variablesSource : String := "systemEnvironment"
def servletConfigSource : String := "servletConfigInitParams"
def servletContextSource : String := "servletContextInitParams"

def empty : Environment :=
  ⟨[], none, ["default"], []⟩

/-! ## Sources -/

def source? (env : Environment) (name : String) : Option PropertySource :=
  env.sources.find? (·.name = name)

/-- Removes the source with the name, if there is one. -/
def remove (env : Environment) (name : String) : Environment :=
  { env with sources := env.sources.eraseP (·.name = name) }

/-- Removes the source with the name and gives it back, if there is one. -/
def take (env : Environment) (name : String) : Option PropertySource × Environment :=
  (env.source? name, env.remove name)

/-- Puts a source before all others. A former source with its name is gone. -/
def addFirst (env : Environment) (source : PropertySource) : Environment :=
  { env with sources := source :: (env.remove source.name).sources }

/-- Puts a source behind all others. A former source with its name is gone. -/
def addLast (env : Environment) (source : PropertySource) : Environment :=
  { env with sources := (env.remove source.name).sources ++ [source] }

/-- Puts a source in the place of the one with its name, if there is one. -/
def replace (env : Environment) (source : PropertySource) : Bool × Environment :=
  ((env.source? source.name).isSome,
    { env with sources := env.sources.map fun s => if s.name = source.name then source else s })

/-- The property in the first source that has it. -/
def get? (env : Environment) (key : String) : Option String :=
  env.sources.findSome? (·.properties.get? key)

def contains (env : Environment) (key : String) : Bool :=
  (env.get? key).isSome

/-- The variables of the process are the only source. -/
def standard (v : Variables) : Environment :=
  empty.addLast ⟨variablesSource, .ofList v.texts⟩

/-- Before the variables there are two sources for what a servlet container will supply. -/
def servlet (v : Variables) : Environment :=
  ((standard v).addFirst ⟨servletContextSource, .empty⟩).addFirst ⟨servletConfigSource, .empty⟩

/-! ## Profiles -/

/-- The names in a list with commas between them. -/
def splitNames (s : String) : List String :=
  (((Text.pieces ',' s.toList).map Text.trim).filter (· ≠ [])).map String.ofList

/-- The profiles that have been set, or else those that a property names. -/
def activeProfiles (env : Environment) : List String :=
  match env.explicitProfiles with
  | some profiles => profiles
  | none => ((env.get? activeProfilesKey).map splitNames).getD []

/-- Whether a profile holds. -/
def holds (env : Environment) (profile : String) : Bool :=
  if env.activeProfiles = [] then profile ∈ env.defaultProfiles else profile ∈ env.activeProfiles

/-- An exclamation mark in front denies what follows it. -/
def acceptsFrom (env : Environment) : List Char → Bool
  | '!' :: rest => !env.acceptsFrom rest
  | profile => env.holds (String.ofList profile)

def accepts (env : Environment) (expression : String) : Bool :=
  env.acceptsFrom expression.toList

/-! ## Required properties -/

/-- The required keys that no source has, in their order. -/
def missing (env : Environment) : List String :=
  env.required.filter (!env.contains ·)

/-! ## Inheritance -/

/-- Appends what the first list lacks of the second, once. -/
def appendMissing (own inherited : List String) : List String :=
  inherited.foldl (fun own s => if s ∈ own then own else own ++ [s]) own

/-- Takes over the sources of a parent whose names are free, and the profiles. Active profiles are taken over only
where both have set theirs. -/
def merge (env parent : Environment) : Environment where
  sources := parent.sources.foldl
    (fun sources s => if sources.any (·.name = s.name) then sources else sources ++ [s]) env.sources
  explicitProfiles :=
    match env.explicitProfiles, parent.explicitProfiles with
    | some own, some inherited => some (appendMissing own inherited)
    | own, _ => own
  defaultProfiles := appendMissing env.defaultProfiles parent.defaultProfiles
  required := env.required

end Environment
end LaunchTrace
