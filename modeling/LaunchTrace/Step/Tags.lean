import LaunchTrace.Text.Quoted

/-! Tags of a step: keys with values, in the order they were attached. A value may be deferred to a supplier, which
is called when the tags are resolved. A supplier reads and changes a state `σ`, so what it returns may depend on when
it is called. -/
namespace LaunchTrace

/-- There is no value where the supplier fails. -/
abbrev Supplier (σ : Type) := σ → Option String × σ

inductive TagValue (σ : Type) where
  | ready (text : String)
  | deferred (supplier : Supplier σ)

structure Tag (σ : Type) where
  key : String
  value : TagValue σ

structure Tags (σ : Type) where
  entries : List (Tag σ)

variable {σ : Type}

namespace TagValue

def text? : TagValue σ → Option String
  | .ready text => some text
  | .deferred _ => none

def display : TagValue σ → String
  | .ready text => text
  | .deferred _ => "<deferred>"

def debug : TagValue σ → String
  | .ready text => "Ready(" ++ Text.quote text ++ ")"
  | .deferred _ => "Deferred(..)"

end TagValue

namespace Tag

/-- Calls the supplier of a deferred tag. A tag whose supplier fails is gone. -/
def resolve (tag : Tag σ) (s : σ) : Option (Tag σ) × σ :=
  match tag.value with
  | .ready _ => (some tag, s)
  | .deferred supplier =>
    let (value, s) := supplier s
    (value.map fun text => { tag with value := .ready text }, s)

def display (tag : Tag σ) : String :=
  tag.key ++ "=" ++ tag.value.display

def debug (tag : Tag σ) : String :=
  "Tag \x7b key: " ++ Text.quote tag.key ++ ", value: " ++ tag.value.debug ++ " \x7d"

end Tag

namespace Tags

def empty : Tags σ := ⟨[]⟩

def push (tags : Tags σ) (tag : Tag σ) : Tags σ :=
  ⟨tags.entries ++ [tag]⟩

def size (tags : Tags σ) : Nat :=
  tags.entries.length

/-- The value of the first tag with the key, unless that one is deferred. -/
def get? (tags : Tags σ) (key : String) : Option String :=
  (tags.entries.find? (·.key = key)).bind (·.value.text?)

/-- Resolves tags one after the other. -/
def resolveEntries : List (Tag σ) → σ → List (Tag σ) × σ
  | [], s => ([], s)
  | tag :: rest, s =>
    let (resolved, s) := tag.resolve s
    let (rest, s) := resolveEntries rest s
    (resolved.toList ++ rest, s)

def resolve (tags : Tags σ) (s : σ) : Tags σ × σ :=
  let (entries, s) := resolveEntries tags.entries s
  (⟨entries⟩, s)

def display (tags : Tags σ) : String :=
  "[" ++ ", ".intercalate (tags.entries.map Tag.display) ++ "]"

def debug (tags : Tags σ) : String :=
  "Tags \x7b entries: [" ++ ", ".intercalate (tags.entries.map Tag.debug) ++ "] \x7d"

end Tags
end LaunchTrace
