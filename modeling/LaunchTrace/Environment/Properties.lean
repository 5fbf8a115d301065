import LaunchTrace.Text.Quoted

/-! Properties by their keys, in the order of the keys. -/
namespace LaunchTrace

structure Properties where
  entries : List (String × String)
deriving DecidableEq, Repr

namespace Properties

def empty : Properties := ⟨[]⟩

/-- Puts an entry where its key belongs. It takes the place of an entry with the same key. -/
def insertEntry (key value : String) : List (String × String) → List (String × String)
  | [] => [(key, value)]
  | (k, v) :: rest =>
    if key < k then (key, value) :: (k, v) :: rest
    else if key = k then (key, value) :: rest
    else (k, v) :: insertEntry key value rest

def insert (p : Properties) (key value : String) : Properties :=
  ⟨insertEntry key value p.entries⟩

/-- Of two entries with one key the later holds. -/
def ofList (entries : List (String × String)) : Properties :=
  entries.foldl (fun p (key, value) => p.insert key value) empty

def get? (p : Properties) (key : String) : Option String :=
  p.entries.lookup key

def size (p : Properties) : Nat :=
  p.entries.length

/-- Keys and values, quoted, between braces. -/
def debug (p : Properties) : String :=
  "\x7b" ++ ", ".intercalate (p.entries.map fun (key, value) => Text.quote key ++ ": " ++ Text.quote value)
    ++ "\x7d"

end Properties
end LaunchTrace
