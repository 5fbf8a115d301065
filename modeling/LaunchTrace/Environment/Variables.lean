import LaunchTrace.Files.Path

/-! The variables a process is started with. Names and values are bytes, which need not be texts. -/
namespace LaunchTrace

structure Variables where
  entries : List (Bytes × Bytes)

namespace Variables

def value? (v : Variables) (name : String) : Option Bytes :=
  v.entries.lookup (Text.Utf8.encode name.toList)

def textOf? (bytes : Bytes) : Option String :=
  (Text.Utf8.decode bytes).map String.ofList

/-- The variables whose name and value are texts. -/
def texts (v : Variables) : List (String × String) :=
  v.entries.filterMap fun (name, value) =>
    match textOf? name, textOf? value with
    | some name, some value => some (name, value)
    | _, _ => none

end Variables
end LaunchTrace
