import LaunchTrace.Text.Split
import LaunchTrace.Text.Utf8

/-! Paths are bytes with slashes between names. A path that starts with a slash counts from the root. -/
namespace LaunchTrace

abbrev Bytes := List UInt8

/-- The name of one file or directory, without a slash. -/
abbrev FileName := Bytes

structure Path where
  bytes : Bytes
deriving DecidableEq, Repr

namespace Path

def slash : UInt8 := 0x2F

def ofText (s : String) : Path :=
  ⟨Text.Utf8.encode s.toList⟩

/-- The path for the eye. -/
def display (p : Path) : String :=
  String.ofList (Text.Utf8.display p.bytes)

def isAbsolute (p : Path) : Bool :=
  p.bytes.head? = some slash

def names (p : Path) : List FileName :=
  Text.pieces slash p.bytes

def current : FileName := [0x2E]

def parent : FileName := [0x2E, 0x2E]

/-- The names before the last one. Slashes after the last name do not count. -/
def namesAboveLast (p : Path) : List FileName :=
  (p.names.reverse.dropWhile (· = [])).reverse.dropLast

def endsInSlash (p : Path) : Bool :=
  p.bytes.getLast? = some slash

end Path
end LaunchTrace
