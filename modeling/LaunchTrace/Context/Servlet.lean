import LaunchTrace.Environment.Properties
import LaunchTrace.Files.System

/-! What a web context knows of the container that it runs in, and the resources that it serves. -/
namespace LaunchTrace

structure ServletContext where
  path : String
  parameters : Properties
  /-- The directory that resources are kept in. -/
  resourceBase : Option String
deriving DecidableEq, Repr

structure Resource where
  path : String
  /-- The file that holds it, where resources are kept in files. -/
  file : Option String
deriving DecidableEq, Repr

/-- A relative path behind a base, with one slash between them at least. -/
def joinPath (base relative : List Char) : List Char :=
  if base = [] ∨ base.getLast? = some '/' then base ++ relative else base ++ '/' :: relative

namespace ServletContext

/-- The resource at a path, whose leading slashes count as one. -/
def resource (s : ServletContext) (path : String) : Resource :=
  let relative := path.toList.dropWhile (· = '/')
  { path := String.ofList ('/' :: relative)
    file := s.resourceBase.map fun base => String.ofList (joinPath base.toList relative) }

end ServletContext

def Resource.exists? (r : Resource) (fs : FileSystem) : Bool :=
  match r.file with
  | none => false
  | some file => fs.exists? (.ofText file)

end LaunchTrace
