import LaunchTrace.Files.Error
import LaunchTrace.Files.Path

/-! A tree of files with a working directory. Paths are walked name by name, so a file in the middle of a path, a
missing directory and a name that is too long are told apart as they are met. -/
namespace LaunchTrace

inductive FileNode where
  | directory
  | file (content : Bytes)
  /-- A device that fails every write. -/
  | refusing (error : FileError)
  /-- A device that takes every write and keeps nothing. -/
  | sink
deriving DecidableEq, Repr

/-- The names from the root to a file. -/
abbrev Place := List FileName

structure FileSystem where
  workingDirectory : Place
  nodes : List (Place × FileNode)
deriving DecidableEq, Repr

/-- An open file and how far it has been written. -/
structure FileHandle where
  place : Place
  offset : Nat
deriving DecidableEq, Repr

namespace FileSystem

def longestName : Nat := 255
def longestPath : Nat := 4095

/-- What stands at a place. The root is always a directory. -/
def node? (fs : FileSystem) (place : Place) : Option FileNode :=
  if place = [] then some .directory else fs.nodes.lookup place

def put (fs : FileSystem) (place : Place) (node : FileNode) : FileSystem :=
  { fs with nodes := (place, node) :: fs.nodes.filter (·.1 ≠ place) }

/-- Follows names from a place. Every name, the empty one included, needs a directory to start from. -/
def walk (fs : FileSystem) (place : Place) : List FileName → Except FileError Place
  | [] => .ok place
  | name :: rest =>
    match fs.node? place with
    | none => .error .notFound
    | some .directory =>
      if name = [] ∨ name = Path.current then fs.walk place rest
      else if name = Path.parent then fs.walk place.dropLast rest
      else if longestName < name.length then .error .nameTooLong
      else fs.walk (place ++ [name]) rest
    | some _ => .error .notDirectory

/-- Follows some names of a path from where it starts, once its text as a whole is found fit. -/
def follow (fs : FileSystem) (path : Path) (names : List FileName) : Except FileError Place :=
  if 0 ∈ path.bytes then .error .nulInName
  else if path.bytes = [] then .error .notFound
  else if longestPath < path.bytes.length then .error .nameTooLong
  else fs.walk (if path.isAbsolute then [] else fs.workingDirectory) names

/-- The place that a path names. Its last name need not exist. -/
def locate (fs : FileSystem) (path : Path) : Except FileError Place :=
  fs.follow path path.names

def find (fs : FileSystem) (path : Path) : Except FileError FileNode :=
  match fs.locate path with
  | .error e => .error e
  | .ok place =>
    match fs.node? place with
    | some node => .ok node
    | none => .error .notFound

def exists? (fs : FileSystem) (path : Path) : Bool :=
  (fs.find path).isOk

def read (fs : FileSystem) (path : Path) : Except FileError Bytes :=
  match fs.find path with
  | .error e => .error e
  | .ok (.file content) => .ok content
  | .ok .directory => .error .isDirectory
  | .ok (.refusing _) | .ok .sink => .ok []

/-- The place of a file to be written. A path that ends in a slash asks for a directory: it is refused as soon as
the directory of its last name is reached, and that name is not looked up. -/
def target (fs : FileSystem) (path : Path) : Except FileError Place :=
  if path.endsInSlash then
    match fs.follow path (path.namesAboveLast ++ [[]]) with
    | .error e => .error e
    | .ok _ => .error .isDirectory
  else fs.locate path

/-- Opens a file for writing from its start. What it held before is gone. -/
def create (fs : FileSystem) (path : Path) : Except FileError (FileHandle × FileSystem) :=
  match fs.target path with
  | .error e => .error e
  | .ok place =>
    match fs.node? place with
    | some .directory => .error .isDirectory
    | some (.refusing _) | some .sink => .ok (⟨place, 0⟩, fs)
    | some (.file _) | none => .ok (⟨place, 0⟩, fs.put place (.file []))

/-- Puts bytes into a content from an offset on, over what stands there. -/
def overwrite (content : Bytes) (offset : Nat) (bytes : Bytes) : Bytes :=
  content.take offset ++ List.replicate (offset - content.length) 0 ++ bytes
    ++ content.drop (offset + bytes.length)

def write (fs : FileSystem) (handle : FileHandle) (bytes : Bytes) :
    Except FileError (FileHandle × FileSystem) :=
  let moved := { handle with offset := handle.offset + bytes.length }
  match fs.node? handle.place with
  | some (.file content) => .ok (moved, fs.put handle.place (.file (overwrite content handle.offset bytes)))
  | some .sink => .ok (moved, fs)
  | some (.refusing e) => .error e
  | some .directory => .error .isDirectory
  | none => .error .notFound

/-- Makes the directories on the way to a place. -/
def makeParents (fs : FileSystem) (place : Place) : FileSystem :=
  (List.range place.length).foldl
    (fun fs n => if (fs.node? (place.take n)).isSome then fs else fs.put (place.take n) .directory) fs

end FileSystem
end LaunchTrace
