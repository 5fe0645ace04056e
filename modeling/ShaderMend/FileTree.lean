import ShaderMend.Bytes
import ShaderMend.Path

/-!
# Trees of files

The files that a program sees, as a value: a list of places, each a directory or a
file with its content. Paths start from the working directory, which always exists.
The root of all files and the directories above the working directory are places of
their own, which exist if the tree holds them.
-/

namespace ShaderMend

/-- Why a file cannot be used. -/
inductive FileError where
  | notFound
  | notDirectory
  | isDirectory
  /-- A path or a name in it is longer than the files allow. -/
  | nameTooLong
  /-- A path has a character of code 0. -/
  | nulInName
  | invalidText
  deriving DecidableEq, Repr

/-- The text shown for a failure. -/
def FileError.message : FileError → String
  | .notFound => "No such file or directory (os error 2)"
  | .notDirectory => "Not a directory (os error 20)"
  | .isDirectory => "Is a directory (os error 21)"
  | .nameTooLong => "File name too long (os error 36)"
  | .nulInName => "file name contained an unexpected NUL byte"
  | .invalidText => "stream did not contain valid UTF-8"

/-- What lies at a place. -/
inductive FileNode where
  | directory
  | file (content : Bytes)
  deriving DecidableEq, Repr

/-- The names that lead from the working directory to a place. The root of all files
is reached by `/`, the directory above the working directory by `..`. -/
abbrev Place := List String

/-- The root of all files. -/
def Place.root : Place := ["/"]

/-- The place above a place. -/
def Place.above (place : Place) : Place :=
  match place.getLast? with
  | none => [".."]
  | some ".." => place ++ [".."]
  | some "/" => place
  | some _ => place.dropLast

/-- The place that a component leads to. -/
def Place.step (place : Place) : Path.Component → Place
  | .root => Place.root
  | .current => place
  | .parent => place.above
  | .name text => place ++ [text]

/-- The places below the working directory. -/
structure FileTree where
  nodes : List (Place × FileNode)
  deriving Repr

namespace FileTree

/-- The tree without any file. -/
def empty : FileTree := ⟨[]⟩

/-- What lies at a place. -/
def node? (tree : FileTree) (place : Place) : Option FileNode :=
  if place.isEmpty then some .directory
  else (tree.nodes.find? fun node => node.1 == place).map (·.2)

/-- The most octets of a name. -/
def maxNameLength : Nat := 255

/-- The most octets of a path. -/
def maxPathLength : Nat := 4095

/-- Goes on from a place, which must be a directory for every further component. -/
def walk (tree : FileTree) (place : Place) : List Path.Component → Except FileError Place
  | [] => .ok place
  | component :: rest =>
      match tree.node? place with
      | none => .error .notFound
      | some (.file _) => .error .notDirectory
      | some .directory =>
          if maxNameLength < component.length then .error .nameTooLong
          else walk tree (place.step component) rest

/-- The place of a path, of which only the last name may lead nowhere. -/
def find (tree : FileTree) (path : Path) : Except FileError Place :=
  if '\x00' ∈ path.text.toList then .error .nulInName
  else if path.text = "" then .error .notFound
  else if maxPathLength < path.text.utf8ByteSize then .error .nameTooLong
  else tree.walk [] path.components

/-- The place of a path and what lies there. -/
def locate (tree : FileTree) (path : Path) : Except FileError (Place × FileNode) := do
  let place ← tree.find path
  match tree.node? place with
  | none => throw .notFound
  | some (.file content) =>
      if path.namesDirectory then throw .notDirectory else return (place, .file content)
  | some .directory => return (place, .directory)

/-- Whether the path leads to a directory. -/
def isDirectory (tree : FileTree) (path : Path) : Bool :=
  match tree.locate path with
  | .ok (_, .directory) => true
  | _ => false

/-- The content of a file. -/
def read (tree : FileTree) (path : Path) : Except FileError Bytes := do
  match ← tree.locate path with
  | (_, .file content) => return content
  | (_, .directory) => throw .isDirectory

/-- The text of a file. -/
def readText (tree : FileTree) (path : Path) : Except FileError String := do
  match Bytes.toText? (← tree.read path) with
  | some text => return text
  | none => throw .invalidText

/-- The names of the files directly in a directory. -/
def filesIn (tree : FileTree) (directory : Place) : List String :=
  tree.nodes.filterMap fun node =>
    match node with
    | (place, .file _) =>
        match place.getLast? with
        | some name => if place.dropLast == directory then some name else none
        | none => none
    | (_, .directory) => none

/-- The tree with a node at a place, instead of what was there. -/
def set (tree : FileTree) (place : Place) (node : FileNode) : FileTree :=
  ⟨tree.nodes.filter (·.1 ≠ place) ++ [(place, node)]⟩

/-- The tree with a directory at a place, unless something is there. -/
def ensure (tree : FileTree) (place : Place) : FileTree :=
  if (tree.node? place).isSome then tree else tree.set place .directory

/-- The place that a path names, whether something is there or not. -/
def placeOf (path : Path) : Place :=
  path.components.foldl Place.step []

/-- A place and all places above it, the outermost first. -/
def lineage (place : Place) : List Place :=
  (List.range (place.length + 1)).map place.take

/-- The tree with the directory of a path and all above it. -/
def makeDirectory (tree : FileTree) (path : Path) : FileTree :=
  (lineage (placeOf path)).foldl ensure tree

/-- The tree with a directory or file at a path, the directories above it being
made. -/
def add (tree : FileTree) (path : Path) : FileNode → FileTree
  | .directory => tree.makeDirectory path
  | .file content =>
      let place := placeOf path
      ((lineage place.dropLast).foldl ensure tree).set place (.file content)

/-- Writes a file into a directory that exists. -/
def write (tree : FileTree) (path : Path) (content : Bytes) : Except FileError FileTree := do
  let place ← tree.find path
  match tree.node? place with
  | some .directory => throw .isDirectory
  | _ => if path.namesDirectory then throw .isDirectory else return tree.set place (.file content)

/-- The tree without what lies at a path and below. -/
def remove (tree : FileTree) (path : Path) : FileTree :=
  let place := placeOf path
  ⟨tree.nodes.filter fun node => !place.isPrefixOf node.1⟩

end FileTree

end ShaderMend
