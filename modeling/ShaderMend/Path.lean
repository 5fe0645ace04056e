/-!
# Paths of files

A path is shown as the text it was given as, and compared by its components: empty
ones and dots in the middle do not count, a leading dot and double dots do.
-/

namespace ShaderMend

/-- A path, as it was written. -/
structure Path where
  text : String
  deriving DecidableEq, Repr

namespace Path

/-- A component of a path. -/
inductive Component where
  | root
  | current
  | parent
  | name (text : String)
  deriving DecidableEq, Repr

/-- How many octets a component has, if it is a name. -/
def Component.length : Component → Nat
  | .name text => text.utf8ByteSize
  | _ => 0

/-- The parts between slashes. -/
def parts (path : Path) : List String :=
  path.text.splitOn "/"

/-- The component that a part stands for, if it counts away from the start. -/
def component? (part : String) : Option Component :=
  if part = "" ∨ part = "." then none
  else if part = ".." then some .parent
  else some (.name part)

/-- The components by which paths are compared. -/
def components (path : Path) : List Component :=
  match path.parts with
  | "" :: rest@(_ :: _) => .root :: rest.filterMap component?
  | "." :: rest => .current :: rest.filterMap component?
  | parts => parts.filterMap component?

/-- Whether two paths have the same components. -/
def same (first second : Path) : Bool :=
  first.components == second.components

/-- Whether the path is written as that of a directory: with a slash, or a slash and
a dot, at its end. -/
def namesDirectory (path : Path) : Bool :=
  match path.parts.reverse with
  | "" :: _ :: _ => true
  | "." :: _ :: _ => true
  | _ => false

/-- The path of a file in a directory. -/
def join (directory : Path) (name : String) : Path :=
  if directory.text = "" ∨ directory.text.endsWith "/" then ⟨directory.text ++ name⟩
  else ⟨directory.text ++ "/" ++ name⟩

/-- The last component, if it is a name. -/
def fileName? (path : Path) : Option String :=
  match path.components.getLast? with
  | some (.name text) => some text
  | _ => none

/-- What follows the last dot of the last component. A dot that opens the component
does not count. -/
def extension? (path : Path) : Option String :=
  path.fileName?.bind fun name =>
    match (name.splitOn ".").reverse with
    | last :: middle :: rest => if rest.isEmpty ∧ middle = "" then none else some last
    | _ => none

end Path

end ShaderMend
