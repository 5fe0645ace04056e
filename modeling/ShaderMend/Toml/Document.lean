import ShaderMend.Toml.Scalar

/-!
# Documents of TOML

A document is a row of sections, each a table or an element of an array of tables,
with its pairs of dotted keys and values. The sections are put together to one tree,
in which no table is defined twice: a header may define a table that deeper headers
have implied, and dotted keys may extend only the tables that dotted keys made.
-/

namespace ShaderMend.Toml

/-- How a table came about. -/
inductive Origin where
  /-- By its own header, or as the whole document. -/
  | header
  /-- By the header of a table inside it. -/
  | implied
  /-- By dotted keys. -/
  | dotted
  /-- As a value between braces. -/
  | inline
  deriving DecidableEq, Repr

/-- What stands under a key. -/
inductive Node where
  | scalar (value : Scalar)
  | array (items : List Node)
  | table (origin : Origin) (entries : List (String × Node))
  /-- An array whose elements have headers. -/
  | tables (elements : List (List (String × Node)))
  deriving Repr, Inhabited

/-- The entries of a table, in the order of definition. -/
abbrev Entries := List (String × Node)

namespace Entries

/-- The entries with another node under a key, at the place of the old one or at the
end. -/
def put (key : String) (node : Node) (entries : Entries) : Entries :=
  if (entries.lookup key).isSome then
    entries.map fun entry => if entry.1 = key then (key, node) else entry
  else entries ++ [(key, node)]

/-- Adds a node under a key that is new. -/
def add? (key : String) (node : Node) (entries : Entries) : Option Entries :=
  if (entries.lookup key).isSome then none else some (entries ++ [(key, node)])

/-- Adds a node to the entries of a table of the given origin, under a dotted key: all
but its last part are names of tables, which dotted keys may have made before. -/
def addDotted? (node : Node) (origin : Origin) :
    (first : Bool) → List String → Entries → Option Entries
  | _, [], _ => none
  | first, [key], entries =>
      if first || origin = .dotted then entries.add? key node else none
  | _, key :: next :: path, entries =>
      match entries.lookup key with
      | none =>
          (addDotted? node .dotted false (next :: path) []).map fun inner =>
            entries ++ [(key, .table .dotted inner)]
      | some (.table inner children) =>
          if inner = .header ∨ inner = .inline then none
          else
            (addDotted? node inner false (next :: path) children).map fun children =>
              entries.put key (.table inner children)
      | some (.tables elements) =>
          match elements.getLast? with
          | none => none
          | some element =>
              (addDotted? node .header false (next :: path) element).map fun element =>
                entries.put key (.tables (elements.dropLast ++ [element]))
      | some _ => none

/-- Changes the entries of the table that a header leads to; tables on the way that
are missing are implied, and an array of tables stands for its last element. -/
def under? (change : Entries → Option Entries) : List String → Entries → Option Entries
  | [], entries => change entries
  | key :: path, entries =>
      match entries.lookup key with
      | none => (under? change path []).map fun inner => entries ++ [(key, .table .implied inner)]
      | some (.table .inline _) => none
      | some (.table origin children) =>
          (under? change path children).map fun children => entries.put key (.table origin children)
      | some (.tables elements) =>
          match elements.getLast? with
          | none => none
          | some element =>
              (under? change path element).map fun element =>
                entries.put key (.tables (elements.dropLast ++ [element]))
      | some _ => none

/-- Adds pairs of dotted keys and values to the entries of a table with a header. -/
def addPairs? (pairs : List (List String × Node)) (entries : Entries) : Option Entries :=
  pairs.foldlM (fun entries pair => addDotted? pair.2 .header true pair.1 entries) entries

end Entries

/-- A header and the pairs below it. -/
structure Section where
  /-- Whether the header names an array of tables. -/
  element : Bool
  /-- The dotted key of the header, empty for the pairs before all headers. -/
  path : List String
  pairs : List (List String × Node)
  deriving Repr

namespace Section

/-- Enters the table of a section under the last part of its header. -/
def enter? (part : Section) (key : String) (entries : Entries) : Option Entries :=
  if part.element then
    (Entries.addPairs? part.pairs []).bind fun element =>
      match entries.lookup key with
      | none => some (entries ++ [(key, .tables [element])])
      | some (.tables elements) => some (entries.put key (.tables (elements ++ [element])))
      | some _ => none
  else
    match entries.lookup key with
    | none =>
        (Entries.addPairs? part.pairs []).map fun table => entries ++ [(key, .table .header table)]
    | some (.table .implied children) =>
        (Entries.addPairs? part.pairs children).map fun table =>
          entries.put key (.table .header table)
    | some _ => none

/-- Adds a section to a document. -/
def addTo? (part : Section) (entries : Entries) : Option Entries :=
  match part.path.getLast? with
  | none => Entries.addPairs? part.pairs entries
  | some key => Entries.under? (part.enter? key) part.path.dropLast entries

end Section

/-- The entries of the document that the sections make up. -/
def assemble? (sections : List Section) : Option Entries :=
  sections.foldlM (fun entries part => part.addTo? entries) []

end ShaderMend.Toml
