/-!
# Lines of a text

A line feed ends a line, with or without a carriage return before it. What follows the
last line feed is a line too, unless it is empty; a carriage return at its end belongs
to it.
-/

namespace ShaderMend.Text

/-- A line that is ended by a line feed, without a carriage return before it. -/
def withoutReturn (line : List Char) : List Char :=
  if line.getLast? = some '\r' then line.dropLast else line

/-- The pieces of a text between line feeds: those that a line feed ends, and what
follows the last one. -/
def pieces : List Char → List (List Char) × List Char
  | [] => ([], [])
  | c :: rest =>
      match c == '\n', pieces rest with
      | true, (ended, last) => ([] :: ended, last)
      | false, (piece :: ended, last) => ((c :: piece) :: ended, last)
      | false, ([], last) => ([], c :: last)

/-- The lines of a text. -/
def lines (text : List Char) : List (List Char) :=
  let (ended, last) := pieces text
  ended.map withoutReturn ++ if last.isEmpty then [] else [last]

end ShaderMend.Text
