/-!
# Texts up to the case of ASCII letters

Names are compared after the letters `A` to `Z` are made small; no other character
has a case.
-/

namespace ShaderMend.Text

/-- The characters with the ASCII capitals made small. -/
def foldCase (text : List Char) : List Char :=
  text.map Char.toLower

/-- Whether two texts differ at most in the case of ASCII letters. -/
def sameUpToCase (first second : List Char) : Bool :=
  foldCase first == foldCase second

/-- The part behind the last slash, the whole text if there is none. -/
def lastSegment (text : List Char) : List Char :=
  (text.reverse.takeWhile (· ≠ '/')).reverse

/-- The last segment holds no slash. -/
theorem slash_not_mem_lastSegment (text : List Char) : '/' ∉ lastSegment text := by
  simp only [lastSegment, List.mem_reverse]
  intro h
  have hall := List.all_eq_true.mp (List.all_takeWhile (l := text.reverse) (p := (· ≠ '/'))) _ h
  simp at hall

/-- Sameness up to case is an equivalence, being the equality of folded texts. -/
theorem sameUpToCase_iff {first second : List Char} :
    sameUpToCase first second = true ↔ foldCase first = foldCase second := by
  simp [sameUpToCase]

end ShaderMend.Text
