/-!
# What a repair reports

A repair reports the names of the shaders for which it found no replacement.
-/

namespace ShaderMend.Repair

/-- The report of a repair. -/
structure Outcome where
  allReplaced : Bool
  missingNames : List String
  deriving DecidableEq, Repr

namespace Outcome

/-- The report on shaders without replacement. -/
def ofMissing (names : List String) : Outcome :=
  ⟨names.isEmpty, names⟩

/-- Nothing was to be done. -/
def allSupported : Outcome :=
  ofMissing []

/-- The report before anything is known. -/
def blank : Outcome :=
  ⟨false, []⟩

end Outcome

end ShaderMend.Repair
