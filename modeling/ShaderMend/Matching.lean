import ShaderMend.Shader.Property

/-!
# How well a candidate replaces a shader

A candidate is considered if its name is that of the query, or at least the same up
to case, or ends in the same segment up to case. Differences cost points: a full
match has the same name and the same properties, any other match is inexact and
the fewer points the better.
-/

namespace ShaderMend

/-- How well a candidate fits. -/
inductive Match where
  | full
  | inexact (score : UInt32)
  deriving DecidableEq, Repr

namespace Match

/-- Whether the match is full. -/
def isFull : Match → Bool
  | full => true
  | .inexact _ => false

/-- The points of a match, none for a full one. -/
def score : Match → UInt32
  | full => 0
  | .inexact score => score

end Match

namespace Penalty

/-- Names that agree only up to case or in their last segment. -/
def similarName : UInt32 := 8

/-- A property of the query that the candidate lacks. -/
def missingProperty : UInt32 := 4

/-- A property of both with different types. -/
def typeMismatch : UInt32 := 3

/-- A keyword of the query that the candidate does not declare. -/
def missingKeyword : UInt32 := 2

/-- A property of the candidate that the query lacks. -/
def extraProperty : UInt32 := 1

/-- A property of both, of one type, with different names for display. -/
def displayName : UInt32 := 1

end Penalty

/-! ### Names -/

/-- The points for a pair of names, `none` if they are not related. An empty last
segment relates nothing. -/
def namePenalty? (query candidate : String) : Option UInt32 :=
  let leaf := Text.lastSegment query.toList
  if query = candidate then some 0
  else if Text.sameUpToCase query.toList candidate.toList then some Penalty.similarName
  else if !leaf.isEmpty && Text.sameUpToCase leaf (Text.lastSegment candidate.toList) then
    some Penalty.similarName
  else none

/-! ### Properties -/

/-- The points for two lists of properties. -/
structure PropertyDistance where
  /-- Points for names and types, which a full match must not have. -/
  structural : UInt32
  /-- Points for names for display. -/
  cosmetic : UInt32
  deriving DecidableEq, Repr

/-- Takes from the properties left the partner of a wanted one: the first of its name
and type, else the first of its name. -/
def takePartner (wanted : Property) (left : List Property) : Option (Property × List Property) :=
  let twin? := left.findIdx? fun p => p.name = wanted.name ∧ p.type = wanted.type
  let index? := twin?.or (left.findIdx? fun p => p.name = wanted.name)
  index?.bind fun index => (left[index]?).map (·, left.eraseIdx index)

/-- The distance of the properties wanted from those left. Each wanted property takes
its partner in turn; what is left at the end is extra. -/
def propertyDistance : (wanted left : List Property) → PropertyDistance
  | [], left => ⟨UInt32.ofNat left.length * Penalty.extraProperty, 0⟩
  | property :: wanted, left =>
      match takePartner property left with
      | none =>
          let rest := propertyDistance wanted left
          { rest with structural := rest.structural + Penalty.missingProperty }
      | some (partner, left) =>
          let rest := propertyDistance wanted left
          if partner.type ≠ property.type then
            { rest with structural := rest.structural + Penalty.typeMismatch }
          else if partner.displayName ≠ property.displayName then
            { rest with cosmetic := rest.cosmetic + Penalty.displayName }
          else rest

/-! ### Keywords -/

/-- The points for keywords that the candidate does not declare. A candidate that
declares none is not asked for any. -/
def keywordPenalty (wanted declared : List String) : UInt32 :=
  if declared.isEmpty then 0
  else UInt32.ofNat (wanted.filter (· ∉ declared)).length * Penalty.missingKeyword

/-! ### Signatures -/

/-- How well a candidate fits a query. -/
def Signature.match? (query candidate : Signature) : Option Match := do
  let name ← namePenalty? query.name candidate.name
  let properties := propertyDistance query.properties candidate.properties
  if name = 0 ∧ properties.structural = 0 then
    return .full
  else
    return .inexact (name + properties.structural + properties.cosmetic
      + keywordPenalty query.keywords candidate.keywords)

/-! ### The best of several -/

/-- The best candidate so far and its match. Of equals the first stays. -/
structure BestMatch (α : Type) where
  best? : Option (α × Match)
  deriving Repr

namespace BestMatch

variable {α : Type}

/-- No candidate yet. -/
def empty : BestMatch α := ⟨none⟩

/-- Whether a match is better than the best so far. -/
def improvedBy (tracker : BestMatch α) (found : Match) : Bool :=
  match tracker.best? with
  | none => true
  | some (_, current) => found.score < current.score

/-- Takes a candidate if it is better than the best so far. -/
def offer (tracker : BestMatch α) (candidate : α) (found : Match) : BestMatch α :=
  if tracker.improvedBy found then ⟨some (candidate, found)⟩ else tracker

end BestMatch

end ShaderMend
