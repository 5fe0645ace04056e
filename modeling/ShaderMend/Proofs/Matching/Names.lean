import Mathlib
import ShaderMend.Matching
import ShaderMend.Proofs.Text.Splitting

/-!
# Which names are related

Two names are the same, or the same up to the case of letters, or end in the same segment up to
the case of letters. The three ways overlap, and an empty last segment is looked for in the query
only; still being related divides the names into classes.

* `Text.lastSegment_eq_leaf` — the last segment is the last of the parts between slashes.
* `isSome_namePenalty?_iff`, `namePenalty?_eq` — which names are related and what that costs.
* `related_iff_leaves` — being related is an equivalence of names and neither side is preferred.
-/

namespace ShaderMend

namespace Text

/-! ### The last segment -/

/-- The last of the parts that a text has between slashes. -/
def leaf (text : List Char) : List Char :=
  (text.splitOn '/').getLast (List.splitOn_ne_nil '/' text)

/-- **The last segment is the last of the parts between slashes.** -/
theorem lastSegment_eq_leaf (text : List Char) : lastSegment text = leaf text :=
  lastPart_eq '/' text

/-! ### The case of letters -/

/-- No letter becomes a slash, and a slash stays. -/
theorem toLower_eq_slash_iff (char : Char) : char.toLower = '/' ↔ char = '/' := by
  by_cases hupper : char.isUpper
  · have hlower : char.toLower.isLower = true := by
      simp [Char.isLower_toLower_eq_isAlpha, Char.isAlpha, hupper]
    constructor
    · intro heq
      rw [heq] at hlower
      cases hlower
    · rintro rfl
      cases hupper
  · rw [Char.toLower_eq_of_not_isUpper hupper]

/-- **The case of letters does not move the last segment.** -/
theorem lastSegment_foldCase (text : List Char) :
    lastSegment (foldCase text) = foldCase (lastSegment text) := by
  have hslash : ((· ≠ '/') : Char → Bool) ∘ Char.toLower = ((· ≠ '/') : Char → Bool) := by
    funext char
    simp [toLower_eq_slash_iff]
  simp only [lastSegment, foldCase, ← List.map_reverse, List.takeWhile_map, hslash]

end Text

/-! ### Related names -/

/-- Whether two names end alike: in segments that agree up to case, or in none at all if the
names as a whole agree up to case. -/
def EndAlike (first second : List Char) : Prop :=
  (Text.leaf first ≠ [] ∧ Text.leaf second ≠ [] ∧
      (Text.leaf first).map Char.toLower = (Text.leaf second).map Char.toLower) ∨
    (Text.leaf first = [] ∧ Text.leaf second = [] ∧
      first.map Char.toLower = second.map Char.toLower)

instance (first second : List Char) : Decidable (EndAlike first second) :=
  inferInstanceAs (Decidable ((_ ∧ _ ∧ _) ∨ (_ ∧ _ ∧ _)))

/-- Names that agree up to case end alike. -/
theorem EndAlike.of_sameUpToCase {first second : List Char}
    (h : Text.sameUpToCase first second = true) : EndAlike first second := by
  have hfold := Text.sameUpToCase_iff.mp h
  have hleaf : (Text.leaf first).map Char.toLower = (Text.leaf second).map Char.toLower := by
    have hsegment := congrArg Text.lastSegment hfold
    rwa [Text.lastSegment_foldCase, Text.lastSegment_foldCase, Text.lastSegment_eq_leaf,
      Text.lastSegment_eq_leaf] at hsegment
  by_cases hempty : Text.leaf first = []
  · have hother : Text.leaf second = [] := by
      rw [hempty] at hleaf
      exact List.map_eq_nil_iff.mp hleaf.symm
    exact Or.inr ⟨hempty, hother, hfold⟩
  · have hother : Text.leaf second ≠ [] := by
      intro hnil
      exact hempty (by simpa [hnil] using hleaf)
    exact Or.inl ⟨hempty, hother, hleaf⟩

theorem EndAlike.symm {first second : List Char} (h : EndAlike first second) :
    EndAlike second first := by
  rcases h with ⟨hfirst, hsecond, hsame⟩ | ⟨hfirst, hsecond, hsame⟩
  · exact Or.inl ⟨hsecond, hfirst, hsame.symm⟩
  · exact Or.inr ⟨hsecond, hfirst, hsame.symm⟩

/-- The middle name has an empty last segment or not; so both steps are of one kind. -/
theorem EndAlike.trans {first second third : List Char} (h : EndAlike first second)
    (hnext : EndAlike second third) : EndAlike first third := by
  rcases h with ⟨hfirst, hsecond, hsame⟩ | ⟨hfirst, hsecond, hsame⟩
  · rcases hnext with ⟨-, hthird, hsame'⟩ | ⟨hempty, -, -⟩
    · exact Or.inl ⟨hfirst, hthird, hsame.trans hsame'⟩
    · exact absurd hempty hsecond
  · rcases hnext with ⟨hnonempty, -, -⟩ | ⟨-, hthird, hsame'⟩
    · exact absurd hsecond hnonempty
    · exact Or.inr ⟨hfirst, hthird, hsame.trans hsame'⟩

/-- **Names are related if they end alike.** -/
theorem isSome_namePenalty?_iff (first second : String) :
    (namePenalty? first second).isSome ↔ EndAlike first.toList second.toList := by
  have hsegment : ((!(Text.lastSegment first.toList).isEmpty &&
        Text.sameUpToCase (Text.lastSegment first.toList) (Text.lastSegment second.toList)) = true)
      ↔ Text.leaf first.toList ≠ [] ∧ (Text.leaf first.toList).map Char.toLower
        = (Text.leaf second.toList).map Char.toLower := by
    rw [Bool.and_eq_true, Text.sameUpToCase_iff, Text.lastSegment_eq_leaf,
      Text.lastSegment_eq_leaf]
    simp [Text.foldCase]
  simp only [namePenalty?, hsegment]
  split_ifs with hname hcase hleaf
  · subst hname
    exact iff_of_true rfl (.of_sameUpToCase (Text.sameUpToCase_iff.mpr rfl))
  · exact iff_of_true rfl (.of_sameUpToCase hcase)
  · have hother : Text.leaf second.toList ≠ [] := by
      intro hnil
      exact hleaf.1 (by simpa [hnil] using hleaf.2)
    exact iff_of_true rfl (Or.inl ⟨hleaf.1, hother, hleaf.2⟩)
  · refine iff_of_false (by simp) ?_
    rintro (⟨hfirst, -, hsame⟩ | ⟨-, -, hsame⟩)
    · exact hleaf ⟨hfirst, hsame⟩
    · exact hcase (Text.sameUpToCase_iff.mpr hsame)

/-- A name that ends in a slash is related to others only as a whole. -/
example : (namePenalty? "Vendor/" "Other/Vendor").isSome = false := by decide +kernel

/-- What a pair of names costs: nothing if they are the same, and one price for all others that
are related. -/
theorem namePenalty?_eq (first second : String) :
    namePenalty? first second
      = if first = second then some 0
        else if EndAlike first.toList second.toList then some Penalty.similarName else none := by
  have hrelated := isSome_namePenalty?_iff first second
  split_ifs with hname halike
  · simp [namePenalty?, hname]
  · rw [← hrelated] at halike
    revert halike
    simp only [namePenalty?, hname, if_false]
    split_ifs <;> simp
  · rw [← hrelated] at halike
    simpa using halike

/-- Neither name is preferred. -/
theorem namePenalty?_comm (first second : String) :
    namePenalty? first second = namePenalty? second first := by
  have halike : EndAlike first.toList second.toList ↔ EndAlike second.toList first.toList :=
    ⟨.symm, .symm⟩
  rw [namePenalty?_eq, namePenalty?_eq]
  exact if_congr eq_comm rfl (if_congr halike rfl rfl)

/-- Only the same name costs nothing. -/
theorem namePenalty?_eq_some_zero_iff (first second : String) :
    namePenalty? first second = some 0 ↔ first = second := by
  rw [namePenalty?_eq]
  split_ifs with hname halike
  · simp [hname]
  · simp [hname, Penalty.similarName]
  · simp [hname]

/-- Related names that differ all cost the same. -/
theorem eq_of_namePenalty? {first second : String} {points : UInt32}
    (h : namePenalty? first second = some points) :
    points = .ofNat (if first = second then 0 else 8) := by
  rw [namePenalty?_eq] at h
  split_ifs at h ⊢
  all_goals exact (Option.some.inj h).symm

/-! ### Signatures with related names -/

/-- A candidate is considered exactly if its name is related to that of the query. -/
theorem Signature.isSome_match?_iff (query candidate : Signature) :
    (query.match? candidate).isSome ↔ (namePenalty? query.name candidate.name).isSome := by
  cases hname : namePenalty? query.name candidate.name with
  | none => simp [match?, hname]
  | some points =>
      simp only [match?, hname, Option.bind_eq_bind, Option.bind_some, Option.isSome_some]
      split_ifs <;> simp

/-- Whether a candidate that has a name and nothing else is considered for a query that has a name
and nothing else. -/
def Related (first second : String) : Prop :=
  (Signature.match? ⟨first, [], []⟩ ⟨second, [], []⟩).isSome

/-- **Being considered is an equivalence of names.** Properties and keywords have no say in it.
Names are related exactly if their last segments are not empty and agree up to case, or both are
empty and the names as a whole agree up to case; and the points are the same from both sides. -/
theorem related_iff_leaves :
    (∀ query candidate : Signature,
      (query.match? candidate).isSome ↔ Related query.name candidate.name) ∧
    Equivalence Related ∧
    (∀ first second, namePenalty? first second = namePenalty? second first) ∧
    ∀ first second : String, Related first second ↔
      EndAlike first.toList second.toList := by
  have hrelated : ∀ first second : String,
      Related first second ↔ EndAlike first.toList second.toList := fun first second =>
    (Signature.isSome_match?_iff _ _).trans (isSome_namePenalty?_iff first second)
  refine ⟨fun query candidate => ?_, ⟨fun name => ?_, fun h => ?_, fun h hnext => ?_⟩,
    namePenalty?_comm, hrelated⟩
  · rw [Signature.isSome_match?_iff, isSome_namePenalty?_iff, hrelated]
  · exact (hrelated name name).mpr (.of_sameUpToCase (Text.sameUpToCase_iff.mpr rfl))
  · exact (hrelated _ _).mpr ((hrelated _ _).mp h).symm
  · exact (hrelated _ _).mpr (((hrelated _ _).mp h).trans ((hrelated _ _).mp hnext))

end ShaderMend
