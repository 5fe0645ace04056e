import Mathlib
import ShaderMend.Proofs.Matching.Points

/-!
# When the order of properties counts

The wanted properties take their partners in turn, and take the first if there are several. So a
match can change with the order of properties of one name; it changes with nothing else.

* `perm_pairs_of_keeps` — the same pairs arise if contested names keep their order.
* `Signature.match?_of_reordered` — what of a match no order changes, and when none of it changes.
* `Signature.reordered_offer_apart` — an order of the candidate's properties that costs more.
-/

namespace ShaderMend

/-- Whether two lists have the properties of a name in one order. -/
def KeepsOrder (name : String) (first second : List Property) : Prop :=
  first.filter (·.name = name) = second.filter (·.name = name)

/-- How often a name occurs. -/
theorem length_filter_name (name : String) (properties : List Property) :
    (properties.filter (·.name = name)).length = (properties.map Property.name).count name := by
  rw [← List.countP_eq_length_filter, List.count_eq_countP, List.countP_map]
  exact List.countP_congr fun property _ => by simp

/-- Of a name that does not occur no order has a property. -/
theorem filter_name_eq_nil_of_perm {name : String} {first second : List Property}
    (h : first.Perm second) (hzero : (second.map Property.name).count name = 0) :
    first.filter (·.name = name) = [] ∧ second.filter (·.name = name) = [] := by
  rw [← length_filter_name] at hzero
  have hlength := (h.filter (·.name = name)).length_eq
  exact ⟨List.length_eq_zero_iff.mp (hlength.trans hzero), List.length_eq_zero_iff.mp hzero⟩

/-- A property that is alone with its name has no order to keep. -/
theorem KeepsOrder.of_perm {name : String} {first second : List Property}
    (h : first.Perm second) (hone : (second.map Property.name).count name ≤ 1) :
    KeepsOrder name first second := by
  have hperm := h.filter (·.name = name)
  rw [← length_filter_name] at hone
  rw [KeepsOrder]
  cases hsecond : second.filter (·.name = name) with
  | nil =>
      rw [hsecond] at hperm
      exact hperm.eq_nil
  | cons property rest =>
      rw [hsecond, List.length_cons] at hone
      have hrest : rest = [] := List.length_eq_zero_iff.mp (by omega)
      rw [hsecond, hrest] at hperm
      rw [hrest]
      exact List.perm_singleton.mp hperm

/-- Whether a name occurs on both sides, and on one of them more than once: so that properties of
the query have a choice, or compete. -/
def Contested (wanted offered : List Property) (name : String) : Prop :=
  1 ≤ (wanted.map Property.name).count name ∧ 1 ≤ (offered.map Property.name).count name ∧
    (2 ≤ (wanted.map Property.name).count name ∨ 2 ≤ (offered.map Property.name).count name)

/-- Where nothing is offered nothing is paired. -/
theorem pairs_pairUp_nil (wanted : List Property) : (pairUp wanted []).pairs = [] := by
  induction wanted with
  | nil => rfl
  | cons property wanted ih => exact ih

/-- Lists that hold the same under every key hold the same. -/
theorem perm_of_filter_eq {α : Type} [DecidableEq α] (key : α → String) {first second : List α}
    (h : ∀ name, first.filter (key · = name) = second.filter (key · = name)) :
    first.Perm second := by
  refine List.perm_iff_count.mpr fun item => ?_
  have hitem : decide (key item = key item) = true := by simp
  rw [← List.count_filter (p := (key · = key item)) hitem, h,
    List.count_filter (p := (key · = key item)) hitem]

section Reordered

variable {wanted wanted' offered offered' : List Property}

/-- **The same pairs arise if contested names keep their order.** Under any other name there is
nothing to pair, or no more than one property on either side. -/
theorem perm_pairs_of_keeps (hwanted : wanted'.Perm wanted) (hoffered : offered'.Perm offered)
    (hkeeps : ∀ name, Contested wanted offered name →
      KeepsOrder name wanted' wanted ∧ KeepsOrder name offered' offered) :
    (pairUp wanted' offered').pairs.Perm (pairUp wanted offered).pairs := by
  refine perm_of_filter_eq (fun pair => pair.1.name) fun name => ?_
  change ((pairUp wanted' offered').ofName name).pairs = ((pairUp wanted offered).ofName name).pairs
  rw [ofName_pairUp, ofName_pairUp]
  -- the cases are: nothing to pair on one side, a choice to make, at most one property on each side
  by_cases hunoffered : (offered.map Property.name).count name = 0
  · obtain ⟨hfirst, hsecond⟩ := filter_name_eq_nil_of_perm hoffered hunoffered
    rw [hfirst, hsecond, pairs_pairUp_nil, pairs_pairUp_nil]
  by_cases hunwanted : (wanted.map Property.name).count name = 0
  · obtain ⟨hfirst, hsecond⟩ := filter_name_eq_nil_of_perm hwanted hunwanted
    rw [hfirst, hsecond]
    rfl
  by_cases hcontested : Contested wanted offered name
  · obtain ⟨hfirst, hsecond⟩ := hkeeps name hcontested
    rw [hfirst, hsecond]
  · rw [Contested] at hcontested
    have hfirst : KeepsOrder name wanted' wanted := .of_perm hwanted (by omega)
    have hsecond : KeepsOrder name offered' offered := .of_perm hoffered (by omega)
    rw [hfirst, hsecond]

/-- No order changes how many properties are missing and how many are extra. -/
theorem length_missing_extra_of_perm (hwanted : wanted'.Perm wanted)
    (hoffered : offered'.Perm offered) :
    (pairUp wanted' offered').missing.length = (pairUp wanted offered).missing.length ∧
      (pairUp wanted' offered').extra.length = (pairUp wanted offered).extra.length := by
  have hserves := serves_pairUp wanted offered
  have hserves' := (serves_pairUp wanted' offered').of_perm hwanted.symm hoffered.symm
  have hcover : ∀ properties : List Property, ∀ property ∈ properties,
      property.name ∈ (properties.map Property.name).toFinset := fun properties property hmem =>
    List.mem_toFinset.mpr (List.mem_map_of_mem hmem)
  rw [hserves.length_missing (hcover wanted), hserves'.length_missing (hcover wanted),
    hserves.length_extra (hcover offered), hserves'.length_extra (hcover offered)]
  exact ⟨rfl, rfl⟩

/-- Pairings with the same pairs cost the same. -/
theorem points_of_keeps (hwanted : wanted'.Perm wanted) (hoffered : offered'.Perm offered)
    (hkeeps : ∀ name, Contested wanted offered name →
      KeepsOrder name wanted' wanted ∧ KeepsOrder name offered' offered) :
    (pairUp wanted' offered').structural = (pairUp wanted offered).structural ∧
      (pairUp wanted' offered').cosmetic = (pairUp wanted offered).cosmetic := by
  have hpairs := perm_pairs_of_keeps hwanted hoffered hkeeps
  obtain ⟨hmissing, hextra⟩ := length_missing_extra_of_perm hwanted hoffered
  have hmismatched : (pairUp wanted' offered').mismatched.length
      = (pairUp wanted offered).mismatched.length := (hpairs.filter _).length_eq
  refine ⟨?_, (hpairs.filter _).length_eq⟩
  rw [Pairing.structural, Pairing.structural, hmissing, hextra, hmismatched]

end Reordered

namespace Signature

/-- **What the order of properties changes.** Whatever the order, it changes neither whether a
candidate is considered nor, as long as the structural points fit a word, whether it fits fully;
nor how many properties are missing and how many are extra. If the properties of each contested
name keep their order the match is the same, with its score. -/
theorem match?_of_reordered {query candidate : Signature} {wanted offered : List Property}
    (hwanted : wanted.Perm query.properties) (hoffered : offered.Perm candidate.properties) :
    let before := query.match? candidate
    let after := match? { query with properties := wanted } { candidate with properties := offered }
    (after = none ↔ before = none) ∧
    (4 * query.properties.length + candidate.properties.length < 2 ^ 32 →
      (after = some .full ↔ before = some .full)) ∧
    ((pairUp wanted offered).missing.length
        = (pairUp query.properties candidate.properties).missing.length ∧
      (pairUp wanted offered).extra.length
        = (pairUp query.properties candidate.properties).extra.length) ∧
    ((∀ name, Contested query.properties candidate.properties name →
        KeepsOrder name wanted query.properties ∧ KeepsOrder name offered candidate.properties) →
      after = before) := by
  refine ⟨?none, fun hfits => ?full, length_missing_extra_of_perm hwanted hoffered,
    fun hkeeps => ?kept⟩
  case none =>
    rw [← Option.not_isSome_iff_eq_none, ← Option.not_isSome_iff_eq_none, isSome_match?_iff,
      isSome_match?_iff]
  case full =>
    have hlengths := hwanted.length_eq
    have hlengths' := hoffered.length_eq
    have hkinds : (wanted.map Property.kind).Perm (offered.map Property.kind)
        ↔ (query.properties.map Property.kind).Perm (candidate.properties.map Property.kind) :=
      ((hwanted.map Property.kind).congr_left _).trans ((hoffered.map Property.kind).congr_right _)
    have hfits' : 4 * wanted.length + offered.length < 2 ^ 32 := by omega
    rw [match?_eq_full_iff_of_fits hfits', match?_eq_full_iff_of_fits hfits, hkinds]
  case kept =>
    obtain ⟨hstructural, hcosmetic⟩ := points_of_keeps hwanted hoffered hkeeps
    rw [match?_eq, match?_eq, points, points, hstructural, hcosmetic]

/-- A query that wants one name with two types. -/
def choosyQuery : Signature :=
  ⟨"Glow", [⟨"_A", "A", .float⟩, ⟨"_A", "A", .int⟩, ⟨"_B", "B", .color⟩], []⟩

/-- A candidate that offers the name with one of the types, behind another one. -/
def choosyOffer : Signature :=
  ⟨"Glow", [⟨"_A", "A", .color⟩, ⟨"_A", "A", .int⟩, ⟨"_B", "B", .color⟩], []⟩

/-- Only `_A` is contested, and `_B` moves. -/
theorem match?_of_sample :
    [⟨"_B", "B", .color⟩, ⟨"_A", "A", .float⟩, ⟨"_A", "A", .int⟩].Perm choosyQuery.properties ∧
      choosyOffer.properties.Perm choosyOffer.properties ∧
      4 * choosyQuery.properties.length + choosyOffer.properties.length < 2 ^ 32 ∧
      match? { choosyQuery with
          properties := [⟨"_B", "B", .color⟩, ⟨"_A", "A", .float⟩, ⟨"_A", "A", .int⟩] } choosyOffer
        ≠ some .full ∧
      match? { choosyQuery with
          properties := [⟨"_B", "B", .color⟩, ⟨"_A", "A", .float⟩, ⟨"_A", "A", .int⟩] } choosyOffer
        = some (.inexact 3) := by
  have hwanted : [⟨"_B", "B", .color⟩, ⟨"_A", "A", .float⟩, ⟨"_A", "A", .int⟩].Perm
      choosyQuery.properties := by decide
  have hoffered : choosyOffer.properties.Perm choosyOffer.properties := .refl _
  have hfits : 4 * choosyQuery.properties.length + choosyOffer.properties.length < 2 ^ 32 := by
    decide
  obtain ⟨-, hfull, -, hkept⟩ := match?_of_reordered hwanted hoffered
  have hbefore : choosyQuery.match? choosyOffer = some (.inexact 3) := by decide +kernel
  refine ⟨hwanted, hoffered, hfits, mt (hfull hfits).mp (by simp [hbefore]),
    (hkept fun name hcontested => ⟨?_, rfl⟩).trans hbefore⟩
  have hname : name ∈ ["_A", "_A", "_B"] := List.count_pos_iff.mp hcontested.1
  simp only [List.mem_cons, List.not_mem_nil, or_false, or_self_left] at hname
  rcases hname with rfl | rfl
  all_goals rfl

/-- **The order among properties of a contested name changes the score.** If the candidate offers
the type of the second wanted property first, the first one takes it. -/
theorem reordered_offer_apart :
    ¬ ∀ (query candidate : Signature) (wanted offered : List Property),
      wanted.Perm query.properties → offered.Perm candidate.properties →
      match? { query with properties := wanted } { candidate with properties := offered }
        = query.match? candidate := by
  intro h
  have hsame := h choosyQuery choosyOffer choosyQuery.properties
    [⟨"_A", "A", .int⟩, ⟨"_A", "A", .color⟩, ⟨"_B", "B", .color⟩] (.refl _) (by decide)
  revert hsame
  decide +kernel

end Signature

end ShaderMend
