import Mathlib
import ShaderMend.Proofs.Matching.Names
import ShaderMend.Proofs.Matching.Pairing

/-!
# What a match costs

The points of a candidate are sums in words of 32 bits. They are those of the pairing of the
properties, counted without bound, as long as these fit.

* `propertyDistance_eq`, `Signature.match?_eq` — a match counts the name, the pairing and the
  keywords.
* `Signature.exactMatch?_eq` — with every sum checked a match comes out the same.
* `Signature.full_iff_same_kinds` — which candidates fit fully, and that no sum wraps.
* `Signature.score_of_match` — what a match costs.
-/

namespace ShaderMend

/-! ### The points of a pairing -/

namespace Pairing

/-- Pairs of different types. -/
def mismatched (pairing : Pairing) : List (Property × Property) :=
  pairing.pairs.filter fun pair => pair.2.type ≠ pair.1.type

/-- Pairs of one type with different names for display. -/
def renamed (pairing : Pairing) : List (Property × Property) :=
  pairing.pairs.filter fun pair =>
    pair.2.type = pair.1.type ∧ pair.2.displayName ≠ pair.1.displayName

/-- The points for names and types. -/
def structural (pairing : Pairing) : Nat :=
  4 * pairing.missing.length + 3 * pairing.mismatched.length + pairing.extra.length

/-- The points for names for display. -/
def cosmetic (pairing : Pairing) : Nat :=
  pairing.renamed.length

section Steps

variable {wanted partner : Property} {rest : Pairing}

@[simp] theorem structural_withMissing :
    (rest.withMissing wanted).structural = rest.structural + 4 := by
  simp only [structural, mismatched, withMissing, List.length_cons]
  omega

@[simp] theorem cosmetic_withMissing : (rest.withMissing wanted).cosmetic = rest.cosmetic := rfl

theorem structural_withPair (wanted partner : Property) (rest : Pairing) :
    (rest.withPair wanted partner).structural
      = rest.structural + if partner.type ≠ wanted.type then 3 else 0 := by
  by_cases htype : partner.type = wanted.type
  · simp [structural, mismatched, withPair, htype]
  · simp only [structural, mismatched, withPair, htype, ne_eq, not_false_eq_true, decide_true,
      List.filter_cons_of_pos, List.length_cons, if_true]
    omega

theorem cosmetic_withPair (wanted partner : Property) (rest : Pairing) :
    (rest.withPair wanted partner).cosmetic
      = rest.cosmetic
        + if partner.type = wanted.type ∧ partner.displayName ≠ wanted.displayName then 1 else 0 := by
  simp only [cosmetic, renamed, withPair, List.filter_cons]
  split_ifs <;> simp_all

end Steps

/-- A pairing costs no structural points exactly if it has no flaw. -/
theorem structural_eq_zero_iff (pairing : Pairing) :
    pairing.structural = 0 ↔ pairing.Flawless := by
  have hmismatched : pairing.mismatched = []
      ↔ ∀ pair ∈ pairing.pairs, pair.2.type = pair.1.type := by
    simp [mismatched, List.filter_eq_nil_iff]
  rw [Flawless, ← hmismatched, ← List.length_eq_zero_iff, ← List.length_eq_zero_iff,
    ← List.length_eq_zero_iff, structural]
  omega

/-- A pair costs at one place only. -/
theorem mismatched_add_renamed_le (pairing : Pairing) :
    pairing.mismatched.length + pairing.renamed.length ≤ pairing.pairs.length := by
  simp only [mismatched, renamed, ← List.countP_eq_length_filter]
  induction pairing.pairs with
  | nil => simp
  | cons pair rest ih =>
      simp only [List.countP_cons, List.length_cons, decide_eq_true_eq]
      split_ifs with hother hsame
      · exact absurd hsame.1 hother
      all_goals omega

/-- No wanted property costs more than a missing one, and none on offer more than an extra one. -/
theorem Serves.points_le {pairing : Pairing} {wanted offered : List Property}
    (h : pairing.Serves wanted offered) :
    pairing.structural + pairing.cosmetic ≤ 4 * wanted.length + offered.length := by
  have hwanted := h.wanted.length_eq
  have hoffered := h.offered.length_eq
  have hpairs := pairing.mismatched_add_renamed_le
  rw [List.length_append, List.length_map] at hwanted hoffered
  simp only [structural, cosmetic]
  omega

end Pairing

/-- **The distance of two lists of properties counts their pairing**, in words. -/
theorem propertyDistance_eq (wanted left : List Property) :
    propertyDistance wanted left
      = ⟨.ofNat (pairUp wanted left).structural, .ofNat (pairUp wanted left).cosmetic⟩ := by
  induction wanted, left using pairUp.induct with
  | case1 left =>
      simp [propertyDistance, pairUp, Pairing.structural, Pairing.cosmetic, Pairing.mismatched,
        Pairing.renamed, Penalty.extraProperty]
  | case2 property wanted left htaken ih =>
      simp [propertyDistance, pairUp, htaken, ih, UInt32.ofNat_add, Penalty.missingProperty]
  | case3 property wanted left partner rest htaken ih =>
      simp only [propertyDistance, pairUp, htaken, ih, Pairing.structural_withPair,
        Pairing.cosmetic_withPair]
      by_cases htype : partner.type = property.type
      · by_cases hdisplay : partner.displayName = property.displayName
        · simp [htype, hdisplay]
        · simp [htype, hdisplay, UInt32.ofNat_add, Penalty.displayName]
      · simp [htype, UInt32.ofNat_add, Penalty.typeMismatch]

/-- The points for keywords that the candidate does not declare. -/
def keywordPoints (wanted declared : List String) : Nat :=
  if declared = [] then 0 else 2 * wanted.countP (· ∉ declared)

theorem keywordPenalty_eq (wanted declared : List String) :
    keywordPenalty wanted declared = .ofNat (keywordPoints wanted declared) := by
  simp only [keywordPenalty, keywordPoints, List.isEmpty_iff, List.countP_eq_length_filter]
  split_ifs with hempty
  · rfl
  · rw [UInt32.ofNat_mul, mul_comm]
    rfl

theorem keywordPoints_le (wanted declared : List String) :
    keywordPoints wanted declared ≤ 2 * wanted.length := by
  have hle := List.countP_le_length (l := wanted) (p := (· ∉ declared))
  rw [keywordPoints]
  split_ifs <;> omega

namespace Signature

/-- The points of a candidate of a related name, counted without bound. -/
def points (query candidate : Signature) : Nat :=
  (if query.name = candidate.name then 0 else 8)
    + (pairUp query.properties candidate.properties).structural
    + (pairUp query.properties candidate.properties).cosmetic
    + keywordPoints query.keywords candidate.keywords

theorem points_le (query candidate : Signature) :
    query.points candidate ≤ 8 + 4 * query.properties.length + candidate.properties.length
      + 2 * query.keywords.length := by
  have hproperties := (serves_pairUp query.properties candidate.properties).points_le
  have hkeywords := keywordPoints_le query.keywords candidate.keywords
  rw [points]
  split_ifs <;> omega

/-- **A match counts the name, the pairing and the keywords**, in words. -/
theorem match?_eq (query candidate : Signature) :
    query.match? candidate = (namePenalty? query.name candidate.name).map fun _ =>
      if query.name = candidate.name ∧
          UInt32.ofNat (pairUp query.properties candidate.properties).structural = 0 then .full
      else .inexact (.ofNat (query.points candidate)) := by
  cases hname : namePenalty? query.name candidate.name with
  | none => simp [match?, hname]
  | some points =>
      have hzero : points = 0 ↔ query.name = candidate.name := by
        rw [← namePenalty?_eq_some_zero_iff, hname, Option.some.injEq]
      simp only [match?, hname, propertyDistance_eq, keywordPenalty_eq, Signature.points,
        UInt32.ofNat_add, ← eq_of_namePenalty? hname, hzero, Option.bind_eq_bind,
        Option.bind_some, Option.map_some]
      split_ifs <;> rfl

end Signature

/-! ### Sums that are checked -/

namespace Word

/-- A number as a word, if it is not too large for one. -/
def ofNat? (value : Nat) : Option UInt32 :=
  if value < 2 ^ 32 then some (.ofNat value) else none

/-- A sum of words, if it does not wrap. -/
def add? (first second : UInt32) : Option UInt32 :=
  ofNat? (first.toNat + second.toNat)

/-- A product of words, if it does not wrap. -/
def mul? (first second : UInt32) : Option UInt32 :=
  ofNat? (first.toNat * second.toNat)

theorem ofNat?_of_lt {value : Nat} (h : value < 2 ^ 32) : ofNat? value = some (.ofNat value) :=
  if_pos h

theorem add?_ofNat {first second : Nat} (h : first + second < 2 ^ 32) :
    add? (.ofNat first) (.ofNat second) = some (.ofNat (first + second)) := by
  have hfirst : first < 2 ^ 32 := by omega
  have hsecond : second < 2 ^ 32 := by omega
  rw [add?, UInt32.toNat_ofNat_of_lt' hfirst, UInt32.toNat_ofNat_of_lt' hsecond, ofNat?_of_lt h]

/-- A count times the points for one. -/
theorem mul?_ofNat {count : Nat} {each : UInt32} (heach : 0 < each.toNat)
    (h : count * each.toNat < 2 ^ 32) :
    mul? (.ofNat count) each = some (.ofNat (count * each.toNat)) := by
  have hcount : count < 2 ^ 32 := lt_of_le_of_lt (Nat.le_mul_of_pos_right count heach) h
  rw [mul?, UInt32.toNat_ofNat_of_lt' hcount, ofNat?_of_lt h]

end Word

/-- The distance of two lists of properties, summed up in the order in which the wanted ones take
their partners. There is none if a sum on the way wraps. -/
def exactDistance? (points : PropertyDistance) :
    (wanted left : List Property) → Option PropertyDistance
  | [], left => do
      let extra ← Word.mul? (← Word.ofNat? left.length) Penalty.extraProperty
      return { points with structural := ← Word.add? points.structural extra }
  | property :: wanted, left =>
      match takePartner property left with
      | none => do
          let structural ← Word.add? points.structural Penalty.missingProperty
          exactDistance? { points with structural } wanted left
      | some (partner, left) =>
          if partner.type ≠ property.type then do
            let structural ← Word.add? points.structural Penalty.typeMismatch
            exactDistance? { points with structural } wanted left
          else if partner.displayName ≠ property.displayName then do
            let cosmetic ← Word.add? points.cosmetic Penalty.displayName
            exactDistance? { points with cosmetic } wanted left
          else exactDistance? points wanted left

/-- The points for keywords, if no product wraps. -/
def exactKeywordPenalty? (wanted declared : List String) : Option UInt32 :=
  if declared.isEmpty then some 0
  else do Word.mul? (← Word.ofNat? (wanted.filter (· ∉ declared)).length) Penalty.missingKeyword

/-- How well a candidate fits a query, if no sum on the way wraps. -/
def Signature.exactMatch? (query candidate : Signature) : Option (Option Match) :=
  match namePenalty? query.name candidate.name with
  | none => some none
  | some name => do
      let properties ← exactDistance? ⟨0, 0⟩ query.properties candidate.properties
      if name = 0 ∧ properties.structural = 0 then
        return some .full
      else
        let keywords ← exactKeywordPenalty? query.keywords candidate.keywords
        let score ← Word.add? name properties.structural
        let score ← Word.add? score properties.cosmetic
        let score ← Word.add? score keywords
        return some (.inexact score)

/-- Whatever was summed up before, no later sum wraps if the last does not. -/
theorem exactDistance?_eq (structural cosmetic : Nat) (wanted left : List Property)
    (hstructural : structural + (pairUp wanted left).structural < 2 ^ 32)
    (hcosmetic : cosmetic + (pairUp wanted left).cosmetic < 2 ^ 32) :
    exactDistance? ⟨.ofNat structural, .ofNat cosmetic⟩ wanted left
      = some ⟨.ofNat (structural + (pairUp wanted left).structural),
          .ofNat (cosmetic + (pairUp wanted left).cosmetic)⟩ := by
  induction wanted, left using pairUp.induct generalizing structural cosmetic with
  | case1 left =>
      -- what is left is counted as a word first, then multiplied: both have to fit
      have hextra : (pairUp [] left).structural = left.length * Penalty.extraProperty.toNat := by
        simp [pairUp, Pairing.structural, Pairing.mismatched, Penalty.extraProperty]
      rw [hextra] at hstructural
      have hcosts : left.length * Penalty.extraProperty.toNat < 2 ^ 32 := by omega
      have hlength : left.length < 2 ^ 32 := by simpa [Penalty.extraProperty] using hcosts
      simp only [exactDistance?, Word.ofNat?_of_lt hlength, Word.mul?_ofNat (by decide) hcosts,
        Option.bind_eq_bind, Option.bind_some, Word.add?_ofNat hstructural, hextra]
      rfl
  | case2 property wanted left htaken ih =>
      simp only [pairUp, htaken, Pairing.structural_withMissing, Pairing.cosmetic_withMissing]
        at hstructural hcosmetic ⊢
      have hsum : structural + 4 < 2 ^ 32 := by omega
      have hadd : Word.add? (.ofNat structural) Penalty.missingProperty
          = some (.ofNat (structural + 4)) := Word.add?_ofNat hsum
      simp only [exactDistance?, htaken, hadd, Option.bind_eq_bind, Option.bind_some]
      rw [ih _ _ (by omega) hcosmetic, Nat.add_right_comm, Nat.add_assoc]
  | case3 property wanted left partner rest htaken ih =>
      simp only [pairUp, htaken, Pairing.structural_withPair, Pairing.cosmetic_withPair]
        at hstructural hcosmetic ⊢
      simp only [exactDistance?, htaken]
      by_cases htype : partner.type = property.type
      · by_cases hdisplay : partner.displayName = property.displayName
        · simp only [htype, hdisplay, ne_eq, not_true_eq_false, and_false, if_false,
            Nat.add_zero] at hstructural hcosmetic ⊢
          exact ih _ _ hstructural hcosmetic
        · simp only [htype, hdisplay, ne_eq, not_true_eq_false, not_false_eq_true, and_true,
            if_false, if_true, Nat.add_zero] at hstructural hcosmetic ⊢
          have hsum : cosmetic + 1 < 2 ^ 32 := by omega
          have hadd : Word.add? (.ofNat cosmetic) Penalty.displayName
              = some (.ofNat (cosmetic + 1)) := Word.add?_ofNat hsum
          simp only [hadd, Option.bind_eq_bind, Option.bind_some]
          rw [ih _ _ hstructural (by omega), Nat.add_right_comm cosmetic, Nat.add_assoc]
      · simp only [htype, ne_eq, not_false_eq_true, false_and, if_false, if_true,
          Nat.add_zero] at hstructural hcosmetic ⊢
        have hsum : structural + 3 < 2 ^ 32 := by omega
        have hadd : Word.add? (.ofNat structural) Penalty.typeMismatch
            = some (.ofNat (structural + 3)) := Word.add?_ofNat hsum
        simp only [hadd, Option.bind_eq_bind, Option.bind_some]
        rw [ih _ _ (by omega) hcosmetic, Nat.add_right_comm, Nat.add_assoc]

/-- No product wraps if twice the keywords fit a word. -/
theorem exactKeywordPenalty?_eq {wanted declared : List String}
    (h : 2 * wanted.length < 2 ^ 32) :
    exactKeywordPenalty? wanted declared = some (keywordPenalty wanted declared) := by
  have hle := List.length_filter_le (fun keyword => decide (keyword ∉ declared)) wanted
  have hcosts : (wanted.filter (· ∉ declared)).length * Penalty.missingKeyword.toNat < 2 ^ 32 := by
    change (wanted.filter (· ∉ declared)).length * 2 < 2 ^ 32
    omega
  have hlength : (wanted.filter (· ∉ declared)).length < 2 ^ 32 := by omega
  simp only [exactKeywordPenalty?, keywordPenalty]
  split_ifs with hempty
  · rfl
  · simp only [Word.ofNat?_of_lt hlength, Option.bind_eq_bind, Option.bind_some,
      Word.mul?_ofNat (by decide) hcosts, UInt32.ofNat_mul, UInt32.ofNat_toNat]

namespace Signature

/-- **With every sum checked a match comes out the same**, if the points for everything that can
cost some fit a word. -/
theorem exactMatch?_eq {query candidate : Signature}
    (h : 8 + 4 * query.properties.length + candidate.properties.length
      + 2 * query.keywords.length < 2 ^ 32) :
    query.exactMatch? candidate = some (query.match? candidate) := by
  have hpoints := (serves_pairUp query.properties candidate.properties).points_le
  have hkeywords := keywordPoints_le query.keywords candidate.keywords
  have hdistance : exactDistance? ⟨0, 0⟩ query.properties candidate.properties
      = some (propertyDistance query.properties candidate.properties) := by
    have hsums := exactDistance?_eq 0 0 query.properties candidate.properties (by omega) (by omega)
    simpa [propertyDistance_eq] using hsums
  cases hname : namePenalty? query.name candidate.name with
  | none => simp [exactMatch?, match?, hname]
  | some name =>
      obtain ⟨value, hvalue, rfl⟩ : ∃ value ≤ 8, name = .ofNat value :=
        ⟨_, by split_ifs <;> omega, eq_of_namePenalty? hname⟩
      have hasked : 2 * query.keywords.length < 2 ^ 32 := by omega
      simp only [exactMatch?, match?, hname, hdistance, exactKeywordPenalty?_eq hasked,
        Option.bind_eq_bind, Option.bind_some]
      split_ifs with hfull
      · rfl
      · simp only [propertyDistance_eq, keywordPenalty_eq]
        rw [Word.add?_ofNat (by omega), Option.bind_some, Word.add?_ofNat (by omega),
          Option.bind_some, Word.add?_ofNat (by omega)]
        simp only [UInt32.ofNat_add]
        rfl

/-- A full match has the same name and no structural points, in words. -/
theorem match?_eq_full_iff {query candidate : Signature} :
    query.match? candidate = some .full ↔ query.name = candidate.name ∧
      UInt32.ofNat (pairUp query.properties candidate.properties).structural = 0 := by
  rw [match?_eq]
  constructor
  · intro hfull
    obtain ⟨-, -, heq⟩ := Option.map_eq_some_iff.mp hfull
    split_ifs at heq with hboth
    exact hboth
  · intro hboth
    rw [(namePenalty?_eq_some_zero_iff _ _).mpr hboth.1, Option.map_some, if_pos hboth]

/-- As long as the structural points fit a word, a full match has the same names and types. -/
theorem match?_eq_full_iff_of_fits {query candidate : Signature}
    (h : 4 * query.properties.length + candidate.properties.length < 2 ^ 32) :
    query.match? candidate = some .full ↔ query.name = candidate.name ∧
      (query.properties.map Property.kind).Perm (candidate.properties.map Property.kind) := by
  have hpoints := (serves_pairUp query.properties candidate.properties).points_le
  have hfits : (pairUp query.properties candidate.properties).structural < 2 ^ 32 := by omega
  rw [match?_eq_full_iff, ← flawless_pairUp_iff, ← Pairing.structural_eq_zero_iff,
    ← UInt32.toNat_inj, UInt32.toNat_ofNat_of_lt' hfits, UInt32.toNat_zero]

/-- **A candidate fits fully exactly if it has the name of the query and its properties have the
same names and types, each as often**; order, names for display and keywords do not count. And no
sum of points wraps. -/
theorem full_iff_same_kinds (query candidate : Signature)
    (hwanted : query.properties.length < 2 ^ 28) (hoffered : candidate.properties.length < 2 ^ 28)
    (hkeywords : query.keywords.length < 2 ^ 28) :
    (query.match? candidate = some .full ↔ query.name = candidate.name ∧
      (query.properties.map Property.kind : Multiset (String × PropertyType))
        = candidate.properties.map Property.kind) ∧
    query.exactMatch? candidate = some (query.match? candidate) := by
  refine ⟨?_, exactMatch?_eq (by omega)⟩
  rw [Multiset.coe_eq_coe]
  exact match?_eq_full_iff_of_fits (by omega)

/-- A query that wants one name with two types. -/
def sampleQuery : Signature :=
  ⟨"Custom/Glow", [⟨"_A", "A", .float⟩, ⟨"_A", "A", .int⟩, ⟨"_B", "B", .color⟩], ["K"]⟩

/-- A candidate with the same names and types in another order, displayed in another way. -/
def sampleOffer : Signature :=
  ⟨"Custom/Glow", [⟨"_B", "Base", .color⟩, ⟨"_A", "X", .int⟩, ⟨"_A", "Y", .float⟩], ["L"]⟩

theorem full_of_sample :
    sampleQuery.properties.length < 2 ^ 28 ∧ sampleOffer.properties.length < 2 ^ 28 ∧
      sampleQuery.keywords.length < 2 ^ 28 ∧
      sampleQuery.match? sampleOffer = some .full ∧
      sampleQuery.exactMatch? sampleOffer = some (some .full) := by
  have hwanted : sampleQuery.properties.length < 2 ^ 28 := by decide
  have hoffered : sampleOffer.properties.length < 2 ^ 28 := by decide
  have hkeywords : sampleQuery.keywords.length < 2 ^ 28 := by decide
  obtain ⟨hiff, hexact⟩ := full_iff_same_kinds sampleQuery sampleOffer hwanted hoffered hkeywords
  have hfull := hiff.mpr ⟨rfl, Multiset.coe_eq_coe.mpr (by decide)⟩
  exact ⟨hwanted, hoffered, hkeywords, hfull, hexact.trans (congrArg some hfull)⟩

end Signature

/-! ### Lists without repeated names -/

namespace Pairing.Serves

variable {pairing : Pairing} {wanted offered : List Property}

/-- A wanted property is counted in pairs or as missing. -/
theorem countP_wanted (h : pairing.Serves wanted offered) (p : Property → Bool) :
    wanted.countP p = pairing.pairs.countP (fun pair => p pair.1) + pairing.missing.countP p := by
  rw [h.wanted.countP_eq, List.countP_append, List.countP_map]
  rfl

theorem mem_offered (h : pairing.Serves wanted offered) {pair : Property × Property}
    (hpair : pair ∈ pairing.pairs) : pair.2 ∈ offered :=
  h.offered.mem_iff.mpr (List.mem_append_left _ (List.mem_map_of_mem hpair))

/-- If no name is wanted twice, what is missing is not offered at all. -/
theorem name_ne_of_missing (h : pairing.Serves wanted offered)
    (hwanted : (wanted.map Property.name).Nodup) {lacking : Property}
    (hlacking : lacking ∈ pairing.missing) : ∀ other ∈ offered, other.name ≠ lacking.name := by
  have hmissing : 0 < (pairing.missing.map Property.name).count lacking.name :=
    List.count_pos_iff.mpr (List.mem_map_of_mem hlacking)
  have hone := List.nodup_iff_count_le_one.mp hwanted lacking.name
  have hcount := h.count_missing lacking.name
  have hzero : (offered.map Property.name).count lacking.name = 0 := by omega
  intro other hother hname
  exact List.count_eq_zero.mp hzero (hname ▸ List.mem_map_of_mem hother)

/-- What is missing is what is wanted under a name that is not offered. -/
theorem length_missing_of_nodup (h : pairing.Serves wanted offered)
    (hwanted : (wanted.map Property.name).Nodup) :
    pairing.missing.length
      = wanted.countP fun property => ∀ other ∈ offered, other.name ≠ property.name := by
  rw [h.countP_wanted, List.countP_eq_zero.mpr, List.countP_eq_length.mpr, Nat.zero_add]
  · intro lacking hlacking
    simpa using h.name_ne_of_missing hwanted hlacking
  · intro pair hpair
    simpa using ⟨pair.2, h.mem_offered hpair, h.names pair hpair⟩

/-- What is extra is what is offered under a name that is not wanted. -/
theorem length_extra_of_nodup (h : pairing.Serves wanted offered)
    (hoffered : (offered.map Property.name).Nodup) :
    pairing.extra.length
      = offered.countP fun property => ∀ other ∈ wanted, other.name ≠ property.name :=
  h.swap.length_missing_of_nodup hoffered

/-- If no name is repeated, the partner of a wanted property is the one of its name. -/
theorem countP_pairs_of_nodup (h : pairing.Serves wanted offered)
    (hwanted : (wanted.map Property.name).Nodup) (hoffered : (offered.map Property.name).Nodup)
    (differ : Property → Property → Bool) :
    pairing.pairs.countP (fun pair => differ pair.1 pair.2)
      = wanted.countP fun property =>
          ∃ other ∈ offered, other.name = property.name ∧ differ property other = true := by
  have hmissing : (pairing.missing.countP fun property =>
      ∃ other ∈ offered, other.name = property.name ∧ differ property other = true) = 0 := by
    refine List.countP_eq_zero.mpr fun lacking hlacking => ?_
    rw [decide_eq_true_eq]
    rintro ⟨other, hother, hname, -⟩
    exact h.name_ne_of_missing hwanted hlacking other hother hname
  rw [h.countP_wanted, hmissing, Nat.add_zero]
  refine List.countP_congr fun pair hpair => ?_
  -- a name offered once names one property, so any witness is the partner itself
  have honly : ∀ other ∈ offered, other.name = pair.1.name → other = pair.2 := by
    intro other hother hname
    exact List.inj_on_of_nodup_map hoffered hother (h.mem_offered hpair)
      (hname.trans (h.names pair hpair).symm)
  rw [decide_eq_true_eq]
  constructor
  · intro hdiffer
    exact ⟨pair.2, h.mem_offered hpair, h.names pair hpair, hdiffer⟩
  · rintro ⟨other, hother, hname, hdiffer⟩
    rwa [honly other hother hname] at hdiffer

end Pairing.Serves

namespace Signature

/-- The points of a candidate if neither its properties nor those of the query repeat a name. -/
def plainPoints (query candidate : Signature) : Nat :=
  (if query.name = candidate.name then 0 else 8)
    + 4 * (query.properties.countP fun wanted =>
        ∀ offered ∈ candidate.properties, offered.name ≠ wanted.name)
    + 3 * (query.properties.countP fun wanted =>
        ∃ offered ∈ candidate.properties, offered.name = wanted.name ∧ offered.type ≠ wanted.type)
    + 1 * (candidate.properties.countP fun offered =>
        ∀ wanted ∈ query.properties, wanted.name ≠ offered.name)
    + 1 * (query.properties.countP fun wanted =>
        ∃ offered ∈ candidate.properties, offered.name = wanted.name ∧
          offered.type = wanted.type ∧ offered.displayName ≠ wanted.displayName)
    + if candidate.keywords = [] then 0
      else 2 * query.keywords.countP fun keyword => keyword ∉ candidate.keywords

/-- Without repeated names the points are read off the names. -/
theorem points_eq_plainPoints {query candidate : Signature}
    (hwanted : (query.properties.map Property.name).Nodup)
    (hoffered : (candidate.properties.map Property.name).Nodup) :
    query.points candidate = query.plainPoints candidate := by
  have hserves := serves_pairUp query.properties candidate.properties
  have hmismatched := hserves.countP_pairs_of_nodup hwanted hoffered
    fun wanted offered => offered.type ≠ wanted.type
  have hrenamed := hserves.countP_pairs_of_nodup hwanted hoffered
    fun wanted offered => offered.type = wanted.type ∧ offered.displayName ≠ wanted.displayName
  simp only [decide_eq_true_eq] at hmismatched hrenamed
  rw [points, plainPoints, Pairing.structural, Pairing.cosmetic, Pairing.mismatched,
    Pairing.renamed, ← List.countP_eq_length_filter, ← List.countP_eq_length_filter, hmismatched,
    hrenamed, hserves.length_missing_of_nodup hwanted, hserves.length_extra_of_nodup hoffered,
    keywordPoints]
  ring

/-- An inexact match costs its points, of which it has some. -/
theorem score_of_inexact {query candidate : Signature} {score : UInt32}
    (h : query.match? candidate = some (.inexact score))
    (hfits : query.points candidate < 2 ^ 32) :
    score.toNat = query.points candidate ∧ 1 ≤ query.points candidate := by
  rw [match?_eq] at h
  obtain ⟨-, -, heq⟩ := Option.map_eq_some_iff.mp h
  split_ifs at heq with hfull
  obtain rfl := Match.inexact.inj heq
  refine ⟨UInt32.toNat_ofNat_of_lt' hfits, ?_⟩
  by_contra hnone
  have hpoints : query.points candidate = 0 := by omega
  rw [points] at hpoints
  by_cases hname : query.name = candidate.name
  · have hstructural : (pairUp query.properties candidate.properties).structural = 0 := by omega
    exact hfull ⟨hname, by rw [hstructural]; rfl⟩
  · rw [if_neg hname] at hpoints
    omega

/-- **What a match costs.** The properties cost what the pairing says: a name is missing as often
as it is wanted more often than offered, and extra as often as it is offered more often than
wanted. If no name is repeated on either side, the points of an inexact match are read off the
names. Only a full match has no points. -/
theorem score_of_match {query candidate : Signature} {found : Match}
    (hfound : query.match? candidate = some found)
    (hwanted : query.properties.length < 2 ^ 28) (hoffered : candidate.properties.length < 2 ^ 28)
    (hkeywords : query.keywords.length < 2 ^ 28) :
    let pairing := pairUp query.properties candidate.properties
    let distance := propertyDistance query.properties candidate.properties
    let wanted := query.properties.map Property.name
    let offered := candidate.properties.map Property.name
    (distance.structural.toNat = 4 * pairing.missing.length + 3 * pairing.mismatched.length
        + 1 * pairing.extra.length ∧
      distance.cosmetic.toNat = 1 * pairing.renamed.length) ∧
    pairing.missing.length
      = ∑ name ∈ (wanted ++ offered).toFinset, (wanted.count name - offered.count name) ∧
    pairing.extra.length
      = ∑ name ∈ (wanted ++ offered).toFinset, (offered.count name - wanted.count name) ∧
    (wanted.Nodup → offered.Nodup → ∀ score, found = .inexact score →
      score.toNat = query.plainPoints candidate) ∧
    (∀ score, found = .inexact score → 1 ≤ score.toNat) ∧
    (found.score = 0 ↔ found = .full) := by
  have hserves := serves_pairUp query.properties candidate.properties
  have hle := hserves.points_le
  have hstructural : (pairUp query.properties candidate.properties).structural < 2 ^ 32 := by omega
  have hcosmetic : (pairUp query.properties candidate.properties).cosmetic < 2 ^ 32 := by omega
  have hpoints := query.points_le candidate
  have hfits : query.points candidate < 2 ^ 32 := by omega
  have hinexact : ∀ score, found = .inexact score →
      score.toNat = query.points candidate ∧ 1 ≤ query.points candidate :=
    fun score heq => score_of_inexact (heq ▸ hfound) hfits
  refine ⟨⟨?structural, ?cosmetic⟩, ?missing, ?extra, ?plain, ?positive, ?zero⟩
  case structural =>
    rw [propertyDistance_eq, UInt32.toNat_ofNat_of_lt' hstructural, Pairing.structural, one_mul]
  case cosmetic =>
    rw [propertyDistance_eq, UInt32.toNat_ofNat_of_lt' hcosmetic, Pairing.cosmetic, one_mul]
  case missing =>
    refine hserves.length_missing fun property hproperty => List.mem_toFinset.mpr ?_
    exact List.mem_append_left _ (List.mem_map_of_mem hproperty)
  case extra =>
    refine hserves.length_extra fun property hproperty => List.mem_toFinset.mpr ?_
    exact List.mem_append_right _ (List.mem_map_of_mem hproperty)
  case plain =>
    intro honce honce' score heq
    rw [(hinexact score heq).1, points_eq_plainPoints honce honce']
  case positive =>
    intro score heq
    obtain ⟨hscore, hone⟩ := hinexact score heq
    omega
  case zero =>
    cases found with
    | full => simp [Match.score]
    | inexact score =>
        obtain ⟨hscore, hone⟩ := hinexact score rfl
        refine iff_of_false (fun hzero => ?_) (by simp)
        rw [Match.score] at hzero
        rw [hzero, UInt32.toNat_zero] at hscore
        omega

/-- A query of which something is missing, retyped and renamed in the candidate below. -/
def plainQuery : Signature :=
  ⟨"Custom/Glow", [⟨"_A", "A", .float⟩, ⟨"_B", "B", .color⟩, ⟨"_C", "C", .int⟩], ["K"]⟩

/-- A candidate whose name only ends alike. -/
def plainOffer : Signature :=
  ⟨"Legacy/glow", [⟨"_B", "B", .vector⟩, ⟨"_C", "See", .int⟩, ⟨"_D", "D", .range⟩], ["L"]⟩

/-- The points are `8` for the name, `4` for `_A`, `3` for `_B`, `1` each for `_C` and `_D`, and `2`
for the keyword. -/
theorem score_of_sample :
    plainQuery.match? plainOffer = some (.inexact 19) ∧
      plainQuery.properties.length < 2 ^ 28 ∧ plainOffer.properties.length < 2 ^ 28 ∧
      plainQuery.keywords.length < 2 ^ 28 ∧
      (19 : UInt32).toNat = plainQuery.plainPoints plainOffer ∧
      (pairUp plainQuery.properties plainOffer.properties).missing.length = 1 ∧
      (pairUp plainQuery.properties plainOffer.properties).extra.length = 1 := by
  have hfound : plainQuery.match? plainOffer = some (.inexact 19) := by decide +kernel
  have hwanted : plainQuery.properties.length < 2 ^ 28 := by decide
  have hoffered : plainOffer.properties.length < 2 ^ 28 := by decide
  have hkeywords : plainQuery.keywords.length < 2 ^ 28 := by decide
  obtain ⟨-, hmissing, hextra, hplain, -, -⟩ :=
    score_of_match hfound hwanted hoffered hkeywords
  refine ⟨hfound, hwanted, hoffered, hkeywords, hplain (by decide) (by decide) 19 rfl, ?_, ?_⟩
  · rw [hmissing]
    decide
  · rw [hextra]
    decide

end Signature

end ShaderMend
