import Mathlib
import ShaderMend.Matching

/-!
# Which properties are paired

The properties that a query wants are served one after the other from those of a candidate. Here
it is kept who gets which, and not only what that costs.

* `takePartner_eq` — what a wanted property takes, in terms of the whole list.
* `serves_pairUp` — what is wanted is paired or missing, what is offered is paired or extra, pairs
  have one name, and no name is missing as well as extra.
* `Pairing.Serves.length_missing`, `Pairing.Serves.length_extra` — so the numbers of both are
  determined by how often each name is wanted and offered.
* `ofName_pairUp` — properties of one name are paired as if there were no others.
* `flawless_pairUp_iff` — nothing is missing, extra or of another type exactly if the two lists
  have the same names and types, each as often.
-/

namespace ShaderMend

/-! ### The partner of one property -/

namespace Property

/-- Whether another property has the same name. -/
def isNamesake (wanted other : Property) : Bool :=
  other.name = wanted.name

/-- Whether another property has the same name and type. -/
def isTwin (wanted other : Property) : Bool :=
  other.name = wanted.name ∧ other.type = wanted.type

theorem isNamesake_iff {wanted other : Property} :
    wanted.isNamesake other = true ↔ other.name = wanted.name := by
  simp [isNamesake]

theorem isTwin_iff {wanted other : Property} :
    wanted.isTwin other = true ↔ other.name = wanted.name ∧ other.type = wanted.type := by
  simp [isTwin]

end Property

/-- **A wanted property takes the first of its name and type, else the first of its name.** -/
theorem takePartner_eq (wanted : Property) (left : List Property) :
    takePartner wanted left
      = ((left.find? wanted.isTwin).map (·, left.eraseP wanted.isTwin)).or
          ((left.find? wanted.isNamesake).map (·, left.eraseP wanted.isNamesake)) := by
  have hindex : ∀ p : Property → Bool, (left.find? p).map (·, left.eraseP p)
      = (left.findIdx? p).bind fun index => (left[index]?).map (·, left.eraseIdx index) := by
    intro p
    rw [List.find?_eq_bind_findIdx?_getElem?, List.eraseP_eq_eraseIdx]
    cases left.findIdx? p with
    | none => rfl
    | some index => rfl
  rw [hindex, hindex]
  -- Indices are chosen before anything is taken; an index that is found has a property.
  change ((left.findIdx? wanted.isTwin).or (left.findIdx? wanted.isNamesake)).bind _ = _
  cases htwin : left.findIdx? wanted.isTwin with
  | none => rfl
  | some index =>
      obtain ⟨hlt, -, -⟩ := List.findIdx?_eq_some_iff_getElem.mp htwin
      simp [List.getElem?_eq_getElem hlt]

/-- What is found first stands somewhere in the list, and is what taking it removes. -/
theorem exists_split_of_find? {α : Type} {p : α → Bool} {left : List α} {found : α}
    (h : left.find? p = some found) :
    ∃ before after, left = before ++ found :: after ∧ left.eraseP p = before ++ after := by
  obtain ⟨hp, before, after, rfl, hbefore⟩ := List.find?_eq_some_iff_append.mp h
  refine ⟨before, after, rfl, ?_⟩
  rw [List.eraseP_append_right _ fun other hother => by simpa using hbefore other hother,
    List.eraseP_cons_of_pos hp]

section Partner

variable {wanted partner : Property} {left rest : List Property}

/-- Nothing is taken exactly if no property of the name is left. -/
theorem takePartner_eq_none_iff :
    takePartner wanted left = none ↔ ∀ other ∈ left, other.name ≠ wanted.name := by
  simp only [takePartner_eq, Option.or_eq_none_iff, Option.map_eq_none_iff, List.find?_eq_none,
    Property.isTwin_iff, Property.isNamesake_iff]
  exact ⟨fun h => h.2, fun h => ⟨fun other hother htwin => h other hother htwin.1, h⟩⟩

/-- What is taken is the first twin, or the first namesake if there is no twin. -/
theorem find?_of_takePartner (h : takePartner wanted left = some (partner, rest)) :
    (left.find? wanted.isTwin = some partner ∧ left.eraseP wanted.isTwin = rest) ∨
      (left.find? wanted.isTwin = none ∧ left.find? wanted.isNamesake = some partner ∧
        left.eraseP wanted.isNamesake = rest) := by
  rw [takePartner_eq] at h
  cases htwin : left.find? wanted.isTwin with
  | some twin =>
      rw [htwin] at h
      obtain ⟨rfl, hrest⟩ := Prod.mk.inj (Option.some.inj h)
      exact Or.inl ⟨rfl, hrest⟩
  | none =>
      rw [htwin, Option.map_none, Option.none_or] at h
      obtain ⟨namesake, hfound, heq⟩ := Option.map_eq_some_iff.mp h
      obtain ⟨rfl, hrest⟩ := Prod.mk.inj heq
      exact Or.inr ⟨rfl, hfound, hrest⟩

theorem exists_split_of_takePartner (h : takePartner wanted left = some (partner, rest)) :
    ∃ before after, left = before ++ partner :: after ∧ rest = before ++ after := by
  rcases find?_of_takePartner h with ⟨hfound, rfl⟩ | ⟨-, hfound, rfl⟩
  · exact exists_split_of_find? hfound
  · exact exists_split_of_find? hfound

theorem perm_of_takePartner (h : takePartner wanted left = some (partner, rest)) :
    left.Perm (partner :: rest) := by
  obtain ⟨before, after, rfl, rfl⟩ := exists_split_of_takePartner h
  exact List.perm_middle

theorem name_of_takePartner (h : takePartner wanted left = some (partner, rest)) :
    partner.name = wanted.name := by
  rcases find?_of_takePartner h with ⟨hfound, -⟩ | ⟨-, hfound, -⟩
  · exact (Property.isTwin_iff.mp (List.find?_some hfound)).1
  · exact Property.isNamesake_iff.mp (List.find?_some hfound)

/-- If some property left has the name and the type, the partner has them. -/
theorem type_of_takePartner (h : takePartner wanted left = some (partner, rest))
    {other : Property} (hother : other ∈ left) (hname : other.name = wanted.name)
    (htype : other.type = wanted.type) : partner.type = wanted.type := by
  rcases find?_of_takePartner h with ⟨hfound, -⟩ | ⟨hnone, -, -⟩
  · exact (Property.isTwin_iff.mp (List.find?_some hfound)).2
  · exact absurd (Property.isTwin_iff.mpr ⟨hname, htype⟩) (List.find?_eq_none.mp hnone other hother)

/-- Properties of other names do not count in what is taken. -/
theorem takePartner_filter (wanted : Property) (left : List Property) :
    takePartner wanted (left.filter (·.name = wanted.name))
      = (takePartner wanted left).map fun taken =>
          (taken.1, taken.2.filter (·.name = wanted.name)) := by
  change takePartner wanted (left.filter wanted.isNamesake)
    = (takePartner wanted left).map fun taken => (taken.1, taken.2.filter wanted.isNamesake)
  -- Both searches are for namesakes, so they find the same with the others gone.
  have htwin : (fun other => wanted.isTwin other && wanted.isNamesake other) = wanted.isTwin := by
    funext other
    rw [Bool.and_eq_left_iff_imp, Property.isTwin_iff, Property.isNamesake_iff]
    exact fun h => h.1
  have hfind : ∀ p : Property → Bool, (fun other => p other && wanted.isNamesake other) = p →
      (left.filter wanted.isNamesake).find? p = left.find? p ∧
        (left.filter wanted.isNamesake).eraseP p = (left.eraseP p).filter wanted.isNamesake := by
    intro p hp
    rw [List.find?_filter, List.eraseP_filter, hp]
    refine ⟨?_, rfl⟩
    conv_rhs => rw [← hp]
    congr 1
    funext other
    simp [and_comm]
  have hnamesake : (fun other => wanted.isNamesake other && wanted.isNamesake other)
      = wanted.isNamesake := by
    funext other
    exact Bool.and_self _
  rw [takePartner_eq, takePartner_eq, (hfind _ htwin).1, (hfind _ htwin).2, (hfind _ hnamesake).1,
    (hfind _ hnamesake).2]
  cases left.find? wanted.isTwin with
  | some twin => rfl
  | none =>
      cases left.find? wanted.isNamesake with
      | some namesake => rfl
      | none => rfl

/-- Taking a partner leaves the properties of other names as they are. -/
theorem filter_of_takePartner (h : takePartner wanted left = some (partner, rest)) {name : String}
    (hname : wanted.name ≠ name) :
    rest.filter (·.name = name) = left.filter (·.name = name) := by
  have hother : ¬ partner.name = name := by rwa [name_of_takePartner h]
  obtain ⟨before, after, rfl, rfl⟩ := exists_split_of_takePartner h
  simp [List.filter_append, hother]

end Partner

/-! ### Who gets which -/

/-- Who gets which of the properties on offer. -/
structure Pairing where
  /-- What is wanted, each with its partner. -/
  pairs : List (Property × Property)
  /-- What is wanted and finds no partner. -/
  missing : List Property
  /-- What is offered and nobody takes. -/
  extra : List Property
  deriving DecidableEq, Repr

namespace Pairing

/-- One more pair. -/
def withPair (wanted partner : Property) (rest : Pairing) : Pairing :=
  { rest with pairs := (wanted, partner) :: rest.pairs }

/-- One more property that finds no partner. -/
def withMissing (wanted : Property) (rest : Pairing) : Pairing :=
  { rest with missing := wanted :: rest.missing }

/-- The same pairs seen from the side of what is offered. -/
def swap (pairing : Pairing) : Pairing :=
  ⟨pairing.pairs.map Prod.swap, pairing.extra, pairing.missing⟩

end Pairing

/-- The pairing that arises when the wanted properties take their partners in turn. -/
def pairUp : (wanted left : List Property) → Pairing
  | [], left => ⟨[], [], left⟩
  | property :: wanted, left =>
      match takePartner property left with
      | none => (pairUp wanted left).withMissing property
      | some (partner, left) => (pairUp wanted left).withPair property partner

namespace Pairing

/-- Whether a pairing serves a list of wanted properties from a list of offered ones. -/
structure Serves (pairing : Pairing) (wanted offered : List Property) : Prop where
  wanted : wanted.Perm (pairing.pairs.map Prod.fst ++ pairing.missing)
  offered : offered.Perm (pairing.pairs.map Prod.snd ++ pairing.extra)
  names : ∀ pair ∈ pairing.pairs, pair.2.name = pair.1.name
  apart : ∀ lacking ∈ pairing.missing, ∀ other ∈ pairing.extra, other.name ≠ lacking.name

end Pairing

/-- **The wanted properties are served as far as the names on offer allow.** -/
theorem serves_pairUp (wanted offered : List Property) :
    (pairUp wanted offered).Serves wanted offered := by
  induction wanted, offered using pairUp.induct with
  | case1 left => exact ⟨.refl _, .refl _, by simp [pairUp], by simp [pairUp]⟩
  | case2 property wanted left htaken ih =>
      simp only [pairUp, htaken]
      refine ⟨?_, ih.offered, ih.names, ?_⟩
      · exact (ih.wanted.cons property).trans List.perm_middle.symm
      · intro lacking hlacking other hother
        rcases List.mem_cons.mp hlacking with rfl | hlacking
        -- What is extra at the end was on offer all the time, so also when nothing was found.
        · have hleft : other ∈ left :=
            ih.offered.mem_iff.mpr (List.mem_append_right _ hother)
          exact takePartner_eq_none_iff.mp htaken other hleft
        · exact ih.apart lacking hlacking other hother
  | case3 property wanted left partner rest htaken ih =>
      simp only [pairUp, htaken]
      refine ⟨ih.wanted.cons property, ?_, ?_, ih.apart⟩
      · exact (perm_of_takePartner htaken).trans (ih.offered.cons partner)
      · intro pair hpair
        rcases List.mem_cons.mp hpair with rfl | hpair
        · exact name_of_takePartner htaken
        · exact ih.names pair hpair

namespace Pairing.Serves

variable {pairing : Pairing} {wanted offered : List Property}

/-- Whom a pairing serves does not depend on an order. -/
theorem of_perm {wanted' offered' : List Property} (h : pairing.Serves wanted offered)
    (hwanted : wanted'.Perm wanted) (hoffered : offered'.Perm offered) :
    pairing.Serves wanted' offered' :=
  ⟨hwanted.trans h.wanted, hoffered.trans h.offered, h.names, h.apart⟩

/-! ### How much is missing and extra -/

/-- The pairs hold each name on both sides as often. -/
theorem map_names (h : pairing.Serves wanted offered) :
    (pairing.pairs.map Prod.snd).map Property.name
      = (pairing.pairs.map Prod.fst).map Property.name := by
  rw [List.map_map, List.map_map]
  exact List.map_congr_left h.names

/-- A name is wanted in pairs or missing. -/
theorem count_wanted (h : pairing.Serves wanted offered) (name : String) :
    (wanted.map Property.name).count name
      = ((pairing.pairs.map Prod.fst).map Property.name).count name
        + (pairing.missing.map Property.name).count name := by
  rw [(h.wanted.map Property.name).count_eq name, List.map_append, List.count_append]

/-- What is offered serves what is wanted as well as the other way round. -/
theorem swap (h : pairing.Serves wanted offered) : pairing.swap.Serves offered wanted := by
  refine ⟨?_, ?_, ?_, fun other hother lacking hlacking =>
    (h.apart lacking hlacking other hother).symm⟩
  · simpa [Pairing.swap, Function.comp_def] using h.offered
  · simpa [Pairing.swap, Function.comp_def] using h.wanted
  · intro pair hpair
    obtain ⟨original, horiginal, rfl⟩ := List.mem_map.mp hpair
    exact (h.names original horiginal).symm

/-- A name is offered in pairs or extra. -/
theorem count_offered (h : pairing.Serves wanted offered) (name : String) :
    (offered.map Property.name).count name
      = ((pairing.pairs.map Prod.fst).map Property.name).count name
        + (pairing.extra.map Property.name).count name := by
  rw [(h.offered.map Property.name).count_eq name, List.map_append, List.count_append,
    h.map_names]

/-- No name is missing as well as extra. -/
theorem count_eq_zero (h : pairing.Serves wanted offered) (name : String) :
    (pairing.missing.map Property.name).count name = 0 ∨
      (pairing.extra.map Property.name).count name = 0 := by
  by_contra hboth
  obtain ⟨hmissing, hextra⟩ := not_or.mp hboth
  obtain ⟨lacking, hlacking, rfl⟩ :=
    List.mem_map.mp (List.count_pos_iff.mp (Nat.pos_of_ne_zero hmissing))
  obtain ⟨other, hother, hname⟩ :=
    List.mem_map.mp (List.count_pos_iff.mp (Nat.pos_of_ne_zero hextra))
  exact h.apart lacking hlacking other hother hname

/-- A name is missing as often as it is wanted more often than offered. -/
theorem count_missing (h : pairing.Serves wanted offered) (name : String) :
    (pairing.missing.map Property.name).count name
      = (wanted.map Property.name).count name - (offered.map Property.name).count name := by
  have hwanted := h.count_wanted name
  have hoffered := h.count_offered name
  have hzero := h.count_eq_zero name
  omega

end Pairing.Serves

/-- Each property is counted under its name. -/
theorem length_eq_sum_count (names : Finset String) {properties : List Property}
    (h : ∀ property ∈ properties, property.name ∈ names) :
    properties.length = ∑ name ∈ names, (properties.map Property.name).count name := by
  have hnames : ∀ name ∈ (properties.map Property.name : Multiset String), name ∈ names := by
    intro name hname
    obtain ⟨property, hproperty, rfl⟩ := List.mem_map.mp (Multiset.mem_coe.mp hname)
    exact h property hproperty
  have hcard := Multiset.sum_count_eq_card hnames
  simpa using hcard.symm

namespace Pairing.Serves

variable {pairing : Pairing} {wanted offered : List Property} {names : Finset String}

/-- **How many properties are missing** is determined by how often each name is wanted and
offered. -/
theorem length_missing (h : pairing.Serves wanted offered)
    (hnames : ∀ property ∈ wanted, property.name ∈ names) :
    pairing.missing.length = ∑ name ∈ names,
      ((wanted.map Property.name).count name - (offered.map Property.name).count name) := by
  rw [length_eq_sum_count names fun property hproperty =>
    hnames property (h.wanted.mem_iff.mpr (List.mem_append_right _ hproperty))]
  exact Finset.sum_congr rfl fun name _ => h.count_missing name

/-- **How many properties are extra** is determined by how often each name is wanted and
offered. -/
theorem length_extra (h : pairing.Serves wanted offered)
    (hnames : ∀ property ∈ offered, property.name ∈ names) :
    pairing.extra.length = ∑ name ∈ names,
      ((offered.map Property.name).count name - (wanted.map Property.name).count name) :=
  h.swap.length_missing hnames

end Pairing.Serves

/-! ### Properties of one name -/

/-- What a pairing says about properties of one name. -/
def Pairing.ofName (pairing : Pairing) (name : String) : Pairing where
  pairs := pairing.pairs.filter (·.1.name = name)
  missing := pairing.missing.filter (·.name = name)
  extra := pairing.extra.filter (·.name = name)

/-- **Properties of one name are paired as if there were no others.** -/
theorem ofName_pairUp (name : String) (wanted left : List Property) :
    (pairUp wanted left).ofName name
      = pairUp (wanted.filter (·.name = name)) (left.filter (·.name = name)) := by
  induction wanted, left using pairUp.induct with
  | case1 left => simp [pairUp, Pairing.ofName]
  | case2 property wanted left htaken ih =>
      simp only [pairUp, htaken]
      by_cases hname : property.name = name
      · subst hname
        have hfiltered := takePartner_filter property left
        rw [htaken, Option.map_none] at hfiltered
        rw [List.filter_cons_of_pos (by simp)]
        simp only [pairUp, hfiltered, ← ih]
        simp [Pairing.ofName, Pairing.withMissing]
      · rw [List.filter_cons_of_neg (by simpa using hname), ← ih]
        simp [Pairing.ofName, Pairing.withMissing, hname]
  | case3 property wanted left partner rest htaken ih =>
      simp only [pairUp, htaken]
      by_cases hname : property.name = name
      -- The partner is of the same name: it is taken on both sides, or on neither.
      · subst hname
        have hfiltered := takePartner_filter property left
        rw [htaken, Option.map_some] at hfiltered
        rw [List.filter_cons_of_pos (by simp)]
        simp only [pairUp, hfiltered, ← ih]
        simp [Pairing.ofName, Pairing.withPair]
      · rw [List.filter_cons_of_neg (by simpa using hname), ← filter_of_takePartner htaken hname,
          ← ih]
        simp [Pairing.ofName, Pairing.withPair, hname]

/-! ### Pairings without a flaw -/

namespace Property

/-- What of a property must agree for a full match. -/
def kind (property : Property) : String × PropertyType :=
  (property.name, property.type)

end Property

/-- Whether nothing is missing or extra and all pairs have one type. -/
def Pairing.Flawless (pairing : Pairing) : Prop :=
  pairing.missing = [] ∧ pairing.extra = [] ∧ ∀ pair ∈ pairing.pairs, pair.2.type = pair.1.type

theorem Pairing.Serves.perm_of_flawless {pairing : Pairing} {wanted offered : List Property}
    (h : pairing.Serves wanted offered) (hflawless : pairing.Flawless) :
    (wanted.map Property.kind).Perm (offered.map Property.kind) := by
  obtain ⟨hmissing, hextra, htypes⟩ := hflawless
  have hwanted := h.wanted.map Property.kind
  have hoffered := h.offered.map Property.kind
  have hkinds : (pairing.pairs.map Prod.snd).map Property.kind
      = (pairing.pairs.map Prod.fst).map Property.kind := by
    rw [List.map_map, List.map_map]
    exact List.map_congr_left fun pair hpair =>
      Prod.ext (h.names pair hpair) (htypes pair hpair)
  rw [hmissing, List.append_nil] at hwanted
  rw [hextra, List.append_nil, hkinds] at hoffered
  exact hwanted.trans hoffered.symm

/-- If what is wanted is offered as often, the first wanted property has a twin. -/
theorem exists_twin_of_perm {property : Property} {wanted left : List Property}
    (h : ((property :: wanted).map Property.kind).Perm (left.map Property.kind)) :
    ∃ twin ∈ left, twin.name = property.name ∧ twin.type = property.type := by
  have hkind : property.kind ∈ left.map Property.kind := h.mem_iff.mp (by simp)
  obtain ⟨twin, htwin, heq⟩ := List.mem_map.mp hkind
  exact ⟨twin, htwin, congrArg Prod.fst heq, congrArg Prod.snd heq⟩

/-- If what is wanted is offered as often, each wanted property takes a twin. -/
theorem flawless_of_perm {wanted left : List Property}
    (h : (wanted.map Property.kind).Perm (left.map Property.kind)) :
    (pairUp wanted left).Flawless := by
  induction wanted, left using pairUp.induct with
  | case1 left =>
      have hleft : left = [] := by simpa using h.symm
      exact ⟨rfl, hleft, by simp [pairUp]⟩
  | case2 property wanted left htaken ih =>
      obtain ⟨twin, htwin, hname, -⟩ := exists_twin_of_perm h
      exact absurd hname (takePartner_eq_none_iff.mp htaken twin htwin)
  | case3 property wanted left partner rest htaken ih =>
      obtain ⟨twin, htwin, hname, hsame⟩ := exists_twin_of_perm h
      have htype := type_of_takePartner htaken htwin hname hsame
      have hpartner : partner.kind = property.kind :=
        Prod.ext (name_of_takePartner htaken) htype
      -- The partner may be another twin than the one found; its kind goes from both lists.
      have hrest := h.trans ((perm_of_takePartner htaken).map Property.kind)
      rw [List.map_cons, List.map_cons, hpartner] at hrest
      obtain ⟨hmissing, hextra, htypes⟩ := ih hrest.cons_inv
      simp only [pairUp, htaken]
      refine ⟨hmissing, hextra, fun pair hpair => ?_⟩
      rcases List.mem_cons.mp hpair with rfl | hpair
      · exact htype
      · exact htypes pair hpair

/-- **A pairing has no flaw exactly if the two lists have the same names and types, each as
often**, whatever their order. -/
theorem flawless_pairUp_iff (wanted offered : List Property) :
    (pairUp wanted offered).Flawless
      ↔ (wanted.map Property.kind).Perm (offered.map Property.kind) :=
  ⟨(serves_pairUp wanted offered).perm_of_flawless, flawless_of_perm⟩

end ShaderMend
