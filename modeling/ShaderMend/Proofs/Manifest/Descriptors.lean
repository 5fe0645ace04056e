import Mathlib
import ShaderMend.Manifest.Data

/-!
# What a descriptor says

The readers of properties and descriptors, apart from how they proceed: which values describe
a type, a property or a signature, and which one. Members under other names do not count, and
in an array the members stand in a fixed order.

* `Property.ofJson?_eq_some_iff`, `Signature.ofJson?_eq_some_iff` — a value is read exactly as
  what it describes.
* `Signature.Describes.unique` — a value describes one signature at most.
-/

namespace ShaderMend

theorem mapM_eq_some_iff {α β : Type} {decode : α → Option β} {items : List α}
    {results : List β} :
    items.mapM decode = some results ↔
      List.Forall₂ (fun item result => decode item = some result) items results := by
  induction items generalizing results with
  | nil => simp [eq_comm]
  | cons item items ih =>
      simp only [List.mapM_cons, Option.bind_eq_bind, Option.bind_eq_some_iff, Option.pure_def,
        Option.some.injEq, ih]
      constructor
      · rintro ⟨first, hfirst, rest, hrest, rfl⟩
        exact .cons hfirst hrest
      · intro h
        cases h with
        | cons hfirst hrest => exact ⟨_, hfirst, _, hrest, rfl⟩

/-! ### Members of an object -/

namespace Json

/-- No member has one of the names. -/
def Without (names : List String) (members : List (String × Json)) : Prop :=
  ∀ member ∈ members, member.1 ∉ names

/-- One member has one of the names, and this is its value. -/
def Only (names : List String) (members : List (String × Json)) (value : Json) : Prop :=
  ∃ before name after, members = before ++ (name, value) :: after ∧ name ∈ names ∧
    Without names before ∧ Without names after

/-- What a member describes that may be missing. -/
def Optionally {α : Type} (names : List String) (members : List (String × Json)) (default : α)
    (Describes : Json → α → Prop) (result : α) : Prop :=
  Without names members ∧ result = default ∨ ∃ value, Only names members value ∧
    Describes value result

theorem Only.mem {names : List String} {members : List (String × Json)} {value : Json}
    (h : Only names members value) : ∃ name, (name, value) ∈ members := by
  obtain ⟨before, name, after, rfl, -⟩ := h
  exact ⟨name, List.mem_append_right _ List.mem_cons_self⟩

theorem filter_eq_nil_iff {names : List String} {members : List (String × Json)} :
    members.filter (·.1 ∈ names) = [] ↔ Without names members := by
  simp [List.filter_eq_nil_iff, Without]

theorem filter_eq_singleton_iff {names : List String} {members : List (String × Json)}
    {value : Json} :
    (∃ name, members.filter (·.1 ∈ names) = [(name, value)]) ↔ Only names members value := by
  constructor
  · rintro ⟨name, h⟩
    obtain ⟨before, after, rfl, hbefore, hname, hafter⟩ := List.filter_eq_cons_iff.mp h
    exact ⟨before, name, after, rfl, of_decide_eq_true hname,
      fun member hmem hin => hbefore member hmem (decide_eq_true hin),
      filter_eq_nil_iff.mp hafter⟩
  · rintro ⟨before, name, after, rfl, hname, hbefore, hafter⟩
    refine ⟨name, ?_⟩
    rw [List.filter_append, filter_eq_nil_iff.mpr hbefore,
      List.filter_cons_of_pos (by simpa using hname), filter_eq_nil_iff.mpr hafter]
    rfl

theorem onlyMember?_eq_some_iff {names : List String} {members : List (String × Json)}
    {value : Json} : onlyMember? names members = some value ↔ Only names members value := by
  rw [← filter_eq_singleton_iff]
  unfold onlyMember?
  constructor
  · intro h
    split at h
    · rename_i name only heq
      obtain rfl := Option.some.inj h
      exact ⟨name, heq⟩
    · cases h
  · rintro ⟨name, h⟩
    rw [h]

theorem text?_eq_some_iff {value : Json} {text : String} :
    value.text? = some text ↔ value = .string text := by
  cases value <;> simp [text?]

end Json

/-! ### Properties -/

namespace PropertyType

/-- The value describes the type: it is its number, or its name in any case. -/
inductive Describes : Json → PropertyType → Prop where
  | index {index : Nat} {type : PropertyType} (h : all[index]? = some type) :
      Describes (.number (.integer index)) type
  | name {text : String} {type : PropertyType}
      (h : Text.foldCase type.name.toList = Text.foldCase text.toList) :
      Describes (.string text) type

/-- No two types have the same name up to case. -/
theorem name_injective {first second : PropertyType}
    (h : Text.foldCase first.name.toList = Text.foldCase second.name.toList) :
    first = second := by
  revert h
  cases first <;> cases second <;> decide

theorem ofName?_eq_some_iff {text : String} {type : PropertyType} :
    ofName? text = some type ↔
      Text.foldCase type.name.toList = Text.foldCase text.toList := by
  unfold ofName?
  constructor
  · intro h
    have hsame := List.find?_some h
    exact Text.sameUpToCase_iff.mp hsame
  · intro h
    cases hfound : all.find? fun type => Text.sameUpToCase type.name.toList text.toList with
    | none =>
        have hnone := List.find?_eq_none.mp hfound type type.mem_all
        exact absurd (Text.sameUpToCase_iff.mpr h) hnone
    | some other =>
        have hother := List.find?_some hfound
        rw [name_injective ((Text.sameUpToCase_iff.mp hother).trans h.symm)]

theorem ofJson_eq_some_iff {value : Json} {type : PropertyType} :
    (ofJson value).toOption = some type ↔ Describes value type := by
  constructor
  · intro h
    unfold ofJson at h
    split at h
    · rename_i index
      split at h
      · rename_i hrange
        obtain ⟨index, rfl⟩ := Int.eq_ofNat_of_zero_le hrange.1
        split at h
        · rename_i found hfound
          obtain rfl := Option.some.inj h
          exact .index hfound
        · cases h
      · cases h
    · split at h
      · rename_i found hfound
        obtain rfl := Option.some.inj h
        exact .name (ofName?_eq_some_iff.mp hfound)
      · cases h
    · cases h
  · intro h
    cases h with
    | @index index _ h =>
        have hlength : index < all.length := (List.getElem?_eq_some_iff.mp h).1
        have hrange : (0 : Int) ≤ index ∧ (index : Int) ≤ maxIndex := by
          have hall : all.length = 6 := rfl
          have hmax : maxIndex = 4294967295 := rfl
          omega
        have hfound : ofIndex? (index : Int).toNat = some type := h
        simp only [ofJson, if_pos hrange, hfound]
        rfl
    | name h =>
        simp only [ofJson, ofName?_eq_some_iff.mpr h]
        rfl

end PropertyType

theorem Property.optionalMember?_eq_some_iff {α : Type} {names : List String}
    {members : List (String × Json)} {default result : α} {decode : Json → Option α} :
    optionalMember? names members default decode = some result ↔
      Json.Optionally names members default (fun value result => decode value = some result)
        result := by
  unfold optionalMember? Json.Optionally
  constructor
  · intro h
    split at h
    · rename_i heq
      exact Or.inl ⟨Json.filter_eq_nil_iff.mp heq, (Option.some.inj h).symm⟩
    · rename_i name value heq
      exact Or.inr ⟨value, Json.filter_eq_singleton_iff.mp ⟨name, heq⟩, h⟩
    · cases h
  · rintro (⟨hwithout, rfl⟩ | ⟨value, honly, hdecode⟩)
    · rw [Json.filter_eq_nil_iff.mpr hwithout]
    · obtain ⟨name, heq⟩ := Json.filter_eq_singleton_iff.mpr honly
      rw [heq]
      exact hdecode

namespace Property

/-- The value describes the property. -/
inductive Describes : Json → Property → Prop where
  | object {members : List (String × Json)} {property : Property} {type : Json}
      (hname : Json.Only nameKeys members (.string property.name))
      (hdisplayName : Json.Optionally displayNameKeys members ""
        (fun value text => value = .string text) property.displayName)
      (htype : Json.Only typeKeys members type) (hdescribes : property.type.Describes type) :
      Describes (.object members) property
  | array {property : Property} {type : Json} (htype : property.type.Describes type) :
      Describes (.array [.string property.name, .string property.displayName, type]) property

/-- **A value is read as the property that it describes.** -/
theorem ofJson?_eq_some_iff {value : Json} {property : Property} :
    ofJson? value = some property ↔ property.Describes value := by
  constructor
  · intro h
    unfold ofJson? at h
    split at h
    · rename_i members
      simp only [Option.bind_eq_bind, Option.bind_eq_some_iff, Option.pure_def,
        Option.some.injEq, Json.onlyMember?_eq_some_iff, Json.text?_eq_some_iff,
        optionalMember?_eq_some_iff, PropertyType.ofJson_eq_some_iff] at h
      obtain ⟨_, hname, name, rfl, displayName, hdisplayName, value, htype, type, hdescribes,
        rfl⟩ := h
      exact .object hname hdisplayName htype hdescribes
    · simp only [Option.bind_eq_bind, Option.bind_eq_some_iff, Option.pure_def,
        Option.some.injEq, Json.text?_eq_some_iff, PropertyType.ofJson_eq_some_iff] at h
      obtain ⟨name, rfl, displayName, rfl, type, htype, rfl⟩ := h
      exact @Describes.array ⟨name, displayName, type⟩ _ htype
    · cases h
  · intro h
    cases h with
    | object hname hdisplayName htype hdescribes =>
        simp only [ofJson?, Option.bind_eq_bind, Option.bind_eq_some_iff, Option.pure_def,
          Option.some.injEq, Json.onlyMember?_eq_some_iff, Json.text?_eq_some_iff,
          optionalMember?_eq_some_iff, PropertyType.ofJson_eq_some_iff]
        exact ⟨_, hname, _, rfl, _, hdisplayName, _, htype, _, hdescribes, rfl⟩
    | array htype =>
        simp only [ofJson?, Option.bind_eq_bind, Option.bind_eq_some_iff, Option.pure_def,
          Option.some.injEq, Json.text?_eq_some_iff, PropertyType.ofJson_eq_some_iff]
        exact ⟨_, rfl, _, rfl, _, htype, rfl⟩

end Property

/-! ### Descriptors -/

namespace Signature

/-- The value is a list of the properties. -/
def DescribesProperties (value : Json) (properties : List Property) : Prop :=
  ∃ items, value = .array items ∧
    List.Forall₂ (fun item property => Property.Describes item property) items properties

/-- The value is a list of the keywords. -/
def DescribesKeywords (value : Json) (keywords : List String) : Prop :=
  value = .array (keywords.map Json.string)

/-- The value is a descriptor with this signature. -/
inductive Describes : Json → Signature → Prop where
  | object {members : List (String × Json)} {signature : Signature}
      (hname : Json.Only nameKeys members (.string signature.name))
      (hproperties : Json.Optionally propertiesKeys members [] DescribesProperties
        signature.properties)
      (hkeywords : Json.Optionally keywordsKeys members [] DescribesKeywords
        signature.keywords) :
      Describes (.object members) signature
  | name {name : String} : Describes (.array [.string name]) ⟨name, [], []⟩
  | properties {name : String} {value : Json} {properties : List Property}
      (hproperties : DescribesProperties value properties) :
      Describes (.array [.string name, value]) ⟨name, properties, []⟩
  | keywords {name : String} {first second : Json} {properties : List Property}
      {keywords : List String} (hproperties : DescribesProperties first properties)
      (hkeywords : DescribesKeywords second keywords) :
      Describes (.array [.string name, first, second]) ⟨name, properties, keywords⟩

theorem propertiesOfJson?_eq_some_iff {value : Json} {properties : List Property} :
    propertiesOfJson? value = some properties ↔ DescribesProperties value properties := by
  unfold propertiesOfJson? DescribesProperties
  split
  · simp only [mapM_eq_some_iff, Property.ofJson?_eq_some_iff, Json.array.injEq,
      exists_eq_left']
  · rename_i hother
    constructor
    · intro h
      cases h
    · rintro ⟨items, rfl, -⟩
      exact absurd rfl (hother items)

theorem keywordsOfJson?_eq_some_iff {value : Json} {keywords : List String} :
    keywordsOfJson? value = some keywords ↔ DescribesKeywords value keywords := by
  unfold keywordsOfJson? DescribesKeywords
  split
  · simp only [mapM_eq_some_iff, Json.text?_eq_some_iff, Json.array.injEq]
    rw [← List.forall₂_eq_eq_eq, List.forall₂_map_right_iff]
  · rename_i hother
    constructor
    · intro h
      cases h
    · exact fun h => absurd h (hother _)

/-- **A value is read as the descriptor that it is.** -/
theorem ofJson?_eq_some_iff {value : Json} {signature : Signature} :
    ofJson? value = some signature ↔ Describes value signature := by
  constructor
  · intro h
    unfold ofJson? at h
    split at h
    · simp only [Option.bind_eq_bind, Option.bind_eq_some_iff, Option.pure_def,
        Option.some.injEq, Json.onlyMember?_eq_some_iff, Json.text?_eq_some_iff,
        Property.optionalMember?_eq_some_iff, propertiesOfJson?_eq_some_iff,
        keywordsOfJson?_eq_some_iff] at h
      obtain ⟨_, hname, name, rfl, properties, hproperties, keywords, hkeywords, rfl⟩ := h
      exact .object hname hproperties hkeywords
    · simp only [Option.bind_eq_bind, Option.bind_eq_some_iff, Option.pure_def,
        Option.some.injEq, Json.text?_eq_some_iff] at h
      obtain ⟨name, rfl, rfl⟩ := h
      exact .name
    · simp only [Option.bind_eq_bind, Option.bind_eq_some_iff, Option.pure_def,
        Option.some.injEq, Json.text?_eq_some_iff, propertiesOfJson?_eq_some_iff] at h
      obtain ⟨name, rfl, properties, hproperties, rfl⟩ := h
      exact .properties hproperties
    · simp only [Option.bind_eq_bind, Option.bind_eq_some_iff, Option.pure_def,
        Option.some.injEq, Json.text?_eq_some_iff, propertiesOfJson?_eq_some_iff,
        keywordsOfJson?_eq_some_iff] at h
      obtain ⟨name, rfl, properties, hproperties, keywords, hkeywords, rfl⟩ := h
      exact .keywords hproperties hkeywords
    · cases h
  · intro h
    cases h with
    | object hname hproperties hkeywords =>
        simp only [ofJson?, Option.bind_eq_bind, Option.bind_eq_some_iff, Option.pure_def,
          Option.some.injEq, Json.onlyMember?_eq_some_iff, Json.text?_eq_some_iff,
          Property.optionalMember?_eq_some_iff, propertiesOfJson?_eq_some_iff,
          keywordsOfJson?_eq_some_iff]
        exact ⟨_, hname, _, rfl, _, hproperties, _, hkeywords, rfl⟩
    | name => rfl
    | properties hproperties =>
        simp only [ofJson?, Json.text?, propertiesOfJson?_eq_some_iff.mpr hproperties]
        rfl
    | keywords hproperties hkeywords =>
        simp only [ofJson?, Json.text?, propertiesOfJson?_eq_some_iff.mpr hproperties,
          keywordsOfJson?_eq_some_iff.mpr hkeywords]
        rfl

/-- A value describes one signature at most. -/
theorem Describes.unique {value : Json} {first second : Signature}
    (hfirst : first.Describes value) (hsecond : second.Describes value) : first = second :=
  Option.some.inj
    ((ofJson?_eq_some_iff.mpr hfirst).symm.trans (ofJson?_eq_some_iff.mpr hsecond))

end Signature

end ShaderMend
