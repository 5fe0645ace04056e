import ShaderMend.Proofs.Json.Spelling
import ShaderMend.Proofs.Manifest.Shapes

/-!
# Spellings of a manifest

One table of descriptors has many manifests: flat or wrapped, its members in any order, each
descriptor and property in any of its forms, and every value in any of the ways to write it.

* `Catalogue.ofList_eq_of_perm` — items of distinct keys make one catalogue in any order.
* `Manifest.parse_of_spelling` — every spelling of a table is read as this table.
* `Manifest.spelling_refused` — but for numbers that no double holds and halves of characters.
-/

namespace ShaderMend

namespace Catalogue

variable {α : Type} {key : α → String}

theorem nodup_keys {items : List α} (h : Ascending key items) : (items.map key).Nodup := by
  refine List.pairwise_map.mpr (List.Pairwise.imp ?_ h)
  intro one other hlt hequal
  exact String.lt_irrefl _ (hequal ▸ hlt)

/-- Catalogues with the same items are the same. -/
theorem eq_of_mem_iff {first second : List α} (hfirst : Ascending key first)
    (hsecond : Ascending key second) (h : ∀ item, item ∈ first ↔ item ∈ second) :
    first = second := by
  have hperm := (List.perm_ext_iff_of_nodup (nodup_keys hfirst).of_map
    (nodup_keys hsecond).of_map).mpr h
  refine hperm.eq_of_pairwise ?_ hfirst hsecond
  intro one other _ _ hlt hgt
  exact absurd (String.lt_trans hlt hgt) (String.lt_irrefl _)

/-- Items of distinct keys are all kept. -/
theorem mem_ofList_of_nodup {items : List α} (h : (items.map key).Nodup) {item : α} :
    item ∈ ofList key items ↔ item ∈ items := by
  rw [mem_ofList_iff]
  constructor
  · rintro ⟨earlier, later, rfl, -⟩
    simp
  · intro hmem
    obtain ⟨earlier, later, rfl⟩ := List.append_of_mem hmem
    have hlater := (List.pairwise_append.mp (List.pairwise_map.mp h)).2.1
    refine ⟨earlier, later, rfl, fun other hother => ?_⟩
    exact ((List.pairwise_cons.mp hlater).1 other hother).symm

theorem perm_ofList {items : List α} (h : (items.map key).Nodup) :
    (ofList key items).Perm items :=
  (List.perm_ext_iff_of_nodup (nodup_keys (ascending_ofList key items)).of_map h.of_map).mpr
    fun _ => mem_ofList_of_nodup h

/-- **The order of items does not matter** where their keys are distinct. -/
theorem ofList_eq_of_perm {items catalogue : List α} (h : items.Perm catalogue)
    (hcatalogue : Ascending key catalogue) : ofList key items = catalogue := by
  have hdistinct : (items.map key).Nodup := (h.map key).nodup_iff.mpr (nodup_keys hcatalogue)
  refine eq_of_mem_iff (ascending_ofList key items) hcatalogue fun item => ?_
  rw [mem_ofList_of_nodup hdistinct, h.mem_iff]

end Catalogue

namespace Manifest

/-- The members list the entries, in any order: each has the asset path of one of them for its
name, and a descriptor of it. -/
def Lists (members : List (String × Json)) (entries : List Entry) : Prop :=
  ∃ described, List.Forall₂ DescribesEntry members described ∧ described.Perm entries

/-- The document is a manifest with the entries: their table, or what wraps it. -/
inductive Spells (entries : List Entry) : Json → Prop where
  | flat {members : List (String × Json)} (h : Lists members entries) :
      Spells entries (.object members)
  | wrapped {document : Json} {table : List (String × Json)} (hwraps : Wraps document table)
      (h : Lists table entries) : Spells entries document

theorem Lists.exists_member {members : List (String × Json)} {entries : List Entry}
    (h : Lists members entries) {entry : Entry} (hmem : entry ∈ entries) :
    ∃ member ∈ members, DescribesEntry member entry := by
  obtain ⟨described, hdescribed, hperm⟩ := h
  exact exists_of_forall₂ hdescribed (hperm.mem_iff.mpr hmem)

theorem Lists.exists_entry {members : List (String × Json)} {entries : List Entry}
    (h : Lists members entries) {member : String × Json} (hmem : member ∈ members) :
    ∃ entry ∈ entries, DescribesEntry member entry := by
  obtain ⟨described, hdescribed, hperm⟩ := h
  obtain ⟨entry, hentry, hdescribes⟩ := exists_of_forall₂ hdescribed.flip hmem
  exact ⟨entry, hperm.mem_iff.mp hentry, hdescribes⟩

theorem Lists.tabulates {members : List (String × Json)} {entries : List Entry}
    (h : Lists members entries) (hentries : Entry.Parsed entries) :
    Tabulates members entries := by
  obtain ⟨described, hdescribed, hperm⟩ := h
  have htable := tabulates_ofList hdescribed
  rwa [Catalogue.ofList_eq_of_perm hperm hentries.ascending] at htable

/-- A document is read as the table that it spells. -/
theorem entriesOfJson?_of_spells {document : Json} {entries : List Entry}
    (h : Spells entries document) (hentries : Entry.Parsed entries) :
    entriesOfJson? document = some entries := by
  rw [entriesOfJson?_eq_some_iff]
  cases h with
  | @flat members hlists =>
      exact Or.inr (tableOfJson?_eq_some_iff.mpr ⟨members, rfl, hlists.tabulates hentries⟩)
  | @wrapped _ table hwraps hlists =>
      exact Or.inl (wrappedOfJson?_eq_some_iff.mpr ⟨table, hwraps, hlists.tabulates hentries⟩)

/-- **Every spelling of a manifest is read as its table.** The table may stand by itself, as a
member beside any others, or as the only item of an array; the members of an object may have
any order, any of their names and others beside them; what is empty may be left out, and
properties and descriptors may be arrays; a type may be a number or a name in any case. White
space and strings may be written in any way, and values nest as deep as they may. A number that
is no integer of 64 bits is one that a double holds, and escapes are those of whole characters,
also in what does not count. -/
theorem parse_of_spelling {entries : List Entry} (hentries : Entry.Parsed entries)
    {document : Json} (hdocument : Spells entries document) {text : String}
    (htext : Json.SpellsText text document) : parse text = .ok entries := by
  rw [parse_eq_of_json (Json.parse_of_spelled htext),
    entriesOfJson?_of_spells hdocument hentries]

/-! ### A manifest in an array -/

/-- A table with one shader, which has one property. -/
def spelledEntries : List Entry :=
  [⟨"x", ⟨"S", [⟨"_C", "", .color⟩], []⟩, .empty⟩]

/-- The table in an array, with a number beside the members of the descriptor. -/
def spelledDocument : Json :=
  .array [.object [("x", .object [("Name", .string "S"), ("k", .number (.integer (-1))),
    ("Properties", .array [.array [.string "_C", .string "", .string "cOLOR"]])])]]

/-- The name of the shader stands as a 16-bit unit. -/
def spelledText : String :=
  "[ \x7b\"x\":\x7b\"Name\":\"\\u0053\",\"k\":-1,\"Properties\":[[\"_C\",\"\",\"cOLOR\"]]\x7d\x7d ]"

theorem spells_spelledDocument : Spells spelledEntries spelledDocument := by
  have hcolor : PropertyType.color.Describes (.string "cOLOR") := .name (by decide)
  have hproperties : Signature.DescribesProperties
      (.array [.array [.string "_C", .string "", .string "cOLOR"]]) [⟨"_C", "", .color⟩] :=
    ⟨_, rfl, .cons (@Property.Describes.array ⟨"_C", "", .color⟩ _ hcolor) .nil⟩
  have hdescriptor : Signature.Describes (.object [("Name", .string "S"),
      ("k", .number (.integer (-1))),
      ("Properties", .array [.array [.string "_C", .string "", .string "cOLOR"]])])
      ⟨"S", [⟨"_C", "", .color⟩], []⟩ := by
    refine .object ?_ (Or.inr ⟨_, ?_, hproperties⟩) (Or.inl ⟨?_, rfl⟩)
    · exact Json.onlyMember?_eq_some_iff.mp rfl
    · exact Json.onlyMember?_eq_some_iff.mp rfl
    · exact Json.filter_eq_nil_iff.mp rfl
  exact .wrapped .array ⟨_, .cons ⟨rfl, hdescriptor, rfl⟩ .nil, .refl _⟩

theorem spellsText_spelledText : Json.SpellsText spelledText spelledDocument := by
  have hblank := Json.blank_nil
  have hspace : Json.Blank [' '] := fun c hmem => by
    rw [List.mem_singleton.mp hmem]
    rfl
  have hname : Json.Spells 124 ['"', '\\', 'u', '0', '0', '5', '3', '"'] (.string "S") := by
    have hunit : Json.Hex ['0', '0', '5', '3'] 'S'.toNat :=
      Json.Hex.digits (w := 0) (x := 0) (y := 5) (z := 3) rfl rfl rfl rfl
    have hinner : Json.SpellsChars ['\\', 'u', '0', '0', '5', '3'] "S".toList :=
      .unit hunit .nil
    exact Json.spells_scalar 124 (.string hinner)
  have hnumber : Json.Spells 124 ['-', '1'] (.number (.integer (-1))) := by
    have hone : (Json.Numeral.mk true ['1'] [] none).WellFormed := by
      refine ⟨?_, Or.inl (by decide)⟩
      constructor
      case power => exact fun power hmem => by cases hmem
      all_goals simp
    exact Json.spells_scalar 124 (.number hone)
  have hproperty : Json.Spells 123 "[\"_C\",\"\",\"cOLOR\"]".toList
      (.array [.string "_C", .string "", .string "cOLOR"]) :=
    Json.spells_compound (.array (.cons hblank (Json.spells_plain "_C" rfl)
      (.cons hblank hblank (Json.spells_plain "" rfl)
        (.cons hblank hblank (Json.spells_plain "cOLOR" rfl) (.nil hblank)))))
  have hproperties := Json.spells_compound (.array (.cons hblank hproperty (.nil hblank)))
  have hdescriptor := Json.spells_compound (.object (.cons hblank
    (Json.spellsMember_plain "Name" rfl hname)
    (.cons hblank hblank (Json.spellsMember_plain "k" rfl hnumber)
      (.cons hblank hblank (Json.spellsMember_plain "Properties" rfl hproperties)
        (.nil hblank)))))
  have htable := Json.spells_compound (.object (.cons hblank
    (Json.spellsMember_plain "x" rfl hdescriptor) (.nil hblank)))
  exact ⟨[], _, [], rfl, hblank, hblank,
    Json.spells_compound (.array (.cons hspace htable (.nil hspace)))⟩

theorem parse_of_sample :
    (Entry.Parsed spelledEntries ∧ Spells spelledEntries spelledDocument ∧
      Json.SpellsText spelledText spelledDocument) ∧
    parse spelledText = .ok spelledEntries := by
  have hparsed : Entry.Parsed spelledEntries :=
    ⟨List.pairwise_singleton _ _, fun entry hmem => by rw [List.mem_singleton.mp hmem]⟩
  exact ⟨⟨hparsed, spells_spelledDocument, spellsText_spelledText⟩,
    parse_of_spelling hparsed spells_spelledDocument spellsText_spelledText⟩

/-! ### Texts that are refused -/

/-- The text of a table with one descriptor, in which a value stands beside the name. -/
def textBeside (value : String) : String :=
  "\x7b\"x\":\x7b\"name\":\"S\",\"k\":" ++ value ++ "\x7d\x7d"

def vastDocument : Json :=
  .object [("x", .object [("name", .string "S"), ("k", .number (.decimal ⟨false, 1, 999⟩))])]

theorem spells_vastDocument : Spells [⟨"x", ⟨"S", [], []⟩, .empty⟩] vastDocument := by
  have hdescriptor : Signature.Describes
      (.object [("name", .string "S"), ("k", .number (.decimal ⟨false, 1, 999⟩))])
      ⟨"S", [], []⟩ := by
    refine .object ?_ (Or.inl ⟨?_, rfl⟩) (Or.inl ⟨?_, rfl⟩)
    · exact Json.onlyMember?_eq_some_iff.mp rfl
    · exact Json.filter_eq_nil_iff.mp rfl
    · exact Json.filter_eq_nil_iff.mp rfl
  exact .flat ⟨_, .cons ⟨rfl, hdescriptor, rfl⟩ .nil, .refl _⟩

theorem spellsText_vast :
    Json.SpellsTextWith Json.Numeral.Grammatical (textBeside "1e999") vastDocument := by
  have hblank := Json.blank_nil
  have hvast : (Json.Numeral.mk false ['1'] []
      (some ⟨'e', none, ['9', '9', '9']⟩)).Grammatical := by
    constructor
    case power =>
      intro power hpower
      obtain rfl := Option.some.inj hpower
      exact ⟨Or.inl rfl, fun c hc => (Option.not_mem_none c hc).elim, by simp, by simp⟩
    all_goals simp
  have hnumber := Json.spells_scalar 125 (.number hvast)
  have hdescriptor := Json.spells_compound (.object (.cons hblank
    (Json.spellsMember_plain "name" rfl (Json.spells_plain "S" rfl))
    (.cons hblank hblank (Json.spellsMember_plain "k" rfl hnumber) (.nil hblank))))
  have htable := Json.spells_compound (.object (.cons hblank
    (Json.spellsMember_plain "x" rfl hdescriptor) (.nil hblank)))
  exact ⟨[], _, [], rfl, hblank, hblank, htable⟩

/-- The grammar has more numbers than there are doubles, and strings with halves of characters.
A text that holds one of them is refused, though nothing counts of it. -/
theorem spelling_refused :
    (¬ ∀ {entries : List Entry} {document : Json} {text : String}, Entry.Parsed entries →
      Spells entries document → Json.SpellsTextWith Json.Numeral.Grammatical text document →
        parse text = .ok entries) ∧
    (parse (textBeside "\"\\ud800\"")).toOption.isNone := by
  constructor
  · intro hevery
    have hparsed : Entry.Parsed [⟨"x", ⟨"S", [], []⟩, .empty⟩] :=
      ⟨List.pairwise_singleton _ _, fun entry hmem => by rw [List.mem_singleton.mp hmem]⟩
    have hread := hevery hparsed spells_vastDocument spellsText_vast
    have hrefused : (parse (textBeside "1e999")).toOption.isNone := by decide +kernel
    rw [hread] at hrefused
    cases hrefused
  · decide +kernel

end Manifest

end ShaderMend
