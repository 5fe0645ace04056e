import ShaderMend.Proofs.Bundle.Contents
import ShaderMend.Proofs.Manifest.Descriptors

/-!
# The two shapes of a manifest

A document is a table of descriptors or wraps one. No document is both: the wrapped table would
have to be a descriptor, whose name, being a text, is no descriptor.

* `Manifest.tableOfJson?_eq_some_iff`, `Manifest.wrappedOfJson?_eq_some_iff` — what is read in
  each shape.
* `Manifest.wrapped_or_table` — not both read a document.
* `Manifest.shapes_of_parse` — reading a manifest.
-/

namespace ShaderMend

/-! ### The last of several -/

namespace Catalogue

variable {α : Type} {key : α → String}

theorem ofList_concat (items : List α) (last : α) :
    ofList key (items ++ [last]) = insert key last (ofList key items) := by
  simp [ofList]

/-- **Of several items with one key the last is kept.** -/
theorem mem_ofList_iff {items : List α} {item : α} :
    item ∈ ofList key items ↔ ∃ earlier later, items = earlier ++ item :: later ∧
      ∀ other ∈ later, key other ≠ key item := by
  induction items using List.reverseRecOn with
  | nil => simp [ofList]
  | append_singleton items last ih =>
      rw [ofList_concat, mem_insert_iff (ascending_ofList key items), ih]
      constructor
      · rintro (rfl | ⟨⟨earlier, later, rfl, hlater⟩, hlast⟩)
        · exact ⟨items, [], rfl, by simp⟩
        · refine ⟨earlier, later ++ [last], by simp, ?_⟩
          intro other hmem
          rcases List.mem_append.mp hmem with hmem | hmem
          · exact hlater other hmem
          · obtain rfl := List.mem_singleton.mp hmem
            exact hlast.symm
      · rintro ⟨earlier, later, hitems, hlater⟩
        rcases List.eq_nil_or_concat later with rfl | ⟨middle, final, rfl⟩
        · obtain ⟨-, hlast⟩ := List.append_inj' hitems rfl
          exact Or.inl (List.singleton_inj.mp hlast).symm
        · rw [List.concat_eq_append, ← List.cons_append, ← List.append_assoc] at hitems
          obtain ⟨rfl, hlast⟩ := List.append_inj' hitems rfl
          obtain rfl := List.singleton_inj.mp hlast
          refine Or.inr ⟨⟨earlier, middle, rfl, ?_⟩, ?_⟩
          · intro other hmem
            exact hlater other (by simp [hmem])
          · intro hsame
            exact hlater last (by simp) hsame.symm

/-- Items of one key are one item. -/
theorem Ascending.eq_of_key {items : List α} (h : Ascending key items) {first second : α}
    (hfirst : first ∈ items) (hsecond : second ∈ items) (hkey : key first = key second) :
    first = second := by
  have hnodup : (items.map key).Nodup :=
    List.pairwise_map.mpr (h.imp fun hlt => ne_of_lt hlt)
  exact List.inj_on_of_nodup_map hnodup hfirst hsecond hkey

/-- Every key is kept. -/
theorem exists_mem_ofList_iff {items : List α} {wanted : String} :
    (∃ item ∈ ofList key items, key item = wanted) ↔ ∃ item ∈ items, key item = wanted := by
  induction items using List.reverseRecOn with
  | nil => simp [ofList]
  | append_singleton items last ih =>
      simp only [ofList_concat, mem_insert_iff (ascending_ofList key items)]
      constructor
      · rintro ⟨item, rfl | ⟨hmem, -⟩, hkey⟩
        · exact ⟨item, by simp, hkey⟩
        · obtain ⟨other, hother, hsame⟩ := ih.mp ⟨item, hmem, hkey⟩
          exact ⟨other, List.mem_append_left _ hother, hsame⟩
      · rintro ⟨item, hmem, hkey⟩
        by_cases hlast : key last = wanted
        · exact ⟨last, Or.inl rfl, hlast⟩
        · rcases List.mem_append.mp hmem with hmem | hmem
          · obtain ⟨other, hother, hsame⟩ := ih.mpr ⟨item, hmem, hkey⟩
            exact ⟨other, Or.inr ⟨hother, fun hequal => hlast (hequal ▸ hsame)⟩, hsame⟩
          · obtain rfl := List.mem_singleton.mp hmem
            exact absurd hkey hlast

end Catalogue

namespace Manifest

open Json (ReadError)

/-! ### Tables -/

/-- An entry as a member of a table describes it. -/
def DescribesEntry (member : String × Json) (entry : Entry) : Prop :=
  entry.assetPath = member.1 ∧ entry.signature.Describes member.2 ∧ entry.cell = .empty

/-- The entries are those of a table: all values are descriptors, and each asset path has one
entry, with what the last of its descriptors says. -/
structure Tabulates (members : List (String × Json)) (entries : List Entry) : Prop where
  described : ∀ member ∈ members, ∃ signature : Signature, signature.Describes member.2
  ascending : Catalogue.Ascending Entry.assetPath entries
  paths : ∀ assetPath,
    (∃ entry ∈ entries, entry.assetPath = assetPath) ↔ ∃ member ∈ members, member.1 = assetPath
  mem_iff : ∀ entry, entry ∈ entries ↔ ∃ earlier member later,
    members = earlier ++ member :: later ∧ DescribesEntry member entry ∧
      ∀ other ∈ later, other.1 ≠ member.1

/-- The entries of a table are determined by it. -/
theorem Tabulates.unique {members : List (String × Json)} {first second : List Entry}
    (hfirst : Tabulates members first) (hsecond : Tabulates members second) :
    first = second := by
  have hnodup : ∀ {entries : List Entry}, Tabulates members entries → entries.Nodup := by
    intro entries h
    refine List.Pairwise.imp ?_ h.ascending
    intro one other hlt hequal
    exact String.lt_irrefl _ (hequal ▸ hlt)
  have hperm : first.Perm second := by
    rw [List.perm_ext_iff_of_nodup (hnodup hfirst) (hnodup hsecond)]
    intro entry
    rw [hfirst.mem_iff, hsecond.mem_iff]
  refine hperm.eq_of_pairwise ?_ hfirst.ascending hsecond.ascending
  intro one other _ _ hlt hgt
  exact absurd (String.lt_trans hlt hgt) (String.lt_irrefl _)

theorem forall₂_split {α β : Type} {related : α → β → Prop} {items : List α}
    {earlier later : List β} {result : β}
    (h : List.Forall₂ related items (earlier ++ result :: later)) :
    ∃ before item after, items = before ++ item :: after ∧ related item result ∧
      List.Forall₂ related after later := by
  induction earlier generalizing items with
  | nil =>
      obtain ⟨item, after, hitem, hafter, rfl⟩ := List.forall₂_cons_right_iff.mp h
      exact ⟨[], item, after, rfl, hitem, hafter⟩
  | cons first rest ih =>
      obtain ⟨head, tail, -, htail, rfl⟩ := List.forall₂_cons_right_iff.mp h
      obtain ⟨before, item, after, rfl, hitem, hafter⟩ := ih htail
      exact ⟨head :: before, item, after, rfl, hitem, hafter⟩

/-- Every item on the one side has one on the other. -/
theorem exists_of_forall₂ {α β : Type} {related : α → β → Prop} {items : List α}
    {results : List β} (h : List.Forall₂ related items results) {result : β}
    (hmem : result ∈ results) : ∃ item ∈ items, related item result := by
  obtain ⟨earlier, later, rfl⟩ := List.append_of_mem hmem
  obtain ⟨before, item, after, rfl, hitem, -⟩ := forall₂_split h
  exact ⟨item, List.mem_append_right _ List.mem_cons_self, hitem⟩

theorem getElem?_of_forall₂ {α β : Type} {related : α → β → Prop} {items : List α}
    {results : List β} (h : List.Forall₂ related items results) {index : Nat} {result : β}
    (hresult : results[index]? = some result) :
    ∃ item, items[index]? = some item ∧ related item result := by
  induction h generalizing index with
  | nil => cases hresult
  | cons hfirst _ ih =>
      cases index with
      | zero =>
          obtain rfl := Option.some.inj hresult
          exact ⟨_, rfl, hfirst⟩
      | succ index => exact ih hresult

theorem paths_of_forall₂ {members : List (String × Json)} {described : List Entry}
    (h : List.Forall₂ DescribesEntry members described) :
    described.map Entry.assetPath = members.map Prod.fst := by
  induction h with
  | nil => rfl
  | cons hfirst _ ih => rw [List.map_cons, List.map_cons, hfirst.1, ih]

theorem forall_ne_iff {members : List (String × Json)} {described : List Entry}
    (h : List.Forall₂ DescribesEntry members described) {assetPath : String} :
    (∀ entry ∈ described, entry.assetPath ≠ assetPath) ↔
      ∀ member ∈ members, member.1 ≠ assetPath := by
  rw [← List.forall_mem_map (P := (· ≠ assetPath)), paths_of_forall₂ h, List.forall_mem_map]

/-- **The catalogue of what the members describe.** -/
theorem tabulates_ofList {members : List (String × Json)} {described : List Entry}
    (h : List.Forall₂ DescribesEntry members described) :
    Tabulates members (Catalogue.ofList Entry.assetPath described) := by
  constructor
  · intro member hmem
    obtain ⟨before, after, rfl⟩ := List.append_of_mem hmem
    obtain ⟨_, entry, _, _, hentry, -⟩ := forall₂_split h.flip
    exact ⟨entry.signature, hentry.2.1⟩
  · exact Catalogue.ascending_ofList _ _
  · intro assetPath
    rw [Catalogue.exists_mem_ofList_iff]
    simp only [← List.mem_map, paths_of_forall₂ h]
  · intro entry
    rw [Catalogue.mem_ofList_iff]
    constructor
    · rintro ⟨earlier, later, rfl, hlater⟩
      obtain ⟨before, member, after, rfl, hentry, hafter⟩ := forall₂_split h
      rw [hentry.1] at hlater
      exact ⟨before, member, after, rfl, hentry, (forall_ne_iff hafter).mp hlater⟩
    · rintro ⟨before, member, after, rfl, hentry, hlater⟩
      obtain ⟨earlier, other, later, rfl, hother, hafter⟩ := forall₂_split h.flip
      have hsame : other = entry := by
        obtain ⟨assetPath, signature, cell⟩ := entry
        obtain ⟨otherPath, otherSignature, otherCell⟩ := other
        obtain ⟨rfl, hsignature, rfl⟩ := hentry
        obtain ⟨rfl, hotherSignature, rfl⟩ := hother
        obtain rfl : otherSignature = signature := hotherSignature.unique hsignature
        rfl
      subst hsame
      refine ⟨earlier, later, rfl, ?_⟩
      rw [hentry.1]
      exact (forall_ne_iff hafter.flip).mpr hlater

theorem exists_described {members : List (String × Json)}
    (h : ∀ member ∈ members, ∃ signature : Signature, signature.Describes member.2) :
    ∃ described, List.Forall₂ DescribesEntry members described := by
  induction members with
  | nil => exact ⟨[], .nil⟩
  | cons member members ih =>
      obtain ⟨signature, hsignature⟩ := h member List.mem_cons_self
      obtain ⟨described, hdescribed⟩ := ih fun other hmem => h other (List.mem_cons_of_mem _ hmem)
      exact ⟨⟨member.1, signature, .empty⟩ :: described, .cons ⟨rfl, hsignature, rfl⟩ hdescribed⟩

theorem mapM_entry_eq_some_iff {members : List (String × Json)} {described : List Entry} :
    members.mapM (fun (assetPath, value) => do
      return (⟨assetPath, ← Signature.ofJson? value, .empty⟩ : Entry)) = some described ↔
      List.Forall₂ DescribesEntry members described := by
  have hmember : ∀ (member : String × Json) (entry : Entry),
      (Signature.ofJson? member.2 >>= fun signature =>
        pure (⟨member.1, signature, .empty⟩ : Entry)) = some entry ↔
          DescribesEntry member entry := by
    intro member entry
    simp only [Option.bind_eq_bind, Option.bind_eq_some_iff, Option.pure_def,
      Option.some.injEq, Signature.ofJson?_eq_some_iff]
    constructor
    · rintro ⟨signature, hsignature, rfl⟩
      exact ⟨rfl, hsignature, rfl⟩
    · obtain ⟨assetPath, signature, cell⟩ := entry
      rintro ⟨rfl, hsignature, rfl⟩
      exact ⟨signature, hsignature, rfl⟩
  rw [mapM_eq_some_iff]
  exact ⟨List.Forall₂.imp fun member entry => (hmember member entry).mp,
    List.Forall₂.imp fun member entry => (hmember member entry).mpr⟩

/-- **A value is read as the table that it is.** -/
theorem tableOfJson?_eq_some_iff {value : Json} {entries : List Entry} :
    tableOfJson? value = some entries ↔
      ∃ members, value = .object members ∧ Tabulates members entries := by
  unfold tableOfJson?
  split
  · rename_i members
    simp only [Option.bind_eq_bind, Option.bind_eq_some_iff, Option.pure_def,
      Option.some.injEq, Json.object.injEq, exists_eq_left']
    constructor
    · rintro ⟨described, hdescribed, rfl⟩
      exact tabulates_ofList (mapM_entry_eq_some_iff.mp hdescribed)
    · intro h
      obtain ⟨described, hdescribed⟩ := exists_described h.described
      exact ⟨described, mapM_entry_eq_some_iff.mpr hdescribed,
        (tabulates_ofList hdescribed).unique h⟩
  · rename_i hother
    constructor
    · intro h
      cases h
    · rintro ⟨members, rfl, -⟩
      exact absurd rfl (hother members)

/-! ### Wrapped tables -/

/-- The document wraps the table. -/
inductive Wraps : Json → List (String × Json) → Prop where
  | object {members table : List (String × Json)}
      (h : Json.Only wrapperKeys members (.object table)) : Wraps (.object members) table
  | array {table : List (String × Json)} : Wraps (.array [.object table]) table

/-- **A value is read as the table that it wraps.** -/
theorem wrappedOfJson?_eq_some_iff {value : Json} {entries : List Entry} :
    wrappedOfJson? value = some entries ↔
      ∃ table, Wraps value table ∧ Tabulates table entries := by
  constructor
  · intro h
    unfold wrappedOfJson? at h
    split at h
    · simp only [Option.bind_eq_bind, Option.bind_eq_some_iff, Json.onlyMember?_eq_some_iff,
        tableOfJson?_eq_some_iff] at h
      obtain ⟨_, honly, table, rfl, htable⟩ := h
      exact ⟨table, .object honly, htable⟩
    · obtain ⟨table, rfl, htable⟩ := tableOfJson?_eq_some_iff.mp h
      exact ⟨table, .array, htable⟩
    · cases h
  · rintro ⟨table, hwraps, htable⟩
    have hread := tableOfJson?_eq_some_iff.mpr ⟨table, rfl, htable⟩
    cases hwraps with
    | object honly =>
        simp only [wrappedOfJson?, Json.onlyMember?_eq_some_iff.mpr honly]
        exact hread
    | array => exact hread

/-- **No document has both shapes.** The wrapped table is a descriptor for the table around it,
and so has a name; but this is a text, which describes nothing. -/
theorem not_tabulates_of_wraps {members table : List (String × Json)}
    {outer inner : List Entry} (hwraps : Wraps (.object members) table)
    (houter : Tabulates members outer) (hinner : Tabulates table inner) : False := by
  cases hwraps with
  | object honly =>
      obtain ⟨key, hmem⟩ := honly.mem
      obtain ⟨signature, hdescribes⟩ := houter.described _ hmem
      cases hdescribes with
      | object hname _ _ =>
          obtain ⟨name, hnameMem⟩ := hname.mem
          obtain ⟨_, hnothing⟩ := hinner.described _ hnameMem
          cases hnothing

theorem wrapped_or_table (value : Json) :
    wrappedOfJson? value = none ∨ tableOfJson? value = none := by
  cases hwrapped : wrappedOfJson? value with
  | none => exact Or.inl rfl
  | some inner =>
      cases htable : tableOfJson? value with
      | none => exact Or.inr rfl
      | some outer =>
          obtain ⟨members, rfl, houter⟩ := tableOfJson?_eq_some_iff.mp htable
          obtain ⟨table, hwraps, hinner⟩ := wrappedOfJson?_eq_some_iff.mp hwrapped
          exact (not_tabulates_of_wraps hwraps houter hinner).elim

/-! ### Documents -/

theorem entriesOfJson?_eq_some_iff {value : Json} {entries : List Entry} :
    entriesOfJson? value = some entries ↔
      wrappedOfJson? value = some entries ∨ tableOfJson? value = some entries := by
  unfold entriesOfJson?
  rcases wrapped_or_table value with hnone | hnone <;> simp [hnone]

/-- The entries do not depend on which shape is tried first. -/
theorem entriesOfJson?_comm (value : Json) :
    entriesOfJson? value = (tableOfJson? value).or (wrappedOfJson? value) := by
  unfold entriesOfJson?
  rcases wrapped_or_table value with hnone | hnone <;> simp [hnone]

/-- What reading a manifest comes to for a text that is one value. -/
theorem parse_eq_of_json {text : String} {value : Json} (h : Json.parse text = .ok value) :
    parse text = match entriesOfJson? value with
      | some entries => .ok entries
      | none => .error (.mismatch (.noForm "RawManifest")) := by
  obtain ⟨⟨read, rest⟩, hread, h⟩ := bind_eq_ok_iff.mp h
  obtain ⟨_, hfinish, h⟩ := bind_eq_ok_iff.mp h
  cases h
  have hnext : ∀ next : Json × List Char → Except ReadError (List Entry),
      (Json.ofText (.ok (value, rest)) >>= next) = next (value, rest) := fun _ => rfl
  unfold parse
  rw [hread, hnext]
  cases hentries : entriesOfJson? value with
  | none => simp only [hentries]; rfl
  | some entries => simp only [hentries, hfinish]; rfl

/-- Only a text that is one value is read as a manifest. -/
theorem json_of_parse {text : String} {entries : List Entry} (h : parse text = .ok entries) :
    ∃ value, Json.parse text = .ok value ∧ entriesOfJson? value = some entries := by
  obtain ⟨⟨value, rest⟩, hread, h⟩ := bind_eq_ok_iff.mp h
  cases hentries : entriesOfJson? value with
  | none =>
      simp only [hentries] at h
      cases h
  | some described =>
      simp only [hentries] at h
      obtain ⟨_, hfinish, h⟩ := bind_eq_ok_iff.mp h
      cases h
      refine ⟨value, ?_, hentries⟩
      unfold Json.parse
      rw [Bundle.mapError_eq_ok hread]
      show (Json.finish rest >>= fun _ => _) = _
      rw [Bundle.mapError_eq_ok hfinish]
      rfl

/-- **Manifests.** A text that is one value has one shape at most. It is read exactly if it has
one, and whichever shape is tried first. In both the entries are those of the table: every
asset path has one, which is described by the last of its descriptors and holds no shader. -/
theorem shapes_of_parse {text : String} {value : Json} (h : Json.parse text = .ok value) :
    (wrappedOfJson? value = none ∨ tableOfJson? value = none) ∧
      (∀ entries, parse text = .ok entries ↔
        wrappedOfJson? value = some entries ∨ tableOfJson? value = some entries) ∧
      (parse text = match (tableOfJson? value).or (wrappedOfJson? value) with
        | some entries => .ok entries
        | none => .error (.mismatch (.noForm "RawManifest"))) ∧
      (∀ entries, wrappedOfJson? value = some entries ↔
        ∃ table, Wraps value table ∧ Tabulates table entries) ∧
      ∀ entries, tableOfJson? value = some entries ↔
        ∃ members, value = .object members ∧ Tabulates members entries := by
  refine ⟨wrapped_or_table value, ?_, ?_, ?_, ?_⟩
  · intro entries
    rw [← entriesOfJson?_eq_some_iff]
    constructor
    · intro hparse
      obtain ⟨other, hother, hentries⟩ := json_of_parse hparse
      obtain rfl := Except.ok.inj (h.symm.trans hother)
      exact hentries
    · intro hentries
      rw [parse_eq_of_json h, hentries]
  · rw [← entriesOfJson?_comm]
    exact parse_eq_of_json h
  · intro entries
    exact wrappedOfJson?_eq_some_iff
  · intro entries
    exact tableOfJson?_eq_some_iff

/-- A table whose only asset path is the name of the member that wraps a table. -/
def sampleText : String :=
  "\x7b\"shadersByBundlePath\":\x7b\"name\":\"S\"\x7d\x7d"

def sampleValue : Json :=
  .object [("shadersByBundlePath", .object [("name", .string "S")])]

theorem shapes_of_sample :
    Json.parse sampleText = .ok sampleValue ∧ wrappedOfJson? sampleValue = none ∧
      parse sampleText = .ok [⟨"shadersByBundlePath", ⟨"S", [], []⟩, .empty⟩] :=
  ⟨rfl, by decide,
    ((@shapes_of_parse sampleText sampleValue rfl).2.1 _).mpr (Or.inr (by decide))⟩

end Manifest

end ShaderMend
