import ShaderMend.Proofs.Json.Compact
import ShaderMend.Proofs.Manifest.Spellings
import ShaderMend.Proofs.Text.Octets

/-!
# Archives read as they were written

An archive is written from asset paths and descriptors. Its payload has a line for each asset,
its manifest is the compact text of a table, and both are entries of a zip. If the zip gives
back its entries, the archive is read as what it was written from.

* `Payload.decode?_encode` — the lines of a payload are read back.
* `Bundle.read_of_written` — so are the manifest and the payload of an archive.
-/

namespace ShaderMend

/-! ### Lines -/

namespace Text

/-- A line that a line feed ends is the first piece. -/
theorem pieces_append {line : List Char} (h : '\n' ∉ line) (rest : List Char) :
    pieces (line ++ '\n' :: rest) = (line :: (pieces rest).1, (pieces rest).2) := by
  induction line with
  | nil => rfl
  | cons c line ih =>
      have hc : (c == '\n') = false := by
        simp only [beq_eq_false_iff_ne]
        rintro rfl
        exact h List.mem_cons_self
      have hline : '\n' ∉ line := fun hmem => h (List.mem_cons_of_mem _ hmem)
      rw [List.cons_append, pieces, hc, ih hline]

/-- **Lines are read back**, if none of them holds a line feed or ends in a carriage return. -/
theorem lines_flatMap {all : List (List Char)} (hfeed : ∀ line ∈ all, '\n' ∉ line)
    (hreturn : ∀ line ∈ all, line.getLast? ≠ some '\r') :
    lines (all.flatMap fun line => line ++ ['\n']) = all := by
  have hpieces : pieces (all.flatMap fun line => line ++ ['\n']) = (all, []) := by
    clear hreturn
    induction all with
    | nil => rfl
    | cons line all ih =>
        have hrest := ih fun other hmem => hfeed other (List.mem_cons_of_mem _ hmem)
        have htext : ((line :: all).flatMap fun line => line ++ ['\n'])
            = line ++ '\n' :: all.flatMap fun line => line ++ ['\n'] := by simp
        rw [htext, pieces_append (hfeed line List.mem_cons_self), hrest]
  have hkept : all.map withoutReturn = all := by
    conv_rhs => rw [← List.map_id all]
    refine List.map_congr_left fun line hmem => ?_
    exact if_neg (hreturn line hmem)
  simp [lines, hpieces, hkept]

end Text

/-! ### Payloads -/

namespace Payload

/-- Whether a text may stand in a line of a payload. -/
def Fits (text : String) : Prop :=
  ∀ c ∈ text.toList, c ≠ '\t' ∧ c ≠ '\r' ∧ c ≠ '\n'

instance (text : String) : Decidable (Fits text) :=
  List.decidableBAll _ text.toList

/-- **The lines of a payload are read back.** -/
theorem decode?_encode {assets : Assets}
    (h : ∀ asset ∈ assets, Fits asset.1 ∧ Fits asset.2) :
    decode? (encode assets) = some assets := by
  have hmem : ∀ asset ∈ assets, ∀ c ∈ encodeLine asset, c ≠ '\r' ∧ c ≠ '\n' := by
    intro asset hasset c hc
    obtain ⟨hpath, hname⟩ := h asset hasset
    rcases List.mem_append.mp hc with hc | hc
    · exact (hpath c hc).2
    · rcases List.mem_cons.mp hc with rfl | hc
      · decide
      · exact (hname c hc).2
  have hlines : Text.lines (assets.flatMap fun asset => encodeLine asset ++ ['\n'])
      = assets.map encodeLine := by
    have htext : (assets.flatMap fun asset => encodeLine asset ++ ['\n'])
        = (assets.map encodeLine).flatMap fun line => line ++ ['\n'] := by
      rw [List.flatMap_map]
    rw [htext]
    apply Text.lines_flatMap
    · intro line hline hfeed
      obtain ⟨asset, hasset, rfl⟩ := List.mem_map.mp hline
      exact (hmem asset hasset _ hfeed).2 rfl
    · intro line hline hreturn
      obtain ⟨asset, hasset, rfl⟩ := List.mem_map.mp hline
      exact (hmem asset hasset _ (List.mem_of_getLast? hreturn)).1 rfl
  have hsplit : (assets.map encodeLine).filterMap splitLine? = assets := by
    rw [List.filterMap_map]
    conv_rhs => rw [← List.filterMap_some (l := assets)]
    refine List.filterMap_congr fun asset hasset => ?_
    exact splitLine?_encodeLine asset fun htab => ((h asset hasset).1 _ htab).1 rfl
  simp [decode?, encode, Bytes.toText?_ofText, hlines, hsplit]

/-- The first item under a key is found. -/
theorem lookup_append_cons {α : Type} {before after : List (String × α)} {key : String} {value : α}
    (h : ∀ other ∈ before, other.1 ≠ key) :
    (before ++ (key, value) :: after).lookup key = some value := by
  have hnone : before.lookup key = none := by
    refine List.lookup_eq_none_iff.mpr fun other hother => ?_
    simpa using (h other hother).symm
  simp [List.lookup_append, hnone]

/-- Where each asset is listed once, it has the name that is listed for it. -/
theorem name?_of_mem {assets : Assets} (hdistinct : (assets.map Prod.fst).Nodup)
    {assetPath name : String} (hmem : (assetPath, name) ∈ assets) :
    name? assets assetPath = some name := by
  obtain ⟨before, after, rfl⟩ := List.append_of_mem hmem
  rw [List.map_append, List.map_cons] at hdistinct
  have hafter := (List.nodup_cons.mp (List.nodup_append.mp hdistinct).2.1).1
  rw [name?, List.reverse_append, List.reverse_cons, List.append_assoc]
  refine lookup_append_cons fun other hother hsame => hafter ?_
  exact List.mem_map.mpr ⟨other, List.mem_reverse.mp hother, hsame⟩

end Payload

/-! ### Descriptors without other members -/

/-- The member with one of the names is the only one. -/
theorem Json.Only.value_eq {names : List String} {members : List (String × Json)} {value : Json}
    (h : Only names members value) {member : String × Json} (hmem : member ∈ members)
    (hname : member.1 ∈ names) : member.2 = value := by
  obtain ⟨before, name, after, rfl, -, hbefore, hafter⟩ := h
  rcases List.mem_append.mp hmem with hmem | hmem
  · exact absurd hname (hbefore member hmem)
  · rcases List.mem_cons.mp hmem with rfl | hmem
    · rfl
    · exact absurd hname (hafter member hmem)

theorem Json.Optionally.describes {α : Type} {names : List String}
    {members : List (String × Json)} {default result : α} {Describes : Json → α → Prop}
    (h : Optionally names members default Describes result) {member : String × Json}
    (hmem : member ∈ members) (hname : member.1 ∈ names) : Describes member.2 result := by
  rcases h with ⟨hwithout, -⟩ | ⟨value, honly, hdescribes⟩
  · exact absurd hname (hwithout member hmem)
  · rwa [honly.value_eq hmem hname]

/-- The number of a type is small. -/
theorem PropertyType.held_index {index : Nat} {type : PropertyType} (h : all[index]? = some type) :
    (Json.Number.integer index).Held := by
  have hindex : index < all.length := (List.getElem?_eq_some_iff.mp h).1
  have hlength : all.length = 6 := rfl
  refine ⟨by omega, ?_⟩
  simp only [Json.Number.maxSignificand, UInt64.size]
  omega

theorem PropertyType.Describes.held {nesting : Nat} {value : Json} {type : PropertyType}
    (h : type.Describes value) : Json.Held nesting value := by
  cases h with
  | index h => exact .number (held_index h)
  | name => exact .string

/-- Whether no member of a property stands beside those that count. -/
def Property.Bare : Json → Prop
  | .object members => ∀ member ∈ members, member.1 ∈ nameKeys ++ displayNameKeys ++ typeKeys
  | _ => True

theorem Property.Describes.held {value : Json} {property : Property}
    (h : property.Describes value) (hbare : Bare value) : Json.Held 1 value := by
  cases h with
  | object hname hdisplayName htype hdescribes =>
      refine .object fun member hmem => ?_
      have hcounts := hbare member hmem
      simp only [List.append_assoc, List.mem_append] at hcounts
      rcases hcounts with hkey | hkey | hkey
      · rw [hname.value_eq hmem hkey]
        exact .string
      · rw [hdisplayName.describes hmem hkey]
        exact .string
      · rw [htype.value_eq hmem hkey]
        exact hdescribes.held
  | array htype =>
      refine .array fun item hmem => ?_
      simp only [List.mem_cons, List.not_mem_nil, or_false] at hmem
      rcases hmem with rfl | rfl | rfl
      · exact .string
      · exact .string
      · exact htype.held

/-- Whether no member of a descriptor stands beside those that count, nor one of its
properties. -/
def Signature.Bare (members : List (String × Json)) : Prop :=
  ∀ member ∈ members, member.1 ∈ nameKeys ++ propertiesKeys ++ keywordsKeys ∧
    ∀ items, member.2 = .array items → ∀ item ∈ items, Property.Bare item

/-- **A descriptor with nothing beside what counts** nests three deep. -/
theorem Signature.Describes.held {members : List (String × Json)} {signature : Signature}
    (h : signature.Describes (.object members)) (hbare : Bare members) :
    Json.Held 3 (.object members) := by
  cases h with
  | object hname hproperties hkeywords =>
      refine .object fun member hmem => ?_
      obtain ⟨hcounts, hitems⟩ := hbare member hmem
      simp only [List.append_assoc, List.mem_append] at hcounts
      rcases hcounts with hkey | hkey | hkey
      · rw [hname.value_eq hmem hkey]
        exact .string
      · obtain ⟨items, hvalue, hdescribed⟩ := hproperties.describes hmem hkey
        rw [hvalue]
        refine .array fun item hitem => ?_
        obtain ⟨property, -, hproperty⟩ := Manifest.exists_of_forall₂ hdescribed.flip hitem
        exact hproperty.held (hitems items hvalue item hitem)
      · rw [hkeywords.describes hmem hkey]
        refine .array fun item hitem => ?_
        obtain ⟨keyword, -, rfl⟩ := List.mem_map.mp hitem
        exact .string

/-! ### Descriptors read back

What counts in a descriptor are strings and small integers, so that what is read back of it
describes the same. -/

namespace Json

variable {names : List String} {members : List (String × Json)} {value : Json}

theorem Without.reread (h : Without names members) :
    Without names (members.map rereadMember) := by
  intro member hmem
  obtain ⟨written, hwritten, rfl⟩ := List.mem_map.mp hmem
  exact h written hwritten

theorem Only.reread (h : Only names members value) :
    Only names (members.map rereadMember) value.reread := by
  obtain ⟨before, name, after, rfl, hname, hbefore, hafter⟩ := h
  exact ⟨before.map rereadMember, name, after.map rereadMember, by simp [rereadMember], hname,
    hbefore.reread, hafter.reread⟩

theorem Optionally.reread {α : Type} {default result : α} {Describes : Json → α → Prop}
    (h : Optionally names members default Describes result)
    (hkept : ∀ value, Describes value result → Describes value.reread result) :
    Optionally names (members.map rereadMember) default Describes result := by
  rcases h with ⟨hwithout, hdefault⟩ | ⟨value, honly, hdescribes⟩
  · exact Or.inl ⟨hwithout.reread, hdefault⟩
  · exact Or.inr ⟨value.reread, honly.reread, hkept value hdescribes⟩

end Json

theorem PropertyType.Describes.reread {value : Json} {type : PropertyType}
    (h : type.Describes value) : type.Describes value.reread := by
  cases h with
  | index h =>
      rw [Json.reread_integer (held_index h)]
      exact .index h
  | name h => exact .name h

theorem Property.Describes.reread {value : Json} {property : Property}
    (h : property.Describes value) : property.Describes value.reread := by
  cases h with
  | object hname hdisplayName htype hdescribes =>
      rw [Json.reread_object]
      refine .object hname.reread (hdisplayName.reread ?_) htype.reread hdescribes.reread
      rintro _ rfl
      rfl
  | array htype =>
      rw [Json.reread_array]
      exact .array htype.reread

namespace Signature

theorem DescribesProperties.reread {value : Json} {properties : List Property}
    (h : DescribesProperties value properties) : DescribesProperties value.reread properties := by
  obtain ⟨items, rfl, hitems⟩ := h
  refine ⟨items.map Json.reread, Json.reread_array items, ?_⟩
  exact List.forall₂_map_left_iff.mpr (hitems.imp fun _ _ h => h.reread)

theorem DescribesKeywords.reread {value : Json} {keywords : List String}
    (h : DescribesKeywords value keywords) : DescribesKeywords value.reread keywords := by
  rw [h, DescribesKeywords, Json.reread_array, List.map_map]
  rfl

/-- **What is read back of a descriptor describes the same.** -/
theorem Describes.reread {value : Json} {signature : Signature}
    (h : signature.Describes value) : signature.Describes value.reread := by
  cases h with
  | object hname hproperties hkeywords =>
      rw [Json.reread_object]
      exact .object hname.reread (hproperties.reread fun _ h => h.reread)
        (hkeywords.reread fun _ h => h.reread)
  | name =>
      rw [Json.reread_array]
      exact .name
  | properties hproperties =>
      rw [Json.reread_array]
      exact .properties hproperties.reread
  | keywords hproperties hkeywords =>
      rw [Json.reread_array]
      exact .keywords hproperties.reread hkeywords.reread

end Signature

/-! ### Zips -/

/-- Whether a zip gives back its entries: as many, each with its name and its content. -/
def Zip.ReadsBack (members : List Member) : Prop :=
  ∃ archive, Archive.ofBytes (encode members) = .ok archive ∧
    List.Forall₂ (fun opened member => ∃ entry, opened = .ok entry ∧ entry.name = member.name ∧
      entry.content = .ok member.content) (archive.headers.map archive.entry) members

namespace Zip

theorem readsBack_iff {members : List Member} :
    ReadsBack members ↔
      ((Archive.ofBytes (encode members)).toOption.map fun archive =>
          archive.headers.map fun header => (archive.entry header).toOption.map fun entry =>
            (entry.name, entry.content.toOption))
        = some (members.map fun member => some (member.name, some member.content)) := by
  have hentry : ∀ (opened : Except ArchiveError Entry) (member : Member),
      (∃ entry, opened = .ok entry ∧ entry.name = member.name ∧
        entry.content = .ok member.content) ↔
      (opened.toOption.map fun entry => (entry.name, entry.content.toOption))
        = some (member.name, some member.content) := by
    intro opened member
    cases opened with
    | error error => simp [Except.toOption]
    | ok entry => cases hcontent : entry.content <;> simp [Except.toOption, hcontent]
  unfold ReadsBack
  cases Archive.ofBytes (encode members) with
  | error error => simp [Except.toOption]
  | ok archive =>
      simp only [hentry, Except.ok.injEq, exists_eq_left', Except.toOption, Option.map_some,
        Option.some.injEq]
      rw [← List.forall₂_eq_eq_eq, List.forall₂_map_left_iff, List.forall₂_map_left_iff,
        List.forall₂_map_right_iff]

instance (members : List Member) : Decidable (ReadsBack members) :=
  decidable_of_iff _ readsBack_iff.symm

end Zip

namespace Bundle

/-- Whether a descriptor can be written for a signature: it is an object that describes it, with
the name under `name`, it can be written as a value of a table, with numbers that are read back,
and the name fits a payload. -/
structure Declares (descriptor : Json) (signature : Signature) : Prop where
  describes : signature.Describes descriptor
  named : ∃ members, descriptor = .object members ∧
    ("name", Json.string signature.name) ∈ members
  held : Json.Held (Json.maxNesting - 1) descriptor
  fits : Payload.Fits signature.name

/-- Whether an archive can be written from the assets: no two of them have one path, the paths
fit a payload, and so do the descriptors. -/
structure Writable (assets : Assets) : Prop where
  distinct : (assets.map Prod.fst).Nodup
  each : ∀ asset ∈ assets, Payload.Fits asset.1 ∧ ∃ signature, Declares asset.2 signature

/-- The lines of the payload of an archive. -/
def named (assets : Assets) : Payload.Assets :=
  assets.map fun asset => (asset.1, nameOf asset.2)

/-- The two entries of an archive. -/
def members (assets : Assets) : List Zip.Member :=
  [⟨Bytes.ofText manifestName, Bytes.ofText (String.ofList (manifestOf assets).compact)⟩,
   ⟨Bytes.ofText payloadName, Payload.encode (named assets)⟩]

/-- The name that is listed is that of the descriptor. -/
theorem Declares.nameOf_eq {descriptor : Json} {signature : Signature}
    (h : Declares descriptor signature) : nameOf descriptor = signature.name := by
  obtain ⟨members, rfl, hmem⟩ := h.named
  cases h.describes with
  | object hname hproperties hkeywords =>
      obtain ⟨before, name, after, rfl, hkey, hbefore, hafter⟩ := hname
      have hlisted : "name" ∈ Signature.nameKeys := List.mem_cons_self
      have hsame : name = "name" := by
        rcases List.mem_append.mp hmem with hmem | hmem
        · exact absurd hlisted (hbefore _ hmem)
        · rcases List.mem_cons.mp hmem with hsame | hmem
          · exact (Prod.mk.inj hsame).1.symm
          · exact absurd hlisted (hafter _ hmem)
      subst hsame
      have hfirst : ∀ other ∈ before, other.1 ≠ "name" := by
        intro other hother hsame
        exact hbefore other hother (hsame ▸ hlisted)
      simp only [nameOf, Payload.lookup_append_cons hfirst]

/-- A descriptor can be written if nothing stands in it, nor in its properties, beside what
counts. -/
theorem Declares.of_bare {members : List (String × Json)} {signature : Signature}
    (hdescribes : signature.Describes (.object members))
    (hname : ("name", Json.string signature.name) ∈ members) (hbare : Signature.Bare members)
    (hfits : Payload.Fits signature.name) : Declares (.object members) signature where
  describes := hdescribes
  named := ⟨members, rfl, hname⟩
  held := (hdescribes.held hbare).mono (by decide)
  fits := hfits

theorem Writable.fits {assets : Assets} (h : Writable assets) :
    ∀ asset ∈ named assets, Payload.Fits asset.1 ∧ Payload.Fits asset.2 := by
  intro asset hmem
  obtain ⟨written, hwritten, rfl⟩ := List.mem_map.mp hmem
  obtain ⟨hfits, signature, hdeclares⟩ := h.each written hwritten
  refine ⟨hfits, ?_⟩
  rw [hdeclares.nameOf_eq]
  exact hdeclares.fits

/-- An asset has the name in its descriptor. -/
theorem Writable.name?_named {assets : Assets} (h : Writable assets) {asset : String × Json}
    (hmem : asset ∈ assets) : Payload.name? (named assets) asset.1 = some (nameOf asset.2) := by
  refine Payload.name?_of_mem ?_ (List.mem_map_of_mem hmem)
  rw [named, List.map_map]
  exact h.distinct

/-- The manifest of an archive can be written. -/
theorem Writable.held {assets : Assets} (h : Writable assets) :
    Json.Held Json.maxNesting (manifestOf assets) := by
  refine Json.Held.object fun member hmem => ?_
  obtain ⟨-, signature, hdeclares⟩ := h.each member (Catalogue.mem_of_mem_ofList hmem)
  exact hdeclares.held

/-- **The manifest of an archive is read as the table of its assets.** -/
theorem Writable.parse_manifest {assets : Assets} (h : Writable assets) :
    ∃ entries, Manifest.parse (String.ofList (manifestOf assets).compact) = .ok entries ∧
      Manifest.Lists assets entries := by
  obtain ⟨described, hdescribed⟩ := Manifest.exists_described fun member hmem => by
    obtain ⟨-, signature, hdeclares⟩ := h.each member hmem
    exact ⟨signature, hdeclares.describes⟩
  obtain ⟨table, htable, hperm⟩ :=
    List.perm_comp_forall₂ (Catalogue.perm_ofList h.distinct) hdescribed
  have hdistinct : (table.map Entry.assetPath).Nodup := by
    rw [Manifest.paths_of_forall₂ htable]
    exact Catalogue.nodup_keys (Catalogue.ascending_ofList Prod.fst assets)
  have hreread : List.Forall₂ Manifest.DescribesEntry
      ((Catalogue.ofList Prod.fst assets).map Json.rereadMember) table :=
    List.forall₂_map_left_iff.mpr
      (htable.imp fun _ _ ⟨hpath, hsignature, hcell⟩ => ⟨hpath, hsignature.reread, hcell⟩)
  have hentries : Manifest.entriesOfJson? (manifestOf assets).reread
      = some (Catalogue.ofList Entry.assetPath table) :=
    Manifest.entriesOfJson?_eq_some_iff.mpr (Or.inr (Manifest.tableOfJson?_eq_some_iff.mpr
      ⟨_, Json.reread_object _, Manifest.tabulates_ofList hreread⟩))
  have htext := Json.parse_of_spelled (Json.spellsText_compact h.held)
  refine ⟨_, ?_, described, hdescribed, hperm.symm.trans (Catalogue.perm_ofList hdistinct).symm⟩
  rw [Manifest.parse_eq_of_json htext, hentries]

/-- A name without slashes is that of a file, in no folder. -/
theorem fileName_of_name {entry : Zip.Entry} {name : String}
    (hname : entry.name = Bytes.ofText name)
    (hplain : (Bytes.ofText name).all (fun octet => octet ≠ 0x2F && octet ≠ 0x5C) = true) :
    entry.isDirectory = false ∧ entry.fileName = Bytes.ofText name := by
  have hother : ∀ octet ∈ entry.name, octet ≠ 0x2F ∧ octet ≠ 0x5C := by
    intro octet hmem
    simpa using List.all_eq_true.mp hplain octet (hname ▸ hmem)
  constructor
  · unfold Zip.Entry.isDirectory
    cases hlast : entry.name.getLast? with
    | none => rfl
    | some octet =>
        obtain ⟨hslash, hbackslash⟩ := hother octet (List.mem_of_getLast? hlast)
        simp [hslash, hbackslash]
  · rw [Zip.Entry.fileName, List.takeWhile_eq_self_iff.mpr, List.reverse_reverse, hname]
    intro octet hmem
    simpa using (hother octet (List.mem_reverse.mp hmem)).1

theorem select_of_fileName {entry : Zip.Entry} {name : String} {rest : List Opened}
    (hplain : entry.isDirectory = false) (hname : entry.fileName = Bytes.ofText name) :
    select name (.ok entry :: rest) = .ok entry := by
  simp [select, hplain, hname]

theorem select_of_ne {entry : Zip.Entry} {name : String} {rest : List Opened}
    (hname : entry.fileName ≠ Bytes.ofText name) :
    select name (.ok entry :: rest) = select name rest := by
  simp [select, hname]

/-- The two entries that count are read, if they are there. -/
theorem assemble_of_selected {path : Path} {opened : List Opened} {manifest payload : Zip.Entry}
    {text : String} {entries : List Entry} {lines : Bytes}
    (hmanifest : select manifestName opened = .ok manifest)
    (hpayload : select payloadName opened = .ok payload)
    (htext : manifest.content = .ok (Bytes.ofText text))
    (hparse : Manifest.parse text = .ok entries) (hlines : payload.content = .ok lines) :
    assemble path opened = .ok ⟨path, entries, lines⟩ := by
  simp [assemble, hmanifest, hpayload, htext, hparse, hlines, Bytes.toText?_ofText,
    Except.mapError, bind, Except.bind, pure, Except.pure]

/-- **An archive is read as what it was written from.** -/
theorem read_of_written {files : FileTree} {path : Path} {place : Place} {assets : Assets}
    (h : Writable assets) (hlocate : files.locate path = .ok (place, .file (encode assets)))
    (hzip : Zip.ReadsBack (members assets)) :
    ∃ entries, read files path = .ok ⟨path, entries, Payload.encode (named assets)⟩ ∧
      Manifest.Lists assets entries := by
  obtain ⟨archive, harchive, hopened⟩ := hzip
  obtain ⟨entries, hparse, hlists⟩ := h.parse_manifest
  obtain ⟨_, _, hmanifest, hrest, hheaders⟩ := List.forall₂_cons_right_iff.mp hopened
  obtain ⟨_, _, hpayload, hnone, rfl⟩ := List.forall₂_cons_right_iff.mp hrest
  obtain rfl := List.forall₂_nil_right_iff.mp hnone
  obtain ⟨manifest, rfl, hmanifestName, htext⟩ := hmanifest
  obtain ⟨payload, rfl, hpayloadName, hlines⟩ := hpayload
  obtain ⟨hmanifestFile, hmanifestFileName⟩ := fileName_of_name hmanifestName (by decide +kernel)
  obtain ⟨hpayloadFile, hpayloadFileName⟩ := fileName_of_name hpayloadName (by decide +kernel)
  have hother : manifest.fileName ≠ Bytes.ofText payloadName := by
    rw [hmanifestFileName]
    decide +kernel
  have hfirst : select manifestName [.ok manifest, .ok payload] = .ok manifest :=
    select_of_fileName hmanifestFile hmanifestFileName
  have hsecond : select payloadName [.ok manifest, .ok payload] = .ok payload :=
    (select_of_ne hother).trans (select_of_fileName hpayloadFile hpayloadFileName)
  have hassemble := @assemble_of_selected path _ _ _ _ _ _ hfirst hsecond htext hparse hlines
  have hbytes : Zip.Archive.ofBytes (encode assets) = .ok archive := harchive
  refine ⟨entries, ?_, hlists⟩
  have hread : read files path = ((Zip.Archive.ofBytes (encode assets)).mapError .archive
      >>= fun archive => assemble path (archive.headers.map archive.entry)) := by
    simp only [read, hlocate]
  rw [hread, hbytes]
  show assemble path (archive.headers.map archive.entry) = _
  rw [hheaders]
  exact hassemble

end Bundle

end ShaderMend
