import ShaderMend.Proofs.Bundle.Written
import ShaderMend.Proofs.Repository.Furnished
import ShaderMend.Proofs.Session.Phases

/-!
# A directory of archives that were written

From descriptors to materials: archives are written and kept in one directory, a repository
loads the directory, and a repair searches the repository.

* `Bundle.Stocks.pairwise` — no two archives of a directory have one path.
* `Repository.loadArchives_of_shelf` — each archive is registered with its descriptors, by
  induction on the archives.
* `Bundle.mended_of_shelf` — what the entries and the repairs of the repository come to.
-/

namespace ShaderMend

/-! ### Directories -/

namespace FileTree

theorem find_of_locate {files : FileTree} {path : Path} {place : Place} {node : FileNode}
    (h : files.locate path = .ok (place, node)) : files.find path = .ok place := by
  unfold locate at h
  cases hfind : files.find path with
  | error error =>
      rw [hfind] at h
      cases h
  | ok found =>
      rw [hfind] at h
      simp only [bind, Except.bind, pure, Except.pure, throw, throwThe, MonadExceptOf.throw] at h
      split at h
      · cases h
      · split at h
        · cases h
        · obtain rfl := congrArg Prod.fst (Except.ok.inj h)
          rfl
      · obtain rfl := congrArg Prod.fst (Except.ok.inj h)
        rfl

/-- Paths that are the same lead to one place. -/
theorem place_of_same {files : FileTree} {first second : Path} {one other : Place}
    (hsame : first.same second) (hfirst : files.find first = .ok one)
    (hsecond : files.find second = .ok other) : one = other := by
  have hwalk : ∀ {path : Path} {place : Place}, files.find path = .ok place →
      files.walk [] path.components = .ok place := by
    intro path place h
    unfold find at h
    split_ifs at h
    exact h
  have hcomponents := Path.same_iff.mp hsame
  have hone := hwalk hfirst
  rw [hcomponents, hwalk hsecond] at hone
  exact (Except.ok.inj hone).symm

end FileTree

theorem Path.join_injective (directory : Path) : Function.Injective directory.join := by
  intro first second h
  unfold join at h
  split_ifs at h <;> simpa using h

namespace Bundle

/-- Archives, each with the assets it was written from. -/
abbrev Shelf := List (Path × Assets)

/-- Whether the archives in a directory are those of a shelf: each is a file of the directory,
and was written from its assets. -/
structure Stocks (files : FileTree) (directory : Path) (place : Place) (shelf : Shelf) : Prop where
  located : files.locate directory = .ok (place, .directory)
  listed : archivesIn files directory = .ok (shelf.map Prod.fst)
  written : ∀ archive ∈ shelf, Writable archive.2 ∧ ∃ name, archive.1 = directory.join name ∧
    files.locate archive.1 = .ok (place ++ [name], .file (encode archive.2))

/-- Whether some archive has a descriptor of the signature. -/
def Offers (shelf : Shelf) (signature : Signature) : Prop :=
  ∃ archive ∈ shelf, ∃ asset ∈ archive.2, signature.Describes asset.2

/-- Whether a manifest is that of an archive: it lists exactly its descriptors, and its bundle
has their names. -/
structure Registers (archive : Path × Assets) (manifest : Manifest Engine.MemoryBundle) :
    Prop where
  path : manifest.path = archive.1
  bundle : manifest.bundle = some ⟨archive.1, named archive.2⟩
  lists : Manifest.Lists archive.2 manifest.entries

/-- **No two archives of a directory have one path.** -/
theorem Stocks.pairwise {files : FileTree} {directory : Path} {place : Place} {shelf : Shelf}
    (h : Stocks files directory place shelf) :
    shelf.Pairwise fun first second => ¬ first.1.same second.1 := by
  have hnodup : (shelf.map Prod.fst).Nodup := by
    have hlisted := h.listed
    simp only [archivesIn, h.located] at hlisted
    rw [← Except.ok.inj hlisted]
    have hnames :=
      (Catalogue.nodup_keys (Catalogue.ascending_ofList id (files.filesIn place))).of_map
    exact (hnames.map directory.join_injective).filter _
  refine (List.pairwise_map.mp hnodup).imp_of_mem ?_
  intro first second hfirst hsecond hne hsame
  obtain ⟨-, name, hname, hlocate⟩ := h.written first hfirst
  obtain ⟨-, other, hother, hlocated⟩ := h.written second hsecond
  have hplace := FileTree.place_of_same hsame (FileTree.find_of_locate hlocate)
    (FileTree.find_of_locate hlocated)
  obtain rfl : name = other := by simpa using hplace
  exact hne (hname.trans hother.symm)

namespace Registers

variable {archive : Path × Assets} {manifest : Manifest Engine.MemoryBundle}

theorem empty (h : Registers archive manifest) {entry : Entry} (hmem : entry ∈ manifest.entries) :
    entry.cell = .empty := by
  obtain ⟨asset, -, -, -, hempty⟩ := h.lists.exists_member hmem
  exact hempty

/-- No shader has been loaded. -/
theorem unfilled (h : Registers archive manifest) : manifest.unfilled = manifest := by
  have hentries : manifest.entries.map Entry.unfilled = manifest.entries := by
    conv_rhs => rw [← List.map_id manifest.entries]
    refine List.map_congr_left fun entry hmem => ?_
    obtain ⟨assetPath, signature, cell⟩ := entry
    obtain rfl : cell = .empty := h.empty hmem
    rfl
  exact congrArg (fun entries => { manifest with entries }) hentries

/-- The name of an entry is that in its descriptor. -/
theorem name_eq (h : Registers archive manifest) (hwritable : Writable archive.2) {entry : Entry}
    (hmem : entry ∈ manifest.entries) : ∃ asset ∈ archive.2, asset.1 = entry.assetPath ∧
      nameOf asset.2 = entry.signature.name := by
  obtain ⟨asset, hasset, hpath, hdescribes, -⟩ := h.lists.exists_member hmem
  obtain ⟨-, signature, hdeclares⟩ := hwritable.each asset hasset
  obtain rfl := hdescribes.unique hdeclares.describes
  exact ⟨asset, hasset, hpath.symm, hdeclares.nameOf_eq⟩

/-- The engine has a shader for each entry. -/
theorem supplies (h : Registers archive manifest) (hwritable : Writable archive.2)
    (bundleDelay shaderDelay : Nat) :
    manifest.Supplies (Engine.inMemory bundleDelay shaderDelay) := by
  refine ⟨_, h.bundle, fun entry hmem state => ?_⟩
  obtain ⟨asset, hasset, hpath, hname⟩ := h.name_eq hwritable hmem
  have hfound := hwritable.name?_named hasset
  rw [hpath, hname] at hfound
  refine ⟨{ state with shaders := state.shaders + 1 }, ⟨.created state.shaders,
    entry.signature.name, [], some true, none⟩, ?_, rfl⟩
  show state.loadShader _ _ = _
  simp only [Engine.Tally.loadShader, hfound]

end Registers

end Bundle

/-! ### Loads -/

namespace Repository

variable {repository : Repository Engine.Tally Engine.MemoryBundle} {files : FileTree}

/-- An archive is registered as what it was written from. -/
theorem loadArchive_of_written (bundleDelay shaderDelay : Nat) (hfree : repository.inFlight = [])
    {archive : Path × Bundle.Assets} (hloaded : ¬ repository.isLoaded archive.1)
    (hwritable : Bundle.Writable archive.2) {place : Place}
    (hlocate : files.locate archive.1 = .ok (place, .file (Bundle.encode archive.2)))
    (hzip : Zip.ReadsBack (Bundle.members archive.2)) :
    ∃ state manifest, Bundle.Registers archive manifest ∧
      repository.loadArchive (Engine.inMemory bundleDelay shaderDelay) files archive.1
        = ({ repository with engine := state, manifests := repository.manifests ++ [manifest] },
           .loaded) := by
  obtain ⟨entries, hread, hlists⟩ := Bundle.read_of_written hwritable hlocate hzip
  have hreserved : ¬ repository.isReserved archive.1 := by simp [isReserved, hfree]
  have hdecode := Payload.decode?_encode hwritable.fits
  have hregister : repository.register (Engine.inMemory bundleDelay shaderDelay)
      ⟨archive.1, entries, Payload.encode (Bundle.named archive.2)⟩
        = ({ repository with
              engine := { repository.engine with bundles := repository.engine.bundles + 1 }
              manifests := repository.manifests
                ++ [⟨archive.1, some ⟨archive.1, Bundle.named archive.2⟩, entries⟩] }, true) := by
    simp only [register, Engine.inMemory, Engine.Tally.loadBundle, hdecode]
  refine ⟨{ repository.engine with bundles := repository.engine.bundles + 1 },
    ⟨archive.1, some ⟨archive.1, Bundle.named archive.2⟩, entries⟩, ⟨rfl, rfl, hlists⟩, ?_⟩
  rw [loadArchive_of_read _ hloaded hread hreserved, hregister]
  rfl

/-- **Each archive is registered with its descriptors**, by induction on the archives. -/
theorem loadArchives_of_shelf (bundleDelay shaderDelay : Nat) {shelf : Bundle.Shelf}
    (hfree : repository.inFlight = [])
    (happart : shelf.Pairwise fun first second => ¬ first.1.same second.1)
    (hloaded : ∀ archive ∈ shelf, ¬ repository.isLoaded archive.1)
    (hwritten : ∀ archive ∈ shelf, Bundle.Writable archive.2 ∧ ∃ place,
      files.locate archive.1 = .ok (place, .file (Bundle.encode archive.2)))
    (hzip : ∀ archive ∈ shelf, Zip.ReadsBack (Bundle.members archive.2)) :
    ∃ manifests, List.Forall₂ Bundle.Registers shelf manifests ∧
      (loadArchives (Engine.inMemory bundleDelay shaderDelay) files (shelf.map Prod.fst)
        repository).1.manifests = repository.manifests ++ manifests ∧
      (loadArchives (Engine.inMemory bundleDelay shaderDelay) files (shelf.map Prod.fst)
        repository).2.added = shelf.length := by
  induction shelf generalizing repository with
  | nil => exact ⟨[], .nil, by simp [loadArchives], rfl⟩
  | cons archive rest ih =>
      obtain ⟨hother, happart⟩ := List.pairwise_cons.mp happart
      obtain ⟨hwritable, place, hlocate⟩ := hwritten archive List.mem_cons_self
      obtain ⟨state, manifest, hregisters, hload⟩ := loadArchive_of_written bundleDelay shaderDelay
        hfree (hloaded archive List.mem_cons_self) hwritable hlocate
        (hzip archive List.mem_cons_self)
      have hrest : ∀ next ∈ rest, ¬ isLoaded { repository with
          engine := state, manifests := repository.manifests ++ [manifest] } next.1 := by
        intro next hnext hthere
        simp only [isLoaded, List.any_append, Bool.or_eq_true] at hthere
        rcases hthere with hthere | hthere
        · exact hloaded next (List.mem_cons_of_mem _ hnext) hthere
        · simp only [List.any_cons, List.any_nil, Bool.or_false, hregisters.path] at hthere
          exact hother next hnext hthere
      obtain ⟨manifests, hforall, hmanifests, hadded⟩ := @ih
        { repository with engine := state, manifests := repository.manifests ++ [manifest] } hfree
        happart hrest (fun next hnext => hwritten next (List.mem_cons_of_mem _ hnext))
        (fun next hnext => hzip next (List.mem_cons_of_mem _ hnext))
      refine ⟨manifest :: manifests, .cons hregisters hforall, ?_, ?_⟩
      · simp only [List.map_cons, loadArchives, hload, hmanifests, List.append_assoc,
          List.singleton_append]
      · simp only [List.map_cons, loadArchives, hload, Loads.added, List.countP_cons,
          decide_true, if_true, List.length_cons]
        exact congrArg (· + 1) hadded

/-- Whether the manifests of a repository are those of the archives, in their order. -/
def Keeps (repository : Repository Engine.Tally Engine.MemoryBundle) (shelf : Bundle.Shelf) :
    Prop :=
  List.Forall₂ Bundle.Registers shelf repository.declared

/-- An entry has a descriptor. -/
theorem Keeps.exists_asset {shelf : Bundle.Shelf} (h : repository.Keeps shelf) {id : EntryId}
    {entry : Entry} (hentry : repository.lookup? id = some entry) :
    ∃ archive manifest, shelf[id.manifest]? = some archive ∧
      Bundle.Registers archive manifest ∧ entry.unfilled ∈ manifest.entries := by
  obtain ⟨manifest, hmanifest, -, hmem⟩ := mem_declared_of_lookup? hentry
  have hdeclared : repository.declared[id.manifest]? = some manifest.unfilled := by
    rw [declared, List.getElem?_map, hmanifest, Option.map_some]
  obtain ⟨archive, harchive, hregisters⟩ := Manifest.getElem?_of_forall₂ h hdeclared
  exact ⟨archive, manifest.unfilled, harchive, hregisters, hmem⟩

/-- The entries have the signatures that are offered. -/
theorem Keeps.exists_entry_iff {shelf : Bundle.Shelf} (h : repository.Keeps shelf)
    (hordered : repository.Ordered) {signature : Signature} :
    (∃ other ∈ repository.entries, other.2.signature = signature) ↔
      Bundle.Offers shelf signature := by
  constructor
  · rintro ⟨⟨id, entry⟩, hmem, rfl⟩
    obtain ⟨archive, manifest, harchive, hregisters, hentry⟩ :=
      h.exists_asset ((mem_entries_iff hordered).mp hmem)
    obtain ⟨asset, hasset, -, hdescribes, -⟩ := hregisters.lists.exists_member hentry
    exact ⟨archive, List.mem_of_getElem? harchive, asset, hasset, hdescribes⟩
  · rintro ⟨archive, harchive, asset, hasset, hdescribes⟩
    obtain ⟨_, hdeclared, hregisters⟩ := Manifest.exists_of_forall₂ h.flip harchive
    obtain ⟨manifest, hmanifest, rfl⟩ := List.mem_map.mp hdeclared
    obtain ⟨_, hentry, -, hentryDescribes, -⟩ := hregisters.lists.exists_entry hasset
    obtain ⟨entry, hmem, rfl⟩ := List.mem_map.mp hentry
    obtain ⟨index, hindex⟩ := List.getElem?_of_mem hmanifest
    refine ⟨(⟨index, entry.assetPath⟩, entry), ?_, hentryDescribes.unique hdescribes⟩
    simp only [entries, List.mem_flatMap, List.mem_map]
    exact ⟨(manifest, index), List.mk_mem_zipIdx_iff_getElem?.mpr hindex, entry, hmem, rfl⟩

/-- What holds of all entries holds of all that is offered. -/
theorem Keeps.forall_entry_iff {shelf : Bundle.Shelf} (h : repository.Keeps shelf)
    (hordered : repository.Ordered) (fits : Signature → Prop) :
    (∀ other ∈ repository.entries, fits other.2.signature) ↔
      ∀ signature, Bundle.Offers shelf signature → fits signature := by
  simp only [← h.exists_entry_iff hordered]
  constructor
  · rintro hall _ ⟨other, hother, rfl⟩
    exact hall other hother
  · exact fun hall other hother => hall _ ⟨other, hother, rfl⟩

/-- Where the manifests are those of archives that were written, and nothing has been loaded,
there is a shader for each entry. -/
theorem furnished_of_registers (bundleDelay shaderDelay : Nat) {shelf : Bundle.Shelf}
    (hregisters : List.Forall₂ Bundle.Registers shelf repository.manifests)
    (hwritable : ∀ archive ∈ shelf, Bundle.Writable archive.2) :
    repository.Keeps shelf ∧ repository.Furnished (Engine.inMemory bundleDelay shaderDelay) := by
  have hdeclared : repository.declared = repository.manifests := by
    conv_rhs => rw [← List.map_id repository.manifests]
    refine List.map_congr_left fun manifest hmem => ?_
    obtain ⟨archive, -, harchive⟩ := Manifest.exists_of_forall₂ hregisters hmem
    exact harchive.unfilled
  refine ⟨by rwa [Keeps, hdeclared], ⟨fun manifest hmem => ?_, fun {id entry shader} hentry => ?_⟩⟩
  · rw [hdeclared] at hmem
    obtain ⟨archive, harchive, hmanifest⟩ := Manifest.exists_of_forall₂ hregisters hmem
    exact hmanifest.supplies (hwritable archive harchive) bundleDelay shaderDelay
  · obtain ⟨manifest, hmanifest, hfound⟩ := Option.bind_eq_some_iff.mp hentry
    obtain ⟨archive, -, harchive⟩ :=
      Manifest.exists_of_forall₂ hregisters (List.mem_of_getElem? hmanifest)
    rw [harchive.empty (List.mem_of_find?_eq_some hfound)]
    exact fun hstored => by cases hstored

end Repository

namespace Bundle

variable {files : FileTree} {directory : Path} {place : Place} {shelf : Shelf}

/-- **A new repository loads every archive of a directory.** -/
theorem Stocks.loadLocal (h : Stocks files directory place shelf)
    (hzip : ∀ archive ∈ shelf, Zip.ReadsBack (members archive.2)) (tally : Engine.Tally)
    (bundleDelay shaderDelay : Nat) :
    let engine := Engine.inMemory bundleDelay shaderDelay
    let loaded := (Repository.fresh tally).loadLocal engine files directory
    loaded.2 = shelf.length ∧ loaded.1.Keeps shelf ∧ loaded.1.AtRest engine ∧
      loaded.1.Furnished engine := by
  intro engine loaded
  have hfresh : (Repository.fresh tally : Repository _ Engine.MemoryBundle).AtRest engine :=
    (@Tidy.initial _ _ engine tally (fun _ => .nothing) fun _ => rfl).atRest fun _ => rfl
  have hrest := hfresh.of_acts
    ((Repository.fresh tally).loadArchives_acts engine 0 files (shelf.map Prod.fst) 0)
  have hloadedRest : loaded.1.AtRest engine := hfresh.of_acts
    ((Repository.fresh tally).loadLocal_acts engine 0 files directory 0)
  obtain ⟨manifests, hregisters, hmanifests, hadded⟩ :=
    @Repository.loadArchives_of_shelf (.fresh tally) files bundleDelay shaderDelay shelf rfl
      h.pairwise (fun _ _ hthere => by cases hthere)
      (fun archive hmem => by
        obtain ⟨hwritable, name, -, hlocate⟩ := h.written archive hmem
        exact ⟨hwritable, _, hlocate⟩) hzip
  obtain ⟨hkeeps, hfurnished⟩ := Repository.furnished_of_registers bundleDelay shaderDelay
    (show List.Forall₂ Registers shelf (Repository.loadArchives engine files
      (shelf.map Prod.fst) (.fresh tally)).1.manifests by rwa [hmanifests])
    fun archive hmem => (h.written archive hmem).1
  obtain ⟨hcached, hdeclared⟩ := hfurnished.cacheInvalid hrest
  have hdirectory : files.isDirectory directory = true := by
    simp only [FileTree.isDirectory, h.located]
  have hloaded := (Repository.fresh tally : Repository _ Engine.MemoryBundle).loadLocal_of_listed
    engine hdirectory h.listed
  refine ⟨?_, ?_, hloadedRest, ?_⟩
  · exact (congrArg Prod.snd hloaded).trans hadded
  · have hsame : loaded.1.declared = _ :=
      (congrArg (·.1.declared) hloaded).trans hdeclared
    rw [Repository.Keeps, hsame]
    exact hkeeps
  · rw [show loaded.1 = _ from congrArg Prod.fst hloaded]
    exact hcached.congr rfl

/-- **From descriptors to materials.** A new repository loads every archive of a directory with
exactly its descriptors. However its entries are loaded then, each of them gives a shader of
the name in its descriptor. A repair of an object, with repairs on as they are unless something
else is said, reports the names of the shaders that cannot stay and that no descriptor of any
archive is related to, and no others, each once; and a material whose shader cannot stay, and
fits some descriptor fully, gets the shader that an entry with such a descriptor holds, which
has the same name and can stay. -/
theorem mended_of_shelf (h : Stocks files directory place shelf)
    (hzip : ∀ archive ∈ shelf, Zip.ReadsBack (members archive.2)) (tally : Engine.Tally)
    (bundleDelay shaderDelay : Nat) :
    let engine := Engine.inMemory bundleDelay shaderDelay
    let loaded := (Repository.fresh tally).loadLocal engine files directory
    (loaded.2 = shelf.length ∧ loaded.1.Keeps shelf) ∧
    ∀ repository, loaded.1.Drawn engine repository →
      (repository.Keeps shelf ∧ ∀ id entry, repository.lookup? id = some entry →
        ∃ archive asset shader, shelf[id.manifest]? = some archive ∧ asset ∈ archive.2 ∧
          asset.1 = id.assetPath ∧ entry.signature.Describes asset.2 ∧
          (repository.materialize engine (repository.source id.manifest) id).2 = .ok shader ∧
          shader.name = entry.signature.name) ∧
      ∀ (world : World Engine.Tally Engine.MemoryBundle) (target : Target),
        world.repository = repository → world.config.enableMultiPassRendering = false →
        Repair.ToldApart engine world (target.materials world) →
        ∃ after missing,
          Repair.fix engine .main (target.materials world) world
            = (after, .ok (.ofMissing missing)) ∧
          missing.Nodup ∧
          (∀ name, name ∈ missing ↔
            ∃ shader ∈ Repair.unsupported world (target.materials world), shader.name = name ∧
              ∀ signature, Offers shelf signature → shader.query.match? signature = none) ∧
          ∀ material ∈ target.materials world, ∀ shader,
            world.materials.shader? material = some shader →
            shader.isSupported world.layout = false →
            (∃ signature, Offers shelf signature ∧ shader.query.match? signature = some .full) →
            ∃ new, after.materials.shader? material = some new ∧ new.name = shader.name ∧
              new.isSupported world.layout = true ∧
              Repair.Namesake after.repository shader new := by
  intro engine loaded
  obtain ⟨hadded, hkeeps, hloadedRest, hloadedFurnished⟩ :=
    h.loadLocal hzip tally bundleDelay shaderDelay
  refine ⟨⟨hadded, hkeeps⟩, fun repository hdrawn => ?_⟩
  obtain ⟨hrest, hfurnished, hdeclared⟩ := hdrawn.furnished hloadedRest hloadedFurnished
  have hkept : repository.Keeps shelf := by
    rw [Repository.Keeps, hdeclared]
    exact hkeeps
  refine ⟨⟨hkept, fun id entry hentry => ?_⟩, fun world target hworld hon happart => ?_⟩
  · obtain ⟨archive, manifest, harchive, hregisters, hmem⟩ := hkept.exists_asset hentry
    obtain ⟨asset, hasset, hpath, hdescribes, -⟩ := hregisters.lists.exists_member hmem
    obtain ⟨after, shader, hload, hname, -⟩ := hfurnished.materialize hrest hentry
    refine ⟨archive, asset, shader, harchive, hasset, ?_, hdescribes, ?_, hname⟩
    · have hentryPath := Repository.assetPath_of_lookup? hentry
      exact hpath.symm.trans hentryPath
    · rw [hload]
  · subst hworld
    have hforeign := happart.foreign fun shader hmakes => (Repair.knownSupport_of_makes hmakes).1
    obtain ⟨after, missing, hfix, hnodup, hnames, hfull⟩ :=
      Repair.fix_of_furnished hrest hfurnished hon happart.shown hforeign
    refine ⟨after, missing, hfix, hnodup, fun name => ?_, ?_⟩
    · have hunmatched := fun shader : Shader => hkept.forall_entry_iff hrest.ordered
        fun signature => shader.query.match? signature = none
      simp only [hnames name, hunmatched]
    · rintro material hmem shader hshown hunsupported ⟨signature, hoffered, hmatch⟩
      obtain ⟨other, hother, rfl⟩ := (hkept.exists_entry_iff hrest.ordered).mpr hoffered
      obtain ⟨new, hnew, hmakes, hnamesake⟩ :=
        hfull material hmem shader hshown hunsupported ⟨other, hother, hmatch⟩
      have hsupported : new.isSupported world.layout = true := by
        simp [Shader.isSupported, (Repair.knownSupport_of_makes hmakes).1]
      obtain ⟨id, entry, hentry, hstored, hfits, hname⟩ := hnamesake
      exact ⟨new, hnew, hname, hsupported, id, entry, hentry, hstored, hfits, hname⟩

/-! ### A directory with one archive -/

/-- An archive that offers one shader, `S` at `x`. -/
def sampleShelf : Shelf :=
  [(Session.shelfPath, [("x", .object [("name", .string "S")])])]

theorem describes_sample :
    (⟨"S", [], []⟩ : Signature).Describes (.object [("name", .string "S")]) :=
  Signature.ofJson?_eq_some_iff.mp rfl

theorem stocks_sample : Stocks Session.shelfFiles ⟨"d"⟩ ["d"] sampleShelf where
  located := Session.locate_shelf.1
  listed := Session.archivesIn_shelf
  written archive hmem := by
    obtain rfl := List.mem_singleton.mp hmem
    refine ⟨⟨List.nodup_singleton _, fun asset hasset => ?_⟩, "b.shaderbundle", ?_,
      Session.locate_shelf.2⟩
    · obtain rfl := List.mem_singleton.mp hasset
      have hbare : Signature.Bare [("name", .string "S")] := by
        intro member hmember
        obtain rfl := List.mem_singleton.mp hmember
        exact ⟨by decide, fun items hitems => by cases hitems⟩
      exact ⟨by decide +kernel, _,
        .of_bare describes_sample List.mem_cons_self hbare (by decide +kernel)⟩
    · decide +kernel

theorem readsBack_sample : ∀ archive ∈ sampleShelf, Zip.ReadsBack (members archive.2) := by
  decide +kernel

/-- The repository with the archive. -/
def sampleLoaded : Repository Engine.Tally Engine.MemoryBundle × Nat :=
  (Repository.fresh ⟨0, 0⟩).loadLocal Session.sampleEngine Session.shelfFiles ⟨"d"⟩

/-- An object that draws with one material. -/
def sampleObject : SceneObject :=
  ⟨"o", true, [[some 0]], []⟩

/-- A world with the repository and a material that shows a shader that cannot stay. -/
def stockedWorld : World Engine.Tally Engine.MemoryBundle :=
  { Repair.sampleWorld with repository := sampleLoaded.1 }

theorem materials_sampleObject :
    Target.materials stockedWorld (.scene sampleObject) = [0] :=
  rfl

theorem toldApart_stocked : Repair.ToldApart Session.sampleEngine stockedWorld [0] :=
  Repair.toldApart_of_own (by decide +kernel)

theorem mended_of_sampleShelf :
    (Stocks Session.shelfFiles ⟨"d"⟩ ["d"] sampleShelf ∧
      (∀ archive ∈ sampleShelf, Zip.ReadsBack (members archive.2)) ∧
      sampleLoaded.1.Drawn Session.sampleEngine sampleLoaded.1 ∧
      stockedWorld.config.enableMultiPassRendering = false ∧
      Repair.ToldApart Session.sampleEngine stockedWorld [0]) ∧
    sampleLoaded.2 = 1 ∧
    ∃ after, Repair.fix Session.sampleEngine .main [0] stockedWorld
        = (after, .ok (.ofMissing [])) ∧
      ∃ new, after.materials.shader? 0 = some new ∧ new.name = "S" ∧
        new.isSupported .revision2021_3 = true ∧
        Repair.Namesake after.repository Repair.sampleShader new := by
  obtain ⟨⟨hadded, -⟩, hmended⟩ := mended_of_shelf stocks_sample readsBack_sample ⟨0, 0⟩ 0 0
  obtain ⟨-, hrepairs⟩ := hmended sampleLoaded.1 .refl
  have hoffers : Offers sampleShelf ⟨"S", [], []⟩ :=
    ⟨_, List.mem_cons_self, _, List.mem_cons_self, describes_sample⟩
  have hmatch : Repair.sampleShader.query.match? ⟨"S", [], []⟩ = some .full := by decide +kernel
  have hshown : stockedWorld.materials.shader? 0 = some Repair.sampleShader := rfl
  have hrepair := hrepairs stockedWorld (.scene sampleObject) rfl rfl
  rw [materials_sampleObject] at hrepair
  obtain ⟨after, missing, hfix, -, hnames, hfull⟩ := hrepair toldApart_stocked
  have hmissing : missing = [] := by
    refine List.eq_nil_iff_forall_not_mem.mpr fun name hmem => ?_
    obtain ⟨shader, hshader, -, hunmatched⟩ := (hnames name).mp hmem
    obtain rfl : shader = Repair.sampleShader := List.mem_singleton.mp hshader
    rw [hunmatched _ hoffers] at hmatch
    cases hmatch
  subst hmissing
  exact ⟨⟨stocks_sample, readsBack_sample, .refl, rfl, toldApart_stocked⟩, hadded, after, hfix,
    hfull 0 List.mem_cons_self _ hshown rfl ⟨_, hoffers, hmatch⟩⟩

end Bundle

end ShaderMend
