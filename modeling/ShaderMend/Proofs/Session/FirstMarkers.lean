import ShaderMend.Proofs.Repair.Missing
import ShaderMend.Proofs.Repository.Markers
import ShaderMend.Proofs.Session.OneByOne

/-!
# Which shader is shown in the place of those without replacement

The shader is that of the first marker that can be loaded at the end of a phase of loading, and
it stays.

* `Repository.isMarker_iff` — the marker of a manifest has the least asset path.
* `Repository.Cached.chosen` — the search of one phase takes the first marker that can be
  loaded.
* `Session.invalid_of_oneByOne` — by induction on the requests, all phases together do.
-/

namespace ShaderMend

variable {σ β : Type}

namespace Engine

/-- Whether what the engine can load out of a bundle never changes. -/
def Lasting (engine : Engine σ β) : Prop :=
  ∀ first second bundle assetPath,
    (engine.loadShader first bundle assetPath).2.isSome
      = (engine.loadShader second bundle assetPath).2.isSome

/-- Whether the engine can load an asset out of a bundle. -/
def Has (engine : Engine σ β) (bundle : β) (assetPath : String) : Prop :=
  ∃ state, (engine.loadShader state bundle assetPath).2.isSome

end Engine

/-- The marker of a manifest comes first. -/
theorem Manifest.le_of_invalidMarker? {manifest : Manifest β}
    (hascending : Catalogue.Ascending Entry.assetPath manifest.entries) {first entry : Entry}
    (hfirst : manifest.invalidMarker? = some first) (hmem : entry ∈ manifest.entries)
    (hmarker : entry.isInvalidMarker = true) : first.assetPath ≤ entry.assetPath := by
  obtain ⟨-, passed, rest, hentries, hpassed⟩ := List.find?_eq_some_iff_append.mp hfirst
  have hpairwise : (passed ++ first :: rest).Pairwise fun one other =>
      one.assetPath < other.assetPath := hentries ▸ hascending
  rw [List.pairwise_append, List.pairwise_cons] at hpairwise
  rw [hentries, List.mem_append, List.mem_cons] at hmem
  rcases hmem with hmem | rfl | hmem
  · have hnot : ¬ entry.isInvalidMarker = true := by simpa using hpassed entry hmem
    exact absurd hmarker hnot
  · exact le_rfl
  · exact (hpairwise.2.1.1 entry hmem).le

namespace Repository

variable {engine : Engine σ β} {repository before after : Repository σ β} {id other : EntryId}

/-! ### Markers -/

/-- Whether an entry is the first, by its asset path, of those of its manifest that stand in for
shaders without replacement. -/
def IsFirstMarker (repository : Repository σ β) (id : EntryId) : Prop :=
  (∃ entry, repository.lookup? id = some entry ∧ entry.isInvalidMarker = true) ∧
    ∀ assetPath entry, repository.lookup? ⟨id.manifest, assetPath⟩ = some entry →
      entry.isInvalidMarker = true → id.assetPath ≤ assetPath

/-- **The marker of a manifest is the first by its asset path.** -/
theorem isMarker_iff (h : repository.Ordered) :
    repository.IsMarker id ↔ repository.IsFirstMarker id := by
  constructor
  · intro hmarker
    obtain ⟨manifest, hmanifest, hbound⟩ := Option.bind_eq_some_iff.mp hmarker
    obtain ⟨first, hfirst, hid⟩ := Option.bind_eq_some_iff.mp hbound
    have hpath : first.assetPath = id.assetPath :=
      congrArg EntryId.assetPath (Option.some.inj hid)
    refine ⟨⟨first, (h.lookup?_iff hmanifest).mpr ⟨List.mem_of_find?_eq_some hfirst, hpath⟩,
      List.find?_some hfirst⟩, fun assetPath entry hentry hinvalid => ?_⟩
    obtain ⟨hmem, rfl⟩ := (h.lookup?_iff hmanifest).mp hentry
    exact hpath ▸ Manifest.le_of_invalidMarker? (h manifest (List.mem_of_getElem? hmanifest))
      hfirst hmem hinvalid
  · rintro ⟨⟨entry, hentry, hinvalid⟩, hleast⟩
    obtain ⟨manifest, hmanifest, -⟩ := Option.bind_eq_some_iff.mp hentry
    obtain ⟨hmem, hpath⟩ := (h.lookup?_iff hmanifest).mp hentry
    obtain ⟨first, hfirst⟩ := Option.isSome_iff_exists.mp
      (List.find?_isSome.mpr ⟨entry, hmem, hinvalid⟩)
    have hle := Manifest.le_of_invalidMarker? (h manifest (List.mem_of_getElem? hmanifest))
      hfirst hmem hinvalid
    have hge := hleast first.assetPath first
      ((h.lookup?_iff hmanifest).mpr ⟨List.mem_of_find?_eq_some hfirst, rfl⟩)
      (List.find?_some hfirst)
    have hsame : first.assetPath = id.assetPath := le_antisymm (hpath ▸ hle) hge
    have hfirst' : manifest.invalidMarker? = some first := hfirst
    simp [IsMarker, marker?, hmanifest, hfirst', hsame]

theorem isMarker_congr (h : after.declared = before.declared) :
    after.IsMarker id ↔ before.IsMarker id := by
  rw [IsMarker, IsMarker, marker?_eq, marker?_eq, h]

/-- A bundle stays that of its manifest. -/
theorem bundle_mono (h : before.declared <+: after.declared) {index : Nat} {bundle : β}
    (hbundle : (before.source index).bundle = some bundle) :
    (after.source index).bundle = some bundle := by
  rw [source_eq] at hbundle ⊢
  cases hmanifest : before.declared[index]? with
  | none => simp [hmanifest] at hbundle
  | some manifest =>
      rw [getElem?_mono h hmanifest]
      rwa [hmanifest] at hbundle

/-- Whether an entry has its shader, or can have it from its bundle. -/
def Loadable (engine : Engine σ β) (repository : Repository σ β) (id : EntryId) : Prop :=
  (repository.cell id).stored.isSome ∨
    ∃ bundle, (repository.source id.manifest).bundle = some bundle ∧
      engine.Has bundle id.assetPath

theorem loadable_congr (hdeclared : after.declared = before.declared)
    (hstored : (after.cell id).stored = (before.cell id).stored) :
    after.Loadable engine id ↔ before.Loadable engine id := by
  rw [Loadable, Loadable, hstored, source_of_declared hdeclared]

/-- What was asked for in vain cannot be had later. -/
theorem Fails.not_loadable (hlasting : engine.Lasting) (h : repository.Fails engine id) :
    ¬ repository.Loadable engine id := by
  rintro (hstored | ⟨bundle, hbundle, state, hload⟩)
  · simp [h.1] at hstored
  · obtain ⟨tried, htried⟩ := h.2 bundle hbundle
    rw [hlasting state tried, htried] at hload
    cases hload

/-! ### One phase -/

/-- Whether the shader of an entry was chosen to be shown in the place of those without
replacement, and loaded unless it was there. -/
structure Chosen (engine : Engine σ β) (before after : Repository σ β) (id : EntryId)
    (shader : Shader) : Prop where
  marker : after.IsFirstMarker id
  stored : (after.cell id).stored = some shader
  first : ∀ other, after.IsFirstMarker other → other.manifest < id.manifest →
    ¬ after.Loadable engine other
  others : ∀ other, other ≠ id → (after.cell other).stored = (before.cell other).stored

/-- In a row of all numbers below a bound, all that are less than one come before it. -/
theorem mem_of_range {count index : Nat} {passed rest : List Nat}
    (h : List.range count = passed ++ index :: rest) {lower : Nat} (hlt : lower < index) :
    lower ∈ passed := by
  have hpairwise := List.pairwise_lt_range (n := count)
  rw [h, List.pairwise_append, List.pairwise_cons] at hpairwise
  have hindex : index ∈ List.range count := by simp [h]
  have hmem : lower ∈ List.range count :=
    List.mem_range.mpr (hlt.trans (List.mem_range.mp hindex))
  rw [h, List.mem_append, List.mem_cons] at hmem
  rcases hmem with hmem | rfl | hmem
  · exact hmem
  · exact absurd hlt (lt_irrefl _)
  · exact absurd hlt (hpairwise.2.1.1 lower hmem).asymm

/-- A marker is among the numbers of all manifests. -/
theorem IsMarker.mem_indices (h : repository.IsMarker id) :
    id.manifest ∈ repository.indices := by
  obtain ⟨manifest, hmanifest, -⟩ := Option.bind_eq_some_iff.mp h
  exact List.mem_range.mpr (List.getElem?_eq_some_iff.mp hmanifest).1

/-- A marker that was taken, the earlier ones having failed. -/
theorem chosen_of_passed (hlasting : engine.Lasting) (hordered : after.Ordered)
    {passed rest : List Nat}
    (hindices : repository.indices = passed ++ id.manifest :: rest)
    (hfails : ∀ index ∈ passed, ∀ id, repository.marker? index = some id →
      repository.Fails engine id)
    (hdeclared : after.declared = repository.declared) (hmarker : repository.IsMarker id)
    {shader : Shader} (hstored : (after.cell id).stored = some shader)
    (hothers : ∀ other, other ≠ id → after.cell other = repository.cell other) :
    Chosen engine repository after id shader where
  marker := (isMarker_iff hordered).mp ((isMarker_congr hdeclared).mpr hmarker)
  stored := hstored
  first other hother hlt hloadable := by
    have hne : other ≠ id := by
      rintro rfl
      exact lt_irrefl _ hlt
    have hmarker : repository.IsMarker other :=
      (isMarker_congr hdeclared).mp ((isMarker_iff hordered).mpr hother)
    exact (hfails _ (mem_of_range hindices hlt) other hmarker).not_loadable hlasting
      ((loadable_congr hdeclared (congrArg Cell.stored (hothers other hne))).mp hloadable)
  others other hne := congrArg Cell.stored (hothers other hne)

/-- **A phase takes the first marker that can be loaded**, and loads no other entry. -/
theorem Cached.chosen (hlasting : engine.Lasting) (hrest : repository.AtRest engine)
    (hinvalid : repository.invalid = none) (hordered : after.Ordered)
    (h : Cached engine repository repository.indices after) :
    after.invalid = none ∧ (∀ id, after.IsFirstMarker id → ¬ after.Loadable engine id) ∨
      ∃ id shader, after.invalid = some shader ∧ Chosen engine repository after id shader := by
  have hdeclared := (h.kept hinvalid).declared
  generalize hindices : repository.indices = indices at h
  cases h with
  | failed _ hfails =>
      refine Or.inl ⟨hinvalid, fun id hfirst => ?_⟩
      have hmarker : repository.IsMarker id := (isMarker_iff hordered).mpr hfirst
      exact (hfails _ (hindices ▸ hmarker.mem_indices) id hmarker).not_loadable hlasting
  | @stored passed rest id shader state _ hfails hmarker hstored =>
      refine Or.inr ⟨id, shader, ?_, chosen_of_passed hlasting hordered hindices hfails hdeclared
        hmarker hstored fun _ _ => rfl⟩
      simp [keepInvalid, hinvalid]
  | @loaded passed rest id bundle shader _ state _ hfails hmarker hempty _ _ =>
      have hcell : cell { repository with engine := state } id = ⟨none, none, []⟩ := by
        rw [← hempty]
        exact hrest.cell_eq id
      have hfilled := cell_modifyCell_of_engine hmarker.isSome_lookup? state
        fun cell => (cell.store shader).1
      rw [show repository.cell id = ⟨none, none, []⟩ from hcell] at hfilled
      refine Or.inr ⟨id, shader, ?_, chosen_of_passed hlasting hordered hindices hfails hdeclared
        hmarker (congrArg Cell.stored hfilled) fun other hne => ?_⟩
      · simp [keepInvalid, modifyCell, hinvalid]
      · have hother := cell_modifyCell_of_ne { repository with engine := state } hne
          fun cell => (cell.store shader).1
        exact hother

/-! ### Archives before it -/

/-- Archives that are loaded come behind the earlier ones and leave all cells as they are. -/
theorem loadArchives_frame (engine : Engine σ β) (files : FileTree) (archives : List Path)
    (repository : Repository σ β) :
    (loadArchives engine files archives repository).1.invalid = repository.invalid ∧
      ∀ id, (loadArchives engine files archives repository).1.cell id = repository.cell id := by
  induction archives generalizing repository with
  | nil => exact ⟨rfl, fun _ => rfl⟩
  | cons path rest ih =>
      have hfirst : (repository.loadArchive engine files path).1.invalid = repository.invalid ∧
          ∀ id, (repository.loadArchive engine files path).1.cell id = repository.cell id := by
        unfold loadArchive
        split
        · exact ⟨rfl, fun _ => rfl⟩
        · split
          · exact ⟨rfl, fun _ => rfl⟩
          · rename_i contents hread
            split
            · exact ⟨rfl, fun _ => rfl⟩
            · obtain ⟨state, -, h | ⟨bundle, h⟩⟩ := repository.register_cases engine contents
              · rw [h]
                exact ⟨rfl, fun _ => rfl⟩
              · rw [h]
                exact ⟨rfl, fun id => cell_append (Bundle.parsed_of_read hread) bundle id⟩
      obtain ⟨hinvalid, hcell⟩ := ih (repository.loadArchive engine files path).1
      exact ⟨hinvalid.trans hfirst.1, fun id => (hcell id).trans (hfirst.2 id)⟩

/-- Whether the shader that is shown in the place of those without replacement is that of the
first such entry of a manifest. -/
def Placed (repository : Repository σ β) : Prop :=
  ∀ shader, repository.invalid = some shader →
    ∃ id, repository.IsFirstMarker id ∧ (repository.cell id).stored = some shader

theorem Placed.mono (h : before.Placed) (hbefore : before.Ordered) (hafter : after.Ordered)
    (hdeclared : before.declared <+: after.declared) (hinvalid : after.invalid = before.invalid)
    (hstored : ∀ {id shader}, (before.cell id).stored = some shader →
      (after.cell id).stored = some shader) : after.Placed := by
  intro shader hshader
  obtain ⟨id, hfirst, hcell⟩ := h shader (hinvalid.symm.trans hshader)
  have hmarker : after.IsMarker id := ((isMarker_iff hbefore).mpr hfirst).mono hdeclared
  exact ⟨id, (isMarker_iff hafter).mp hmarker, hstored hcell⟩

theorem Placed.loadable (h : repository.Placed) (hinvalid : repository.invalid.isSome) :
    ∃ id, repository.IsFirstMarker id ∧ repository.Loadable engine id := by
  obtain ⟨shader, hshader⟩ := Option.isSome_iff_exists.mp hinvalid
  obtain ⟨id, hfirst, hstored⟩ := h shader hshader
  exact ⟨id, hfirst, Or.inl (Option.isSome_iff_exists.mpr ⟨shader, hstored⟩)⟩

theorem AtRest.cacheInvalid (h : repository.AtRest engine) :
    (repository.cacheInvalid engine).AtRest engine := by
  unfold Repository.cacheInvalid
  split
  · exact h
  · exact h.of_acts (cacheInvalidFrom_acts engine 0 _ _ .nothing 0)

/-- What becomes of the shader in a phase of loading: it stays, or the first marker that can be
loaded is taken; else there is none that can be loaded. -/
structure Settled (engine : Engine σ β) (before after : Repository σ β) : Prop where
  placed : after.Placed
  isSome_iff : after.invalid.isSome ↔ ∃ id, after.IsFirstMarker id ∧ after.Loadable engine id
  stays : ∀ shader, before.invalid = some shader → after.invalid = some shader
  chosen : before.invalid = none → ∀ shader, after.invalid = some shader →
    ∃ id, Chosen engine before after id shader

theorem settled_cacheInvalid (hlasting : engine.Lasting) (hrest : repository.AtRest engine)
    (hplaced : repository.Placed) :
    Settled engine repository (repository.cacheInvalid engine) := by
  have hordered := hrest.cacheInvalid.ordered
  cases hinvalid : repository.invalid with
  | some shader =>
      have hsame : repository.cacheInvalid engine = repository := by
        simp [Repository.cacheInvalid, hinvalid]
      rw [hsame]
      have hsome : repository.invalid.isSome := by simp [hinvalid]
      exact ⟨hplaced, iff_of_true hsome (hplaced.loadable hsome), fun _ h => h,
        fun h => by simp [hinvalid] at h⟩
  | none =>
      have hstays : ∀ shader, repository.invalid = some shader →
          (repository.cacheInvalid engine).invalid = some shader := by simp [hinvalid]
      have hcached : Cached engine repository repository.indices
          (repository.cacheInvalid engine) := by
        simpa [Repository.cacheInvalid, hinvalid] using cached engine repository repository.indices
      rcases hcached.chosen hlasting hrest hinvalid hordered with
        ⟨hnone, hmarkers⟩ | ⟨id, shader, hsome, hchosen⟩
      · refine ⟨fun shader h => ?_, iff_of_false (by simp [hnone]) ?_, hstays, fun _ shader h => ?_⟩
        · rw [hnone] at h
          cases h
        · rintro ⟨id, hfirst, hloadable⟩
          exact hmarkers id hfirst hloadable
        · rw [hnone] at h
          cases h
      · have honly : ∀ other, (repository.cacheInvalid engine).invalid = some other →
            other = shader := fun other h => (Option.some.inj (hsome.symm.trans h)).symm
        refine ⟨fun other h => ⟨id, hchosen.marker, honly other h ▸ hchosen.stored⟩,
          iff_of_true (by simp [hsome]) ⟨id, hchosen.marker, Or.inl ?_⟩, hstays,
          fun _ other h => ⟨id, honly other h ▸ hchosen⟩⟩
        simp [hchosen.stored]

/-- Whether a repository came from another by a phase of loading. -/
inductive Phase (engine : Engine σ β) (before : Repository σ β) : Repository σ β → Prop where
  | mk (files : FileTree) (archives : List Path) (stage : Stage) (webDone : Bool) :
      Phase engine before
        { (loadArchives engine files archives before).1.cacheInvalid engine with stage, webDone }

/-- **A phase of loading settles which shader is shown.** -/
theorem Phase.settled (h : Phase engine before after) (hlasting : engine.Lasting)
    (hrest : before.AtRest engine) (hplaced : before.Placed) : Settled engine before after := by
  obtain ⟨files, archives, stage, webDone⟩ := h
  have hacts := before.loadArchives_acts engine 0 files archives 0
  have hmiddle := hrest.of_acts hacts
  obtain ⟨hinvalid, hcell⟩ := loadArchives_frame engine files archives before
  have hplaced' : (loadArchives engine files archives before).1.Placed :=
    hplaced.mono hrest.ordered hmiddle.ordered hacts.grows_declared hinvalid
      fun {id shader} hstored => (congrArg Cell.stored (hcell id)).trans hstored
  obtain ⟨hplaced'', hiff, hstays, hchosen⟩ := settled_cacheInvalid hlasting hmiddle hplaced'
  refine ⟨hplaced'', hiff, fun shader h => hstays shader (hinvalid.trans h),
    fun hnone shader h => ?_⟩
  obtain ⟨id, hmarker, hstored, hfirst, hothers⟩ := hchosen (hinvalid.trans hnone) shader h
  exact ⟨id, hmarker, hstored, hfirst,
    fun other hne => (hothers other hne).trans (congrArg Cell.stored (hcell other))⟩

end Repository

/-! ### Requests -/

/-- Whether a request is a phase of loading that has something to load: a directory that exists,
or archives that are downloaded. -/
def Request.Loads (world : World σ β) : Request → Prop
  | .loadLocal directory =>
      world.files.isDirectory (directory.getD world.config.bundleDirectory) = true
  | .loadWeb directory downloader =>
      (directory.isSome ∨ world.config.downloadNewBundles = true) ∧ downloader.fails = false ∧
        downloader.paths ≠ []
  | _ => False

/-- Whether what a request does to a repository is a phase of loading, or no more than to give
shaders to entries. -/
inductive World.Does (engine : Engine σ β) (request : Request) (world : World σ β) :
    Repository σ β → Prop where
  | phase {after : Repository σ β} (hloads : request.Loads world)
      (hphase : world.repository.Phase engine after) : Does engine request world after
  | grown {after : Repository σ β} (hloads : ¬ request.Loads world)
      (hgrown : world.repository.Grown after) (stage : Stage) (webDone : Bool) :
      Does engine request world { after with stage, webDone }

section Requests

variable {engine : Engine σ β} {request : Request} {world : World σ β}

theorem World.does_self (h : ¬ request.Loads world) (stage : Stage) (webDone : Bool) :
    world.Does engine request { world.repository with stage, webDone } :=
  .grown h (.refl _) stage webDone

theorem Repository.materialize_grown (repository : Repository σ β) (source : Source β)
    (id : EntryId) : repository.Grown (repository.materialize engine source id).1 :=
  (repository.materialized engine source id).grown

/-- **What a request does to the repository.** -/
theorem World.does (engine : Engine σ β) (world : World σ β) (hplain : request.IsPlain) :
    world.Does engine request (world.after engine request).repository := by
  cases request with
  | loadLocal directory =>
      by_cases hdirectory :
          world.files.isDirectory (directory.getD world.config.bundleDirectory) = true
      · refine .phase hdirectory ?_
        simp only [World.after, Task.start, Task.answer, World.withRepository, Task.guarded,
          Repository.loadLocal, hdirectory, if_true]
        exact .mk world.files _ _ _
      · simp only [World.after, Task.start, Task.answer, World.withRepository, Task.guarded,
          Repository.loadLocal, hdirectory]
        have hloads : ¬ Request.Loads world (.loadLocal directory) := hdirectory
        exact world.does_self hloads _ _
  | loadWeb directory downloader =>
      have hskips : (directory.isNone ∧ !world.config.downloadNewBundles ∨ downloader.fails) ↔
          ¬ ((directory.isSome ∨ world.config.downloadNewBundles = true) ∧
            downloader.fails = false) := by
        cases directory <;> cases world.config.downloadNewBundles <;> cases downloader.fails <;>
          simp
      by_cases hloads : Request.Loads world (.loadWeb directory downloader)
      · obtain ⟨hallowed, hsucceeds, hsome⟩ := hloads
        have hempty : downloader.paths.isEmpty = false := by simpa using hsome
        have hnone := mt hskips.mp (not_not.mpr ⟨hallowed, hsucceeds⟩)
        refine .phase ⟨hallowed, hsucceeds, hsome⟩ ?_
        simp only [World.after, World.afterWeb, if_neg hnone, hempty]
        exact .mk _ downloader.paths _ _
      · simp only [World.after, World.afterWeb]
        split_ifs with hskip hempty
        · exact world.does_self hloads _ _
        · exact world.does_self hloads _ _
        · obtain ⟨hallowed, hsucceeds⟩ := not_not.mp (mt hskips.mpr hskip)
          exact absurd ⟨hallowed, hsucceeds, by simpa using hempty⟩ hloads
  | find query => exact .grown id (world.repository.find_grown engine query) _ _
  | findSuspending query => exact .grown id (world.repository.find_grown engine query) _ _
  | materialize provider entry =>
      exact .grown id (world.repository.materialize_grown (provider.source world) entry) _ _
  | materializeSuspending provider entry =>
      exact .grown id (world.repository.materialize_grown (provider.source world) entry) _ _
  | saveRecords path =>
      simp only [World.after, Task.start]
      cases world.files.write path (Bytes.ofText (Diagnostics.text world.records)) with
      | ok files => exact world.does_self id _ _
      | error error => exact world.does_self id _ _
  | awaitWeb | completeWeb | repair | repairSuspending => exact hplain.elim
  | _ => exact world.does_self id _ _

end Requests

/-! ### Shaders from their own bundles -/

namespace Repository

/-- Whether all shaders that entries have could be had from the bundles of their manifests. -/
def Sourced (engine : Engine σ β) (repository : Repository σ β) : Prop :=
  ∀ id shader, (repository.cell id).stored = some shader →
    ∃ bundle, (repository.source id.manifest).bundle = some bundle ∧
      engine.Has bundle id.assetPath

namespace Sourced

variable {engine : Engine σ β} {repository : Repository σ β} {id : EntryId}

theorem loadable_iff (h : repository.Sourced engine) :
    repository.Loadable engine id ↔
      ∃ bundle, (repository.source id.manifest).bundle = some bundle ∧
        engine.Has bundle id.assetPath := by
  refine ⟨?_, Or.inr⟩
  rintro (hstored | hhas)
  · obtain ⟨shader, hshader⟩ := Option.isSome_iff_exists.mp hstored
    exact h id shader hshader
  · exact hhas

/-- One more shader, from the bundle of its manifest. -/
theorem filled (h : repository.Sourced engine) {bundle : β} {state before : σ} {shader : Shader}
    (hbundle : (repository.source id.manifest).bundle = some bundle)
    (hload : engine.loadShader before bundle id.assetPath = (state, some shader)) :
    (modifyCell { repository with engine := state } id
      fun cell => (cell.store shader).1).Sourced engine := by
  intro other first hstored
  have hdeclared := declared_modifyCell { repository with engine := state } id
    fun cell => (cell.store shader).1
  rw [source_of_declared hdeclared]
  rcases cell_modifyCell_cases { repository with engine := state } id other
    fun cell => (cell.store shader).1 with hsame | ⟨rfl, -⟩
  · exact h other first ((congrArg Cell.stored hsame).symm.trans hstored)
  · exact ⟨bundle, hbundle, before, by rw [hload]; rfl⟩

theorem materialize (h : repository.Sourced engine) {source : Source β}
    (hsource : source.bundle = none ∨ source = repository.source id.manifest) :
    (repository.materialize engine source id).1.Sourced engine := by
  have htried := repository.tried engine source id
  generalize repository.materialize engine source id = result at htried
  cases htried with
  | stored => exact h
  | unbound => exact h
  | missing => exact h
  | loaded _ hbundle hload =>
      rcases hsource with hnone | rfl
      · rw [hnone] at hbundle
        cases hbundle
      · exact h.filled hbundle hload

theorem find (h : repository.Sourced engine) (query : Signature) :
    (repository.find engine query).1.Sourced engine := by
  rw [fst_find]
  cases repository.closest? query with
  | none => exact h
  | some candidate => exact h.materialize (Or.inr rfl)

theorem loadArchives (h : repository.Sourced engine) (files : FileTree) (archives : List Path) :
    (loadArchives engine files archives repository).1.Sourced engine := by
  intro id shader hstored
  have hcell := (loadArchives_frame engine files archives repository).2 id
  obtain ⟨bundle, hbundle, hhas⟩ := h id shader ((congrArg Cell.stored hcell).symm.trans hstored)
  have hgrows := (repository.loadArchives_acts engine 0 files archives 0).grows_declared
  exact ⟨bundle, bundle_mono hgrows hbundle, hhas⟩

theorem cacheInvalid (h : repository.Sourced engine) :
    (repository.cacheInvalid engine).Sourced engine := by
  unfold Repository.cacheInvalid
  split
  · exact h
  · have hcached := cached engine repository repository.indices
    generalize repository.indices = indices at hcached
    generalize cacheInvalidFrom engine indices repository = after at hcached
    cases hcached with
    | failed => exact h
    | stored => exact h
    | loaded _ _ _ _ hbundle hload => exact h.filled hbundle hload

end Sourced

end Repository

/-- Whether a request for the shader of an entry names the manifest of the entry, if any. -/
def Request.IsOwn : Request → Prop
  | .materialize (.manifest index) entry => index = entry.manifest
  | .materializeSuspending (.manifest index) entry => index = entry.manifest
  | _ => True

/-- A request leaves all shaders from the bundles of their manifests. -/
theorem World.sourced_after {engine : Engine σ β} {request : Request} {world : World σ β}
    (hplain : request.IsPlain) (hown : request.IsOwn) (h : world.repository.Sourced engine) :
    (world.after engine request).repository.Sourced engine := by
  have hphase : ∀ files archives, ((Repository.loadArchives engine files archives
      world.repository).1.cacheInvalid engine).Sourced engine :=
    fun files archives => (h.loadArchives files archives).cacheInvalid
  have hload : ∀ provider entry, Request.IsOwn (.materialize provider entry) →
      (world.repository.materialize engine (provider.source world) entry).1.Sourced engine := by
    intro provider entry hown
    cases provider with
    | unbound archive => exact h.materialize (Or.inl rfl)
    | manifest index => exact h.materialize (Or.inr (congrArg world.repository.source hown))
  cases request with
  | loadLocal directory =>
      simp only [World.after, Task.start, Task.answer, World.withRepository, Task.guarded,
        Repository.loadLocal]
      split
      · exact hphase world.files _
      · exact h
  | loadWeb directory downloader =>
      simp only [World.after, World.afterWeb]
      split_ifs
      · exact h
      · exact h
      · exact hphase _ downloader.paths
  | find query => exact h.find query
  | findSuspending query => exact h.find query
  | materialize provider entry => exact hload provider entry hown
  | materializeSuspending provider entry =>
      exact hload provider entry (by cases provider <;> exact hown)
  | saveRecords path =>
      simp only [World.after, Task.start]
      cases world.files.write path (Bytes.ofText (Diagnostics.text world.records)) <;> exact h
  | awaitWeb | completeWeb | repair | repairSuspending => exact hplain.elim
  | _ => exact h

/-! ### Sessions -/

namespace Session

variable {engine : Engine σ β} {world : World σ β} {before after session : Session σ β}
  {request : Request}

/-- A request does what it does at once, and its repository comes to rest again. -/
theorem OneByOne.serves (hstart : ∃ start, world.repository = .fresh start)
    (h : OneByOne engine Request.IsPlain (fresh world) before) (hplain : request.IsPlain)
    (hserves : Serves engine request before after) :
    after.world = before.world.after engine request ∧
      before.world.repository.AtRest engine ∧ after.world.repository.AtRest engine := by
  obtain ⟨hnumbered, hrest, hfree, -⟩ := h.idle hstart
  have hlater : OneByOne engine Request.IsPlain (fresh world) after :=
    .tail h ⟨request, hplain, hserves⟩
  exact ⟨hserves.world_eq hplain hnumbered hrest hfree, hrest, (hlater.idle hstart).2.1⟩

/-- **What a request does to the shader**: a phase of loading settles it, and no other request
changes it. -/
theorem OneByOne.settled (hstart : ∃ start, world.repository = .fresh start)
    (hlasting : engine.Lasting) (h : OneByOne engine Request.IsPlain (fresh world) before)
    (hplaced : before.world.repository.Placed) (hplain : request.IsPlain)
    (hserves : Serves engine request before after) :
    (request.Loads before.world ∧
        Repository.Settled engine before.world.repository after.world.repository) ∨
      ¬ request.Loads before.world ∧ after.world.repository.Placed ∧
        after.world.repository.invalid = before.world.repository.invalid := by
  obtain ⟨hworld, hrest, hrest'⟩ := h.serves hstart hplain hserves
  have hdoes := before.world.does engine hplain
  rw [← hworld] at hdoes
  generalize after.world.repository = repository at hdoes hrest'
  cases hdoes with
  | phase hloads hphase => exact Or.inl ⟨hloads, hphase.settled hlasting hrest hplaced⟩
  | grown hloads hgrown stage webDone =>
      have hdeclared : before.world.repository.declared <+: _ :=
        ⟨[], (List.append_nil _).trans hgrown.declared.symm⟩
      exact Or.inr ⟨hloads, hplaced.mono hrest.ordered hrest'.ordered hdeclared hgrown.invalid
        hgrown.stored, hgrown.invalid⟩

/-- The shader is that of a marker, whatever was requested. -/
theorem OneByOne.placed (hstart : ∃ start, world.repository = .fresh start)
    (hlasting : engine.Lasting) (h : OneByOne engine Request.IsPlain (fresh world) session) :
    session.world.repository.Placed := by
  induction h with
  | refl =>
      intro shader hshader
      obtain ⟨start, hfresh⟩ := hstart
      change world.repository.invalid = some shader at hshader
      rw [hfresh] at hshader
      cases hshader
  | tail hbefore hstep ih =>
      obtain ⟨request, hplain, hserves⟩ := hstep
      rcases OneByOne.settled hstart hlasting hbefore ih hplain hserves with
        ⟨-, hsettled⟩ | ⟨-, hplaced, -⟩
      · exact hsettled.placed
      · exact hplaced

/-- The shader stays, whatever is requested. -/
theorem OneByOne.stays (hstart : ∃ start, world.repository = .fresh start)
    (hlasting : engine.Lasting) (h : OneByOne engine Request.IsPlain (fresh world) session)
    {later : Session σ β} (hlater : OneByOne engine Request.IsPlain session later)
    {shader : Shader} (hshader : session.world.repository.invalid = some shader) :
    later.world.repository.invalid = some shader := by
  induction hlater with
  | refl => exact hshader
  | @tail middle after hmiddle hstep ih =>
      obtain ⟨request, hplain, hserves⟩ := hstep
      have hbefore : OneByOne engine Request.IsPlain (fresh world) middle := h.trans hmiddle
      rcases hbefore.settled hstart hlasting (hbefore.placed hstart hlasting) hplain hserves with
        ⟨-, hsettled⟩ | ⟨-, -, hsame⟩
      · exact hsettled.stays shader ih
      · exact hsame.trans ih

/-- Where requests name the manifests of their entries, all shaders come from the bundles of
their manifests. -/
theorem OneByOne.sourced (hstart : ∃ start, world.repository = .fresh start)
    (h : OneByOne engine (fun request => request.IsPlain ∧ request.IsOwn) (fresh world) session) :
    session.world.repository.Sourced engine := by
  induction h with
  | refl =>
      intro id shader hstored
      obtain ⟨start, hfresh⟩ := hstart
      change (world.repository.cell id).stored = some shader at hstored
      rw [hfresh] at hstored
      cases hstored
  | tail hbefore hstep ih =>
      obtain ⟨request, ⟨hplain, hown⟩, hserves⟩ := hstep
      have hplainBefore := OneByOne.mono (fun _ => And.left) hbefore
      rw [(OneByOne.serves hstart hplainBefore hplain hserves).1]
      exact World.sourced_after hplain hown ih

/-- **The first marker that can be loaded is shown in the place of shaders without
replacement, and stays.** Let requests be carried out one by one from a new repository: phases
of loading, searches and loads of shaders, whether they block or not, and requests that do not
use the repository. Let what the engine can load out of a bundle never change. Then the shader
is that of the first entry, by asset path, of a manifest that stands in for shaders without
replacement, and whatever is requested it stays. Every request can be carried out; after a phase
that has something to load there is a shader just if some such entry can be loaded; and only such
a phase can bring one, that of the earliest manifest that offers one, and no other entry gets a
shader then. Unless the shader of an entry was asked for from another manifest, it can be loaded
just if its own bundle has it. -/
theorem invalid_of_oneByOne (hstart : ∃ start, world.repository = .fresh start)
    (hlasting : engine.Lasting) (h : OneByOne engine Request.IsPlain (fresh world) session) :
    let repository := session.world.repository
    (∀ shader, repository.invalid = some shader →
      (∃ id, repository.IsFirstMarker id ∧ (repository.cell id).stored = some shader) ∧
      ∀ later, OneByOne engine Request.IsPlain session later →
        later.world.repository.invalid = some shader) ∧
    (∀ request, request.IsPlain → ∃ next, Serves engine request session next) ∧
    (∀ request next, request.IsPlain → Serves engine request session next →
      let after := next.world.repository
      (request.Loads session.world →
        (after.invalid.isSome ↔ ∃ id, after.IsFirstMarker id ∧ after.Loadable engine id)) ∧
      (repository.invalid = none → ∀ shader, after.invalid = some shader →
        request.Loads session.world ∧ ∃ id, repository.Chosen engine after id shader)) ∧
    (OneByOne engine (fun request => request.IsPlain ∧ request.IsOwn) (fresh world) session →
      ∀ id, repository.Loadable engine id ↔
        ∃ bundle, (repository.source id.manifest).bundle = some bundle ∧
          engine.Has bundle id.assetPath) := by
  intro repository
  have hplaced := h.placed hstart hlasting
  obtain ⟨hnumbered, hrest, hfree, hidle⟩ := h.idle hstart
  refine ⟨fun shader hshader => ⟨hplaced shader hshader, fun later hlater =>
    h.stays hstart hlasting hlater hshader⟩,
    fun request hplain => exists_serves hnumbered hrest hfree hidle hplain,
    fun request next hplain hserves => ?_, fun hown id => (hown.sourced hstart).loadable_iff⟩
  intro after
  rcases h.settled hstart hlasting hplaced hplain hserves with
    ⟨hloads, hsettled⟩ | ⟨hloads, -, hsame⟩
  · exact ⟨fun _ => hsettled.isSome_iff,
      fun hnone shader hshader => ⟨hloads, hsettled.chosen hnone shader hshader⟩⟩
  · refine ⟨fun h => absurd h hloads, fun hnone shader hshader => ?_⟩
    rw [hsame, hnone] at hshader
    cases hshader

/-! ### A phase that brings a shader -/

theorem lasting_inMemory (bundleDelay shaderDelay : Nat) :
    (Engine.inMemory bundleDelay shaderDelay).Lasting := by
  intro first second bundle assetPath
  simp only [Engine.inMemory, Engine.Tally.loadShader]
  cases Payload.name? bundle.assets assetPath <;> rfl

/-- A web phase that brings an archive with a marker. -/
def placeholderRequest : Request :=
  .loadWeb (some ⟨"d"⟩) sampleDownloader

theorem serves_placeholder :
    Serves sampleEngine placeholderRequest (fresh placeholderWorld)
      (replay sampleEngine placeholderMoves (fresh placeholderWorld)) := by
  refine ⟨[.resume 0, .resume 0, .resume 0, .resume 0], ?_, rfl, ?_⟩
  · simp [LeftTo, fresh]
  · rw [replay_placeholder]

theorem invalid_of_placeholder :
    (placeholderWorld.repository = .fresh ⟨0, 0⟩ ∧ sampleEngine.Lasting ∧
      OneByOne sampleEngine Request.IsPlain (fresh placeholderWorld) (fresh placeholderWorld)) ∧
    ∃ next, Serves sampleEngine placeholderRequest (fresh placeholderWorld) next ∧
      next.world.repository.invalid = some placeholderShader ∧
      placeholderRequest.Loads placeholderWorld ∧
      ∃ id, Repository.Chosen sampleEngine placeholderWorld.repository next.world.repository id
        placeholderShader := by
  have hlasting : sampleEngine.Lasting := lasting_inMemory 0 0
  obtain ⟨-, -, hrequests, -⟩ := @invalid_of_oneByOne _ _ sampleEngine placeholderWorld _
    ⟨⟨0, 0⟩, rfl⟩ hlasting .refl
  have hinvalid : (replay sampleEngine placeholderMoves
      (fresh placeholderWorld)).world.repository.invalid = some placeholderShader := by
    rw [replay_placeholder]
    rfl
  obtain ⟨hloads, hchosen⟩ :=
    (hrequests placeholderRequest _ trivial serves_placeholder).2 rfl _ hinvalid
  exact ⟨⟨rfl, hlasting, .refl⟩, _, serves_placeholder, hinvalid, hloads, hchosen⟩

end Session

end ShaderMend
