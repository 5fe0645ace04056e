import ShaderMend.Proofs.Bundle.Listing
import ShaderMend.Proofs.Repository.Markers
import ShaderMend.Proofs.Session.Phases

/-!
# Directories with bad archives among them

Archives that cannot be read, and those whose payload the engine refuses, are passed over; they
leave nothing behind, and the others are added as if they were alone.

* `loadArchives_eq` — by induction on the archives, what each of them adds.
* `loadArchives_filter` — by the same induction, archives that add nothing can be left out.
* `again_loadLocal`, `pruned_loadLocal` — a directory loaded again, and one without them.
* `loadLocal_of_directory` — what this comes to for all directories.
-/

namespace ShaderMend

variable {σ β : Type}

/-! ### Engines that refuse -/

namespace Engine

/-- Whether the engine accepts or refuses a payload for good, whatever its state. -/
def Decided (engine : Engine σ β) : Prop :=
  ∀ first second path payload,
    (engine.loadBundle first path payload).2.isSome
      = (engine.loadBundle second path payload).2.isSome

/-- Whether an engine that refuses a payload is left as it was. -/
def Traceless (engine : Engine σ β) : Prop :=
  ∀ state path payload, (engine.loadBundle state path payload).2 = none →
    (engine.loadBundle state path payload).1 = state

end Engine

namespace Repository

variable {engine : Engine σ β} {files other : FileTree} {repository : Repository σ β}
  {path first : Path} {archives : List Path}

/-! ### What an archive adds -/

/-- The manifest that an archive adds when it is loaded in a state of the engine: one that is
not loaded yet, can be read, and whose payload the engine accepts, with the entries that were
read. -/
def addition? (engine : Engine σ β) (files : FileTree) (repository : Repository σ β) (state : σ)
    (path : Path) : Option (Manifest β) :=
  if repository.isLoaded path then none
  else
    match Bundle.read files path with
    | .error _ => none
    | .ok contents =>
        (engine.loadBundle state path contents.payload).2.map fun bundle =>
          ⟨path, some bundle, contents.entries⟩

/-- The state of the engine when it is the turn of an archive. -/
def turn (engine : Engine σ β) (files : FileTree) (repository : Repository σ β)
    (archives : List Path) (path : Path) : σ :=
  (loadArchives engine files (archives.takeWhile (· ≠ path)) repository).1.engine

/-- The manifests that archives add, each at its turn. -/
def additions (engine : Engine σ β) (files : FileTree) (repository : Repository σ β)
    (archives : List Path) : List (Manifest β) :=
  archives.filterMap fun path =>
    repository.addition? engine files (repository.turn engine files archives path) path

/-- A manifest that an archive adds is that of the archive, bound and with no shader yet. -/
theorem of_addition? {state : σ} {manifest : Manifest β}
    (h : repository.addition? engine files state path = some manifest) :
    manifest.path = path ∧ manifest.bundle.isSome ∧ manifest.unfilled = manifest := by
  unfold addition? at h
  split at h
  · cases h
  · split at h
    · cases h
    · rename_i contents hread
      obtain ⟨bundle, -, rfl⟩ := Option.map_eq_some_iff.mp h
      have hkept : ∀ entry ∈ contents.entries, (entry.modifyCell fun _ => .empty) = entry := by
        intro entry hmem
        simp [Entry.modifyCell, ← (Bundle.parsed_of_read hread).unfilled entry hmem]
      have hentries : contents.entries.map (·.modifyCell fun _ => .empty) = contents.entries :=
        (List.map_congr_left hkept).trans (List.map_id _)
      exact ⟨rfl, rfl, by simp only [Manifest.unfilled, hentries]⟩

/-- An archive that adds nothing is loaded already, cannot be read, or is refused. -/
theorem addition?_eq_none_iff {state : σ} :
    repository.addition? engine files state path = none ↔
      repository.isLoaded path ∨ (∃ error, Bundle.read files path = .error error) ∨
        ∃ contents, Bundle.read files path = .ok contents ∧
          (engine.loadBundle state path contents.payload).2 = none := by
  unfold addition?
  split
  · rename_i hloaded
    simp [hloaded]
  · rename_i hloaded
    cases hread : Bundle.read files path with
    | error error => simp
    | ok contents => simp [hloaded]

theorem addition?_congr {before after : Repository σ β} {state : σ}
    (h : after.isLoaded path = before.isLoaded path) :
    after.addition? engine files state path = before.addition? engine files state path := by
  unfold addition?
  rw [h]

/-- **An archive is added or passed over**, where no other is being loaded. -/
theorem loadArchive_eq (hfree : repository.inFlight = []) (engine : Engine σ β)
    (files : FileTree) (path : Path) :
    (repository.loadArchive engine files path).1
        = { repository with
            engine := (repository.loadArchive engine files path).1.engine
            manifests := repository.manifests
              ++ (repository.addition? engine files repository.engine path).toList } ∧
      ((repository.loadArchive engine files path).2 = .loaded ↔
        (repository.addition? engine files repository.engine path).isSome) := by
  by_cases hloaded : repository.isLoaded path
  · simp [loadArchive, addition?, hloaded]
  · cases hread : Bundle.read files path with
    | error error => simp [loadArchive, addition?, hloaded, hread]
    | ok contents =>
        have hreserved : ¬ repository.isReserved path := by simp [isReserved, hfree]
        have hpath := Bundle.path_of_read hread
        rw [loadArchive_of_read engine hloaded hread hreserved]
        unfold register addition?
        rw [hpath, hread, if_neg hloaded]
        rcases hload : engine.loadBundle repository.engine path contents.payload with
          ⟨state, _ | bundle⟩ <;> simp [hload]

theorem isLoaded_loadArchive (hfree : repository.inFlight = []) (h : ¬ first.same path) :
    (repository.loadArchive engine files first).1.isLoaded path = repository.isLoaded path := by
  rw [(loadArchive_eq hfree engine files first).1]
  unfold isLoaded
  rw [List.any_append]
  cases hadded : repository.addition? engine files repository.engine first with
  | none => simp
  | some manifest => simp [(of_addition? hadded).1, h]

/-! ### What several archives add -/

/-- What an archive adds is no matter of the one before it. -/
theorem addition?_cons (hfree : repository.inFlight = []) (h : ¬ first.same path) :
    repository.addition? engine files (repository.turn engine files (first :: archives) path) path
      = (repository.loadArchive engine files first).1.addition? engine files
          ((repository.loadArchive engine files first).1.turn engine files archives path)
          path := by
  have hne : first ≠ path := by
    rintro rfl
    exact h (Path.same_refl first)
  have hturn : repository.turn engine files (first :: archives) path
      = (repository.loadArchive engine files first).1.turn engine files archives path := by
    simp [turn, hne, loadArchives]
  rw [hturn, addition?_congr (isLoaded_loadArchive hfree h)]

theorem turn_first :
    repository.turn engine files (first :: archives) first = repository.engine := by
  simp [turn, loadArchives]

theorem additions_cons (hfree : repository.inFlight = [])
    (h : ∀ path ∈ archives, ¬ first.same path) :
    repository.additions engine files (first :: archives)
      = (repository.addition? engine files repository.engine first).toList
        ++ (repository.loadArchive engine files first).1.additions engine files archives := by
  unfold additions
  rw [List.filterMap_cons, turn_first,
    List.filterMap_congr fun path hmem => addition?_cons hfree (h path hmem)]
  cases repository.addition? engine files repository.engine first <;> rfl

/-- **Archives are added or passed over one after the other**: each that can be added is, and no
reservation is left. -/
theorem loadArchives_eq (hfree : repository.inFlight = [])
    (h : archives.Pairwise fun first second => ¬ first.same second) (engine : Engine σ β)
    (files : FileTree) :
    (loadArchives engine files archives repository).1
        = { repository with
            engine := (loadArchives engine files archives repository).1.engine
            manifests := repository.manifests ++ repository.additions engine files archives } ∧
      (loadArchives engine files archives repository).2.added
        = (repository.additions engine files archives).length := by
  induction archives generalizing repository with
  | nil => simp [loadArchives, additions, Loads.added]
  | cons first rest ih =>
      obtain ⟨hfirst, hrest⟩ := List.pairwise_cons.mp h
      obtain ⟨hafter, hadded⟩ := loadArchive_eq hfree engine files first
      have hfree' := (repository.inFlight_loadArchive engine files first).trans hfree
      obtain ⟨hloaded, hcount⟩ := ih hfree' hrest
      rw [additions_cons hfree hfirst]
      simp only [loadArchives]
      generalize (repository.loadArchive engine files first).1.additions engine files rest = more
        at hloaded hcount
      constructor
      · rw [hloaded]
        generalize (loadArchives engine files rest
          (repository.loadArchive engine files first).1).1.engine = last
        rw [hafter]
        simp
      · simp only [Loads.added, List.countP_cons, List.length_append] at hcount ⊢
        cases hnew : repository.addition? engine files repository.engine first with
        | none => simp [hcount, hadded, hnew]
        | some manifest => simp [hcount, hadded, hnew, Nat.add_comm]

/-! ### Archives that add nothing -/

theorem loadArchive_congr (h : Bundle.read other path = Bundle.read files path) :
    repository.loadArchive engine other path = repository.loadArchive engine files path := by
  unfold loadArchive
  rw [h]

/-- An archive that adds nothing leaves no trace, if the engine leaves none. -/
theorem loadArchive_of_none (htraceless : engine.Traceless) (hfree : repository.inFlight = [])
    (h : repository.addition? engine files repository.engine path = none) :
    (repository.loadArchive engine files path).1 = repository ∧
      (repository.loadArchive engine files path).2 ≠ .loaded := by
  have hreserved : ¬ repository.isReserved path := by simp [isReserved, hfree]
  have hskipped : (repository.loadArchive engine files path).2 ≠ .loaded := by
    rw [ne_eq, (loadArchive_eq hfree engine files path).2, h]
    exact Bool.false_ne_true
  refine ⟨?_, hskipped⟩
  rcases addition?_eq_none_iff.mp h with hloaded | ⟨error, hread⟩ | ⟨contents, hread, hrefused⟩
  · simp [loadArchive, hloaded]
  · by_cases hloaded : repository.isLoaded path <;> simp [loadArchive, hloaded, hread]
  · by_cases hloaded : repository.isLoaded path
    · simp [loadArchive, hloaded]
    · have hstate := htraceless repository.engine path contents.payload hrefused
      rw [loadArchive_of_read engine hloaded hread hreserved]
      unfold register
      rw [Bundle.path_of_read hread, ← Prod.eta (engine.loadBundle _ _ _), hrefused, hstate]

/-- **Archives that add nothing can be left out**, if the engine leaves no trace of what it
refuses. -/
theorem loadArchives_filter (htraceless : engine.Traceless) (hfree : repository.inFlight = [])
    (h : archives.Pairwise fun first second => ¬ first.same second) {keeps : Path → Bool}
    (hread : ∀ path ∈ archives, keeps path = true →
      Bundle.read other path = Bundle.read files path)
    (hnothing : ∀ path ∈ archives, keeps path = false →
      repository.addition? engine files (repository.turn engine files archives path) path = none) :
    (loadArchives engine other (archives.filter keeps) repository).1
        = (loadArchives engine files archives repository).1 ∧
      (loadArchives engine other (archives.filter keeps) repository).2.added
        = (loadArchives engine files archives repository).2.added := by
  induction archives generalizing repository with
  | nil => exact ⟨rfl, rfl⟩
  | cons first rest ih =>
      obtain ⟨hfirst, hrest⟩ := List.pairwise_cons.mp h
      obtain ⟨hreadFirst, hreadRest⟩ := List.forall_mem_cons.mp hread
      obtain ⟨hnothingFirst, hnothingRest⟩ := List.forall_mem_cons.mp hnothing
      have hfree' := (repository.inFlight_loadArchive engine files first).trans hfree
      have hlater := ih hfree' hrest hreadRest fun path hmem hkept =>
        (addition?_cons hfree (hfirst path hmem)).symm.trans (hnothingRest path hmem hkept)
      cases hkeeps : keeps first with
      | true =>
          rw [List.filter_cons_of_pos hkeeps]
          simp only [loadArchives, loadArchive_congr (hreadFirst hkeeps)]
          refine ⟨hlater.1, ?_⟩
          simpa only [Loads.added, List.countP_cons] using congrArg (· + _) hlater.2
      | false =>
          rw [turn_first] at hnothingFirst
          obtain ⟨hsame, hskipped⟩ := loadArchive_of_none htraceless hfree (hnothingFirst hkeeps)
          rw [List.filter_cons_of_neg (by simp [hkeeps])]
          rw [hsame] at hlater
          simp only [loadArchives, hsame]
          refine ⟨hlater.1, hlater.2.trans ?_⟩
          simp [Loads.added, hskipped]

end Repository

/-- A manifest but for what its bundle is. -/
def Manifest.sketch (manifest : Manifest β) : Manifest Unit :=
  ⟨manifest.path, manifest.bundle.map fun _ => (), manifest.entries⟩

namespace Repository

variable {engine : Engine σ β} {files other : FileTree} {repository : Repository σ β}
  {path first : Path} {archives : List Path}

/-- What an archive adds is no matter of the state, but for what its bundle is, if the engine
decides for good. -/
theorem sketch_addition? (hdecided : engine.Decided) (state before : σ) :
    (repository.addition? engine files state path).map Manifest.sketch
      = (repository.addition? engine files before path).map Manifest.sketch := by
  unfold addition?
  split
  · rfl
  · split
    · rfl
    · rename_i contents _
      have hboth := hdecided state before path contents.payload
      cases hfirst : (engine.loadBundle state path contents.payload).2 <;>
        cases hsecond : (engine.loadBundle before path contents.payload).2 <;>
        simp_all [Manifest.sketch]

theorem sketch_additions_filter (hdecided : engine.Decided) {keeps : Path → Bool}
    (hread : ∀ path ∈ archives, keeps path = true →
      Bundle.read other path = Bundle.read files path)
    (hnothing : ∀ path ∈ archives, keeps path = false →
      repository.addition? engine files (repository.turn engine files archives path) path = none) :
    (repository.additions engine other (archives.filter keeps)).map Manifest.sketch
      = (repository.additions engine files archives).map Manifest.sketch := by
  unfold additions
  rw [List.map_filterMap, List.map_filterMap, List.filterMap_filter]
  refine List.filterMap_congr fun path hmem => ?_
  cases hkeeps : keeps path with
  | true =>
      have hsame : ∀ state, repository.addition? engine other state path
          = repository.addition? engine files state path := by
        intro state
        unfold addition?
        rw [hread path hmem hkeeps]
      simp only [if_true, hsame]
      exact sketch_addition? hdecided _ _
  | false => simp [hnothing path hmem hkeeps]

/-- Archives that were gone through once add nothing more, if the engine decides for good. -/
theorem additions_again (hdecided : engine.Decided) {after : Repository σ β}
    (hloaded : ∀ path, repository.isLoaded path → after.isLoaded path)
    (hadded : ∀ manifest ∈ repository.additions engine files archives,
      after.isLoaded manifest.path) :
    after.additions engine files archives = [] := by
  refine List.filterMap_eq_nil_iff.mpr fun path hmem => ?_
  rw [addition?_eq_none_iff]
  cases hturn : repository.addition? engine files (repository.turn engine files archives path)
      path with
  | some manifest =>
      have hmanifest := hadded manifest (List.mem_filterMap.mpr ⟨path, hmem, hturn⟩)
      exact Or.inl ((of_addition? hturn).1 ▸ hmanifest)
  | none =>
      refine (addition?_eq_none_iff.mp hturn).imp (hloaded path) (Or.imp id ?_)
      rintro ⟨contents, hread, hrefused⟩
      refine ⟨contents, hread, ?_⟩
      rw [← Option.isNone_iff_eq_none, ← Option.not_isSome] at hrefused ⊢
      rwa [hdecided _ (repository.turn engine files archives path)]

/-! ### Directories -/

theorem isLoaded_of_declared {before : Repository σ β} {added : List (Manifest β)}
    (h : repository.declared = before.declared ++ added) (path : Path) :
    repository.isLoaded path
      = (before.isLoaded path || added.any fun manifest => manifest.path.same path) := by
  have hpaths : ∀ repository : Repository σ β, repository.isLoaded path
      = repository.declared.any fun manifest => manifest.path.same path := by
    intro repository
    simp [isLoaded, declared, List.any_map, Function.comp_def, Manifest.unfilled]
  rw [hpaths, h, List.any_append, ← hpaths]

theorem map_unfilled_additions :
    (repository.additions engine files archives).map Manifest.unfilled
      = repository.additions engine files archives := by
  conv_rhs => rw [← List.map_id (repository.additions engine files archives)]
  refine List.map_congr_left fun manifest hmem => ?_
  obtain ⟨path, -, hadded⟩ := List.mem_filterMap.mp hmem
  exact (of_addition? hadded).2.2

/-- The repository with manifests added, before the shader for shaders without replacement is
looked for. -/
def extended (repository : Repository σ β) (added : List (Manifest β)) : Repository σ β :=
  { repository with manifests := repository.manifests ++ added }

section Listed

variable {directory : Path} (hfree : repository.inFlight = [])
  (hdirectory : files.isDirectory directory = true)
  (harchives : Bundle.archivesIn files directory = .ok archives)
  (h : archives.Pairwise fun first second => ¬ first.same second)
include hfree hdirectory harchives h

/-- A directory adds manifests, and then the shader for shaders without replacement is looked
for. -/
theorem loadLocal_eq (engine : Engine σ β) :
    ∃ state, repository.loadLocal engine files directory
      = ((cacheInvalid { repository.extended (repository.additions engine files archives) with
            engine := state } engine).advance .locallyLoaded,
         (repository.additions engine files archives).length) := by
  obtain ⟨hafter, hadded⟩ := loadArchives_eq hfree h engine files
  refine ⟨(loadArchives engine files archives repository).1.engine, ?_⟩
  rw [repository.loadLocal_of_listed engine hdirectory harchives, hadded, hafter]
  rfl

/-- The manifests that a directory adds are declared behind the earlier ones, and nothing else
changes but the cell of the marker whose shader is kept. -/
theorem kept_loadLocal (engine : Engine σ β) :
    let added := repository.additions engine files archives
    let loaded := repository.loadLocal engine files directory
    loaded.2 = added.length ∧
    loaded.1.declared = repository.declared ++ added ∧
    (repository.invalid.isSome → loaded.1.manifests = repository.manifests ++ added) ∧
    (∀ id, loaded.1.cell id ≠ (repository.extended added).cell id →
      repository.invalid = none ∧ (repository.extended added).IsMarker id ∧
        ((repository.extended added).cell id).stored = none ∧ loaded.1.invalid.isSome ∧
        (loaded.1.cell id).stored = loaded.1.invalid) ∧
    loaded.1.inFlight = [] ∧ loaded.1.webDone = repository.webDone ∧
    loaded.1.stage = repository.stage.advance .locallyLoaded := by
  intro added loaded
  obtain ⟨state, hloaded⟩ := loadLocal_eq hfree hdirectory harchives h engine
  have hkept := cacheInvalid_kept engine
    { repository.extended (repository.additions engine files archives) with engine := state }
  change loaded = _ at hloaded
  rw [hloaded]
  refine ⟨rfl, ?_, fun hinvalid => ?_, fun id hchanged => ?_, hkept.inFlight.trans hfree,
    hkept.webDone, congrArg (Stage.advance · .locallyLoaded) hkept.stage⟩
  · refine hkept.declared.trans ?_
    simp only [declared, extended, List.map_append, map_unfilled_additions]
    rfl
  · exact congrArg manifests (hkept.invalid hinvalid)
  · obtain ⟨hmarker, hempty, hsome, hstored⟩ := hkept.cell id hchanged
    refine ⟨?_, hmarker, hempty, hsome, hstored⟩
    by_contra hinvalid
    have hsame := hkept.invalid (Option.isSome_iff_ne_none.mpr hinvalid)
    have hcell := congrArg (fun after => after.cell id) hsame
    exact hchanged hcell

/-- A directory that was loaded adds nothing when it is loaded again. -/
theorem again_loadLocal (hdecided : engine.Decided) :
    let loaded := repository.loadLocal engine files directory
    (loaded.1.loadLocal engine files directory).2 = 0 ∧
      (loaded.1.loadLocal engine files directory).1.declared = loaded.1.declared := by
  intro loaded
  obtain ⟨-, hdeclared, -, -, hfree', -⟩ := kept_loadLocal hfree hdirectory harchives h engine
  obtain ⟨hcount, hdeclared', -⟩ :=
    @kept_loadLocal _ _ _ loaded.1 _ _ hfree' hdirectory harchives h engine
  have hloaded := isLoaded_of_declared hdeclared
  have hnothing : loaded.1.additions engine files archives = [] := by
    refine @additions_again _ _ _ _ repository _ hdecided _ (fun path hbefore => ?_)
      fun manifest hmem => ?_
    · rw [hloaded, hbefore, Bool.true_or]
    · rw [hloaded, Bool.or_eq_true, List.any_eq_true]
      exact Or.inr ⟨manifest, hmem, Path.same_refl _⟩
  rw [hnothing] at hcount hdeclared'
  exact ⟨hcount, hdeclared'.trans (List.append_nil _)⟩

/-- Archives that add nothing can be missing from the directory. -/
theorem pruned_loadLocal {keeps : Path → Bool}
    (hdirectory' : other.isDirectory directory = true)
    (harchives' : Bundle.archivesIn other directory = .ok (archives.filter keeps))
    (hread : ∀ path ∈ archives, keeps path = true →
      Bundle.read other path = Bundle.read files path)
    (hnothing : ∀ path ∈ archives, keeps path = false →
      repository.addition? engine files (repository.turn engine files archives path) path = none) :
    let loaded := repository.loadLocal engine files directory
    let pruned := repository.loadLocal engine other directory
    (engine.Decided → pruned.2 = loaded.2 ∧
      pruned.1.declared.map Manifest.sketch = loaded.1.declared.map Manifest.sketch) ∧
    (engine.Traceless → pruned = loaded) := by
  intro loaded pruned
  constructor
  · intro hdecided
    obtain ⟨hcount, hdeclared, -⟩ := kept_loadLocal hfree hdirectory harchives h engine
    obtain ⟨hcount', hdeclared', -⟩ :=
      kept_loadLocal hfree hdirectory' harchives' (h.filter _) engine
    have hsketch := sketch_additions_filter hdecided hread hnothing
    have hlength := congrArg List.length hsketch
    rw [List.length_map, List.length_map] at hlength
    refine ⟨hcount'.trans (hlength.trans hcount.symm), ?_⟩
    rw [hdeclared, hdeclared', List.map_append, List.map_append, hsketch]
  · intro htraceless
    obtain ⟨hsame, hcount⟩ := loadArchives_filter htraceless hfree h hread hnothing
    change repository.loadLocal engine other directory
      = repository.loadLocal engine files directory
    rw [repository.loadLocal_of_listed engine hdirectory' harchives',
      repository.loadLocal_of_listed engine hdirectory harchives, hsame, hcount]

end Listed

/-- **A directory is loaded whatever lies among its archives.** Let no archive be in flight.
Every archive that the directory lists, in ascending order of paths, adds one manifest if it is
not loaded yet, can be read, and is accepted by the engine at its turn, and else nothing; the
manifests come behind the earlier ones, and are counted. Nothing else changes but the cell of
the marker whose shader is kept. An engine that decides for good adds nothing when the directory
is loaded again; and archives that add nothing can be deleted: as many manifests are added, and
the same, but for what an engine whose refusals leave a trace makes of them. -/
theorem loadLocal_of_directory (engine : Engine σ β) (hfree : repository.inFlight = [])
    (hsound : files.Sound) {directory : Path} (hdirectory : files.isDirectory directory = true) :
    ∃ place archives, files.locate directory = .ok (place, .directory) ∧
      Bundle.archivesIn files directory = .ok archives ∧
      archives.Pairwise Path.Precedes ∧
      (∀ path, path ∈ archives ↔ ∃ name content, (place ++ [name], .file content) ∈ files.nodes ∧
        path = directory.join name ∧ Bundle.isArchive path = true) ∧
      let added := repository.additions engine files archives
      let loaded := repository.loadLocal engine files directory
      loaded.2 = added.length ∧
      loaded.1.declared = repository.declared ++ added ∧
      (repository.invalid.isSome → loaded.1.manifests = repository.manifests ++ added) ∧
      (∀ id, loaded.1.cell id ≠ (repository.extended added).cell id →
        repository.invalid = none ∧ (repository.extended added).IsMarker id ∧
          ((repository.extended added).cell id).stored = none ∧
          loaded.1.invalid.isSome ∧ (loaded.1.cell id).stored = loaded.1.invalid) ∧
      loaded.1.inFlight = [] ∧ loaded.1.webDone = repository.webDone ∧
      loaded.1.stage = repository.stage.advance .locallyLoaded ∧
      (engine.Decided →
        (loaded.1.loadLocal engine files directory).2 = 0 ∧
          (loaded.1.loadLocal engine files directory).1.declared = loaded.1.declared) ∧
      ∀ deleted : List Path, deleted.Nodup →
        (∀ path ∈ deleted, path ∈ archives ∧ path ∉ added.map Manifest.path) →
        let pruned := repository.loadLocal engine (deleted.foldl FileTree.remove files) directory
        (engine.Decided → pruned.2 = loaded.2 ∧
          pruned.1.declared.map Manifest.sketch = loaded.1.declared.map Manifest.sketch) ∧
        (engine.Traceless → pruned = loaded) := by
  obtain ⟨place, hlocate⟩ := FileTree.isDirectory_iff.mp hdirectory
  have harchives := Bundle.archivesIn_of_locate hlocate
  generalize ((Catalogue.ofList id (files.filesIn place)).map directory.join).filter
    Bundle.isArchive = archives at harchives
  obtain ⟨hascending, hapart⟩ := Bundle.precedes_archivesIn hsound hlocate harchives
  refine ⟨place, archives, hlocate, harchives, hascending,
    fun path => Bundle.mem_archivesIn_iff hlocate harchives, ?_⟩
  intro added loaded
  obtain ⟨hcount, hdeclared, hmanifests, hcells, hfree', hweb, hstage⟩ :=
    kept_loadLocal hfree hdirectory harchives hapart engine
  refine ⟨hcount, hdeclared, hmanifests, hcells, hfree', hweb, hstage,
    again_loadLocal hfree hdirectory harchives hapart, fun deleted hnodup hdeleted => ?_⟩
  obtain ⟨hlocate', harchives', hread⟩ := Bundle.archivesIn_removeEach hsound hlocate harchives
    hnodup fun path hmem => (hdeleted path hmem).1
  refine pruned_loadLocal hfree hdirectory harchives hapart
    (FileTree.isDirectory_iff.mpr ⟨place, hlocate'⟩) harchives'
    (fun path hmem hkept => hread path hmem (of_decide_eq_true hkept)) fun path hmem hgone => ?_
  have hmissing : path ∈ deleted := by simpa using hgone
  cases hturn : repository.addition? engine files (repository.turn engine files archives path)
      path with
  | none => rfl
  | some manifest =>
      refine absurd ?_ (hdeleted path hmissing).2
      exact List.mem_map.mpr ⟨manifest, List.mem_filterMap.mpr ⟨path, hmem, hturn⟩,
        (of_addition? hturn).1⟩

/-! ### A directory with a bad archive -/

theorem decided_inMemory (bundleDelay shaderDelay : Nat) :
    (Engine.inMemory bundleDelay shaderDelay).Decided := by
  intro first second path payload
  simp only [Engine.inMemory, Engine.Tally.loadBundle]
  cases Payload.decode? payload <;> rfl

theorem traceless_inMemory (bundleDelay shaderDelay : Nat) :
    (Engine.inMemory bundleDelay shaderDelay).Traceless := by
  intro state path payload h
  simp only [Engine.inMemory, Engine.Tally.loadBundle] at h ⊢
  cases hdecode : Payload.decode? payload with
  | none => rfl
  | some assets => simp [hdecode] at h

/-- A tree with a directory that holds a file of no octets beside an archive. -/
def mixedFiles : FileTree :=
  ⟨[(["d"], .directory), (["d", "a.shaderbundle"], .file []), (["d", "b.shaderbundle"],
    .file (Bundle.encode [("x", .object [("name", .string "S")])]))]⟩

/-- The file that is no archive. -/
def badPath : Path := ⟨"d/a.shaderbundle"⟩

theorem sound_mixed : mixedFiles.Sound where
  distinct := by decide
  named place content hmem := by
    have hname : Path.IsName "a.shaderbundle" ∧ Path.IsName "b.shaderbundle" := by decide +kernel
    simp only [mixedFiles, List.mem_cons, Prod.mk.injEq, reduceCtorEq, and_false,
      FileNode.file.injEq, List.not_mem_nil, or_false, false_or] at hmem
    rcases hmem with ⟨rfl, -⟩ | ⟨rfl, -⟩
    · exact ⟨["d"], _, rfl, hname.1⟩
    · exact ⟨["d"], _, rfl, hname.2⟩
  leaf place content hmem node hnode := by
    simp only [mixedFiles, List.mem_cons, Prod.mk.injEq, reduceCtorEq, and_false,
      FileNode.file.injEq, List.not_mem_nil, or_false, false_or] at hmem hnode
    rcases hmem with ⟨rfl, -⟩ | ⟨rfl, -⟩ <;> rcases hnode with rfl | rfl | rfl <;> simp

theorem locate_mixed :
    mixedFiles.locate ⟨"d"⟩ = .ok (["d"], .directory) ∧
      mixedFiles.locate badPath = .ok (["d", "a.shaderbundle"], .file []) ∧
      mixedFiles.locate Session.shelfPath = .ok (["d", "b.shaderbundle"],
        .file (Bundle.encode [("x", .object [("name", .string "S")])])) := by
  obtain ⟨hdirectory, harchive⟩ := Session.components_shelf
  have hname : Path.IsName "a.shaderbundle" := by decide +kernel
  have hbad : badPath.components = [.name "d", .name "a.shaderbundle"] := by
    rw [show badPath = (Path.mk "d").join "a.shaderbundle" by decide +kernel,
      Path.components_join hname (by decide), hdirectory]
    rfl
  have hplain : badPath.namesDirectory = false ∧ Session.shelfPath.namesDirectory = false := by
    unfold Path.namesDirectory
    rw [Path.parts_eq, Path.parts_eq]
    decide +kernel
  refine ⟨?_, ?_, ?_⟩
  · simp only [FileTree.locate, FileTree.find, hdirectory]
    rfl
  · simp only [FileTree.locate, FileTree.find, hbad, hplain.1]
    rfl
  · simp only [FileTree.locate, FileTree.find, harchive, hplain.2]
    rfl

theorem archivesIn_mixed :
    Bundle.archivesIn mixedFiles ⟨"d"⟩ = .ok [badPath, Session.shelfPath] := by
  have hnames : Catalogue.ofList id (mixedFiles.filesIn ["d"])
      = ["a.shaderbundle", "b.shaderbundle"] := by decide +kernel
  have hbad : Bundle.isArchive ((Path.mk "d").join "a.shaderbundle") = true :=
    @Bundle.isArchive_join _ _ "a" (by decide +kernel) (by decide) (by decide +kernel)
      (by decide)
  have hgood : Bundle.isArchive ((Path.mk "d").join "b.shaderbundle") = true :=
    @Bundle.isArchive_join _ _ "b" (by decide +kernel) (by decide) (by decide +kernel)
      (by decide)
  have hjoin : [badPath, Session.shelfPath]
      = [(Path.mk "d").join "a.shaderbundle", (Path.mk "d").join "b.shaderbundle"] := by
    decide +kernel
  rw [Bundle.archivesIn_of_locate locate_mixed.1, hnames, hjoin]
  simp only [List.map_cons, List.map_nil, List.filter_cons, hbad, hgood, if_true, List.filter_nil]

theorem read_mixed :
    (∃ error, Bundle.read mixedFiles badPath = .error error) ∧
      Bundle.read mixedFiles Session.shelfPath = .ok ⟨Session.shelfPath,
        Bundle.sampleContents.entries, Bundle.sampleContents.payload⟩ := by
  constructor
  · cases hread : Bundle.read mixedFiles badPath with
    | error error => exact ⟨error, rfl⟩
    | ok contents =>
        have hnone : (Bundle.read mixedFiles badPath).toOption.isSome = false := by
          unfold Bundle.read
          rw [locate_mixed.2.1]
          decide +kernel
        simp [hread, Except.toOption] at hnone
  · rw [← Session.read_shelf]
    exact Bundle.read_congr (locate_mixed.2.2.trans Session.locate_shelf.2.symm)

/-- The manifest of the archive. -/
def mixedManifest : Manifest Engine.MemoryBundle :=
  ⟨Session.shelfPath, some ⟨Session.shelfPath, [("x", "S")]⟩, Bundle.sampleContents.entries⟩

theorem additions_mixed :
    (fresh ⟨0, 0⟩).additions Session.sampleEngine mixedFiles [badPath, Session.shelfPath]
      = [mixedManifest] := by
  have hdecode : Payload.decode? Bundle.sampleContents.payload = some [("x", "S")] := by
    decide +kernel
  obtain ⟨⟨error, hbad⟩, hgood⟩ := read_mixed
  simp [additions, addition?, isLoaded, fresh, hbad, hgood, Session.sampleEngine,
    Engine.inMemory, Engine.Tally.loadBundle, hdecode, mixedManifest]

theorem loadLocal_of_mixed :
    let repository : Repository Engine.Tally Engine.MemoryBundle := .fresh ⟨0, 0⟩
    let loaded := repository.loadLocal Session.sampleEngine mixedFiles ⟨"d"⟩
    (repository.inFlight = [] ∧ mixedFiles.Sound ∧ mixedFiles.isDirectory ⟨"d"⟩ = true) ∧
    loaded.2 = 1 ∧ loaded.1.declared = [mixedManifest] ∧
    (loaded.1.loadLocal Session.sampleEngine mixedFiles ⟨"d"⟩).2 = 0 ∧
    repository.loadLocal Session.sampleEngine (mixedFiles.remove badPath) ⟨"d"⟩ = loaded := by
  intro repository loaded
  have hdirectory : mixedFiles.isDirectory ⟨"d"⟩ = true :=
    FileTree.isDirectory_iff.mpr ⟨_, locate_mixed.1⟩
  obtain ⟨place, archives, -, harchives, -, -, hcount, hdeclared, -, -, -, -, -, hagain, hpruned⟩ :=
    @loadLocal_of_directory _ _ _ repository Session.sampleEngine rfl sound_mixed _ hdirectory
  obtain rfl := Except.ok.inj (archivesIn_mixed.symm.trans harchives)
  have hadded : repository.additions Session.sampleEngine mixedFiles [badPath, Session.shelfPath]
      = [mixedManifest] := additions_mixed
  rw [hadded] at hcount hdeclared hpruned
  have hbad : badPath ∉ [mixedManifest].map Manifest.path := by decide +kernel
  have hdeleted := hpruned [badPath] (List.nodup_singleton _)
    (List.forall_mem_singleton.mpr ⟨List.mem_cons_self, hbad⟩)
  exact ⟨⟨rfl, sound_mixed, hdirectory⟩, hcount, hdeclared, (hagain (decided_inMemory 0 0)).1,
    hdeleted.2 (traceless_inMemory 0 0)⟩

end Repository

end ShaderMend
