import ShaderMend.Proofs.Bundle.Contents
import ShaderMend.Proofs.Repository.Entries
import ShaderMend.Session

/-!
# What a piece of work does

Whatever a task does between two pauses is a row of small acts on the repository: a cell
is asked for, filled or given up, an archive is reserved, added or given free, the
engine runs. `Act` lists them all, each with what the task holds on to before and
after it. What holds of every act holds of every session; nobody needs to look into
the tasks again.

* `Act.grows_declared` — what is declared only grows, at its end.
* `find_acts`, `materialize_acts`, `loadLocal_acts` — work that is done at once is a row
  of acts.
-/

namespace ShaderMend

variable {σ β : Type}

/-! ### Acts -/

/-- What a task holds on to between two pieces of work. -/
inductive Hold where
  | nothing
  /-- An archive that was read; its path is not reserved yet. -/
  | read (contents : Bundle.Contents)
  /-- An archive whose path is reserved while the engine loads the bundle. -/
  | reserved (contents : Bundle.Contents)
  /-- The shader of an entry was asked for, and the turn is not taken yet. -/
  | asked (entry : EntryId)
  /-- The engine loads the shader of an entry. -/
  | loading (entry : EntryId)

/-- The repository in the course of a piece of work, what its task holds on to, and
how many archives the task has added. -/
structure Footing (σ β : Type) where
  repository : Repository σ β
  hold : Hold
  added : Nat

namespace Engine

/-- Whether the engine can make the shader, in some state out of some asset. -/
def Makes (engine : Engine σ β) (shader : Shader) : Prop :=
  ∃ state bundle assetPath, (engine.loadShader state bundle assetPath).2 = some shader

/-- What a call may do to the state of the engine, whatever comes of it. -/
inductive Called (engine : Engine σ β) (state : σ) : σ → Prop where
  | bundle (path : Path) (payload : Bytes) :
      Called engine state (engine.loadBundle state path payload).1
  | shader (bundle : β) (assetPath : String) :
      Called engine state (engine.loadShader state bundle assetPath).1

/-- Whether a call in a state delivers the shader, and in which state it leaves the engine. -/
def Delivers (engine : Engine σ β) (state : σ) (shader : Shader) (after : σ) : Prop :=
  ∃ bundle assetPath, engine.loadShader state bundle assetPath = (after, some shader)

theorem Delivers.makes {engine : Engine σ β} {state after : σ} {shader : Shader}
    (h : engine.Delivers state shader after) : engine.Makes shader := by
  obtain ⟨bundle, assetPath, hload⟩ := h
  exact ⟨state, bundle, assetPath, congrArg Prod.snd hload⟩

end Engine

namespace Repository

/-- Whether an entry is the one that its manifest offers in the place of shaders without
replacement. -/
def IsMarker (repository : Repository σ β) (id : EntryId) : Prop :=
  repository.marker? id.manifest = some id

/-- The repository with the manifest of an archive added. -/
def append (repository : Repository σ β) (contents : Bundle.Contents) (bundle : β) :
    Repository σ β :=
  { repository with
    manifests := repository.manifests ++ [⟨contents.path, some bundle, contents.entries⟩] }

end Repository

/-- What a task holds on to after its turn at the cell of an entry. -/
def Hold.ofTurn (entry : EntryId) : Cell.Turn → Hold
  | .ready _ => .nothing
  | .hold => .loading entry
  | .wait => .asked entry

/-- The acts of a task. -/
inductive Act (engine : Engine σ β) (task : TaskId) : Footing σ β → Footing σ β → Prop where
  | advance {repository hold added} {stage : Stage} (hstage : stage ≠ .ready) :
      Act engine task ⟨repository, hold, added⟩ ⟨repository.advance stage, hold, added⟩
  | completeWeb {repository hold added} :
      Act engine task ⟨repository, hold, added⟩ ⟨repository.completeWeb, hold, added⟩
  | run {repository hold added} {state : σ} (hcalled : engine.Called repository.engine state) :
      Act engine task ⟨repository, hold, added⟩ ⟨{ repository with engine := state }, hold, added⟩
  | read {repository contents added} (hparsed : Entry.Parsed contents.entries) :
      Act engine task ⟨repository, .nothing, added⟩ ⟨repository, .read contents, added⟩
  | forget {repository contents added} :
      Act engine task ⟨repository, .read contents, added⟩ ⟨repository, .nothing, added⟩
  | reserve {repository contents added} (hloaded : ¬ repository.isLoaded contents.path)
      (hreserved : ¬ repository.isReserved contents.path) :
      Act engine task ⟨repository, .read contents, added⟩
        ⟨repository.reserve contents.path, .reserved contents, added⟩
  | add {repository contents added} (bundle : β) (hloaded : ¬ repository.isLoaded contents.path)
      (hreserved : ¬ repository.isReserved contents.path) :
      Act engine task ⟨repository, .read contents, added⟩
        ⟨repository.append contents bundle, .nothing, added + 1⟩
  | addReserved {repository contents added} (bundle : β) :
      Act engine task ⟨repository, .reserved contents, added⟩
        ⟨(repository.append contents bundle).release contents.path, .nothing, added + 1⟩
  | release {repository contents added} :
      Act engine task ⟨repository, .reserved contents, added⟩
        ⟨repository.release contents.path, .nothing, added⟩
  | ask {repository added} (entry : EntryId) :
      Act engine task ⟨repository, .nothing, added⟩
        ⟨repository.modifyCell entry fun cell => (cell.request task).1,
         .ofTurn entry ((repository.cell entry).request task).2, added⟩
  | take {repository entry added} :
      Act engine task ⟨repository, .asked entry, added⟩
        ⟨repository, .ofTurn entry ((repository.cell entry).turn task), added⟩
  | fail {repository entry added} :
      Act engine task ⟨repository, .loading entry, added⟩
        ⟨repository.modifyCell entry Cell.fail, .nothing, added⟩
  | fill {repository entry added} {shader : Shader} {state : σ}
      (hdelivers : engine.Delivers repository.engine shader state) :
      Act engine task ⟨repository, .loading entry, added⟩
        ⟨Repository.modifyCell { repository with engine := state } entry (·.fill shader),
         .nothing, added⟩
  | leave {repository hold entry added} (hhold : hold = .asked entry ∨ hold = .loading entry) :
      Act engine task ⟨repository, hold, added⟩
        ⟨repository.modifyCell entry (·.leave task), .nothing, added⟩
  | store {repository hold added} (entry : EntryId) {shader : Shader} {state : σ}
      (hdelivers : engine.Delivers repository.engine shader state) :
      Act engine task ⟨repository, hold, added⟩
        ⟨Repository.modifyCell { repository with engine := state } entry
           fun cell => (cell.store shader).1, hold, added⟩
  /-- A marker that has its shader. -/
  | keep {repository hold entry added} {shader : Shader} (hmarker : repository.IsMarker entry)
      (hstored : (repository.cell entry).stored = some shader) :
      Act engine task ⟨repository, hold, added⟩ ⟨repository.keepInvalid shader, hold, added⟩
  /-- A marker that has none: what the engine delivers for it is stored, unless somebody
  holds the cell. -/
  | keepLoaded {repository hold entry added} {shader : Shader} {state : σ}
      (hmarker : repository.IsMarker entry) (hempty : (repository.cell entry).stored = none)
      (hdelivers : engine.Delivers repository.engine shader state) :
      Act engine task ⟨repository, hold, added⟩
        ⟨Repository.keepInvalid
           (Repository.modifyCell { repository with engine := state } entry
             fun cell => (cell.store shader).1) shader, hold, added⟩

/-- Rows of acts. -/
abbrev Acts (engine : Engine σ β) (task : TaskId) : Footing σ β → Footing σ β → Prop :=
  Relation.ReflTransGen (Act engine task)

/-! ### What is declared -/

/-- What stands in a list stands at the same place of a longer one. -/
theorem getElem?_mono {α : Type} {first second : List α} (h : first <+: second) {index : Nat}
    {item : α} (hitem : first[index]? = some item) : second[index]? = some item := by
  obtain ⟨rest, rfl⟩ := h
  exact List.getElem?_append_left (List.getElem?_eq_some_iff.mp hitem).1 ▸ hitem

theorem Act.grows_declared {engine : Engine σ β} {task : TaskId} {before after : Footing σ β}
    (hact : Act engine task before after) :
    before.repository.declared <+: after.repository.declared := by
  have happend : ∀ (repository : Repository σ β) (contents : Bundle.Contents) (bundle : β),
      repository.declared <+: (repository.append contents bundle).declared := by
    intro repository contents bundle
    simp only [Repository.declared, Repository.append, List.map_append]
    exact List.prefix_append _ _
  have hcell : ∀ (repository : Repository σ β) (id : EntryId) (change : Cell → Cell),
      repository.declared <+: (repository.modifyCell id change).declared := by
    intro repository id change
    exact ⟨[], by rw [List.append_nil, Repository.declared_modifyCell]⟩
  have hloaded : ∀ (repository : Repository σ β) (state : σ) (id : EntryId)
      (change : Cell → Cell), repository.declared
        <+: (Repository.modifyCell { repository with engine := state } id change).declared :=
    fun repository state id change => hcell { repository with engine := state } id change
  cases hact with
  | add bundle hloaded hreserved => exact happend _ _ bundle
  | addReserved bundle => exact happend _ _ bundle
  | ask entry => exact hcell _ _ _
  | fail => exact hcell _ _ _
  | fill hdelivers => exact hloaded _ _ _ _
  | leave hleft => exact hcell _ _ _
  | store entry hdelivers => exact hloaded _ _ _ _
  | @keepLoaded repository hold entry added shader state hmarker hempty hdelivers =>
      exact hloaded repository state entry fun cell => (cell.store shader).1
  | _ => exact List.prefix_rfl

theorem Acts.grows_declared {engine : Engine σ β} {task : TaskId} {before after : Footing σ β}
    (hacts : Acts engine task before after) :
    before.repository.declared <+: after.repository.declared := by
  induction hacts with
  | refl => exact List.prefix_rfl
  | tail _ hact ih => exact ih.trans hact.grows_declared

namespace Repository

/-- The marker of a manifest depends on what it declares. -/
theorem marker?_eq (repository : Repository σ β) (index : Nat) :
    repository.marker? index
      = (repository.declared[index]?.bind Manifest.invalidMarker?).map fun entry =>
          ⟨index, entry.assetPath⟩ := by
  have hmarker : ∀ manifest : Manifest β,
      manifest.unfilled.invalidMarker?.map Entry.assetPath
        = manifest.invalidMarker?.map Entry.assetPath := by
    intro manifest
    simp only [Manifest.invalidMarker?, Manifest.unfilled, List.find?_map, Option.map_map]
    rfl
  simp only [marker?, declared, List.getElem?_map]
  cases repository.manifests[index]? with
  | none => rfl
  | some manifest =>
      have hpath := congrArg (Option.map fun path => EntryId.mk index path) (hmarker manifest)
      simp only [Option.map_map] at hpath
      simp only [Option.map_some, Option.bind_some]
      refine Eq.trans ?_ hpath.symm
      cases hfound : manifest.invalidMarker? <;> simp [hfound]

/-- A marker is an entry. -/
theorem IsMarker.isSome_lookup? {repository : Repository σ β} {id : EntryId}
    (h : repository.IsMarker id) : (repository.lookup? id).isSome := by
  obtain ⟨manifest, hmanifest, hmarker⟩ := Option.bind_eq_some_iff.mp h
  obtain ⟨entry, hentry, hid⟩ := Option.bind_eq_some_iff.mp hmarker
  have hpath : entry.assetPath = id.assetPath := congrArg EntryId.assetPath (Option.some.inj hid)
  have hmem := List.mem_of_find?_eq_some hentry
  rw [lookup?, hmanifest]
  exact List.find?_isSome.mpr ⟨entry, hmem, by simpa using hpath⟩

theorem IsMarker.mono {before after : Repository σ β} {id : EntryId}
    (h : before.IsMarker id) (hdeclared : before.declared <+: after.declared) :
    after.IsMarker id := by
  rw [IsMarker, marker?_eq] at h ⊢
  obtain ⟨entry, hentry, hid⟩ := Option.map_eq_some_iff.mp h
  obtain ⟨manifest, hmanifest, hmarker⟩ := Option.bind_eq_some_iff.mp hentry
  rw [getElem?_mono hdeclared hmanifest]
  exact Option.map_eq_some_iff.mpr ⟨entry, hmarker, hid⟩

end Repository

open Relation (ReflTransGen)

/-! ### Work that is done at once -/

section AtOnce

variable (engine : Engine σ β) (task : TaskId)

theorem Repository.register_cases (repository : Repository σ β) (engine : Engine σ β)
    (contents : Bundle.Contents) :
    ∃ state : σ, engine.Called repository.engine state ∧
      (repository.register engine contents = ({ repository with engine := state }, false) ∨
        ∃ bundle, repository.register engine contents
          = ({ repository with engine := state }.append contents bundle, true)) := by
  have hcalled : engine.Called repository.engine
      (engine.loadBundle repository.engine contents.path contents.payload).1 :=
    .bundle contents.path contents.payload
  unfold register
  split <;> rename_i h <;> rw [h] at hcalled
  · exact ⟨_, hcalled, Or.inl rfl⟩
  · exact ⟨_, hcalled, Or.inr ⟨_, rfl⟩⟩

/-- The engine delivers the shader, or is called in vain. -/
theorem Repository.loadShader_cases (repository : Repository σ β) (engine : Engine σ β)
    (archive : Path) (bundle : β) (assetPath : String) :
    ∃ state : σ,
      (engine.Called repository.engine state ∧
        repository.loadShader engine archive bundle assetPath
          = ({ repository with engine := state }, .error (.assetNotFound archive assetPath))) ∨
      ∃ shader, engine.Delivers repository.engine shader state ∧
        repository.loadShader engine archive bundle assetPath
          = ({ repository with engine := state }, .ok shader) := by
  have hcalled : engine.Called repository.engine
      (engine.loadShader repository.engine bundle assetPath).1 := .shader bundle assetPath
  unfold loadShader
  split <;> rename_i h
  · exact ⟨_, Or.inr ⟨_, ⟨bundle, assetPath, h⟩, rfl⟩⟩
  · rw [h] at hcalled
    exact ⟨_, Or.inl ⟨hcalled, rfl⟩⟩

theorem Cell.store_of_empty {cell : Cell} (h : cell.stored = none) (shader : Shader) :
    (cell.store shader).2 = shader := by
  unfold store
  rw [h]
  cases cell.holder <;> rfl

/-- What a load at once of the shader of an entry comes to, and why. -/
inductive Repository.Tried (engine : Engine σ β) (repository : Repository σ β)
    (source : Source β) (id : EntryId) : Repository σ β × Except RepositoryError Shader → Prop where
  | stored {shader : Shader} (hstored : (repository.cell id).stored = some shader) :
      Tried engine repository source id (repository, .ok shader)
  | unbound (hempty : (repository.cell id).stored = none) (hbundle : source.bundle = none) :
      Tried engine repository source id (repository, .error (.bundleNotLoaded source.archive))
  | missing {bundle : β} {state : σ} (hempty : (repository.cell id).stored = none)
      (hbundle : source.bundle = some bundle)
      (hload : engine.loadShader repository.engine bundle id.assetPath = (state, none)) :
      Tried engine repository source id
        ({ repository with engine := state },
         .error (.assetNotFound source.archive id.assetPath))
  | loaded {bundle : β} {state : σ} {shader : Shader}
      (hempty : (repository.cell id).stored = none) (hbundle : source.bundle = some bundle)
      (hload : engine.loadShader repository.engine bundle id.assetPath = (state, some shader)) :
      Tried engine repository source id
        (Repository.modifyCell { repository with engine := state } id
          fun cell => (cell.store shader).1, .ok shader)

theorem Repository.tried (engine : Engine σ β) (repository : Repository σ β) (source : Source β)
    (id : EntryId) :
    repository.Tried engine source id (repository.materialize engine source id) := by
  unfold materialize loadShader
  split
  · rename_i hstored
    exact .stored hstored
  · rename_i hempty hbundle
    exact .unbound hempty hbundle
  · rename_i bundle hempty hbundle
    rcases hload : engine.loadShader repository.engine bundle id.assetPath with
      ⟨state, _ | shader⟩
    · exact .missing hempty hbundle hload
    · have hgiven := Cell.store_of_empty hempty shader
      have hcell : cell { repository with engine := state } id = repository.cell id := rfl
      dsimp only
      rw [hcell, hgiven]
      exact .loaded hempty hbundle hload

/-- What a load at once of the shader of an entry comes to, by what the engine may do. -/
inductive Repository.Materialized (engine : Engine σ β) (repository : Repository σ β)
    (source : Source β) (id : EntryId) : Repository σ β × Except RepositoryError Shader → Prop where
  | stored {shader : Shader} (hstored : (repository.cell id).stored = some shader) :
      Materialized engine repository source id (repository, .ok shader)
  | unbound (hbundle : source.bundle = none) :
      Materialized engine repository source id
        (repository, .error (.bundleNotLoaded source.archive))
  | missing {state : σ} (hcalled : engine.Called repository.engine state) :
      Materialized engine repository source id
        ({ repository with engine := state },
         .error (.assetNotFound source.archive id.assetPath))
  | loaded {shader : Shader} {state : σ} (hempty : (repository.cell id).stored = none)
      (hdelivers : engine.Delivers repository.engine shader state) :
      Materialized engine repository source id
        (Repository.modifyCell { repository with engine := state } id
          fun cell => (cell.store shader).1, .ok shader)

theorem Engine.Called.of_loadShader {engine : Engine σ β} {before state : σ} {bundle : β}
    {assetPath : String} {shader? : Option Shader}
    (hload : engine.loadShader before bundle assetPath = (state, shader?)) :
    engine.Called before state := by
  have hcalled : engine.Called before _ := .shader bundle assetPath
  rwa [hload] at hcalled

theorem Repository.materialized (engine : Engine σ β) (repository : Repository σ β)
    (source : Source β) (id : EntryId) :
    repository.Materialized engine source id (repository.materialize engine source id) := by
  have htried := repository.tried engine source id
  generalize repository.materialize engine source id = result at htried
  cases htried with
  | stored hstored => exact .stored hstored
  | unbound _ hbundle => exact .unbound hbundle
  | missing _ _ hload => exact .missing (.of_loadShader hload)
  | loaded hempty _ hload => exact .loaded hempty ⟨_, _, hload⟩

theorem Repository.materialize_acts (repository : Repository σ β) (source : Source β)
    (id : EntryId) (hold : Hold) (added : Nat) :
    Acts engine task ⟨repository, hold, added⟩
      ⟨(repository.materialize engine source id).1, hold, added⟩ := by
  have hcases := repository.materialized engine source id
  generalize repository.materialize engine source id = result at hcases
  cases hcases with
  | stored hstored => exact .refl
  | unbound hbundle => exact .refl
  | missing hcalled => exact .single (.run hcalled)
  | loaded hempty hdelivers => exact .single (.store id hdelivers)

/-- A marker names itself. -/
theorem Repository.isMarker_of_marker? {repository : Repository σ β} {index : Nat} {id : EntryId}
    (h : repository.marker? index = some id) : repository.IsMarker id := by
  obtain ⟨manifest, -, hmarker⟩ := Option.bind_eq_some_iff.mp h
  obtain ⟨entry, -, hid⟩ := Option.bind_eq_some_iff.mp hmarker
  obtain rfl := Option.some.inj hid
  exact h

theorem Repository.find_acts (repository : Repository σ β) (query : Signature) (hold : Hold)
    (added : Nat) :
    Acts engine task ⟨repository, hold, added⟩
      ⟨(repository.find engine query).1, hold, added⟩ := by
  unfold find
  split
  · exact .refl
  · rename_i candidate _
    have hacts := repository.materialize_acts engine task
      (repository.source candidate.entry.manifest) candidate.entry hold added
    dsimp only
    split <;> rename_i h <;> simpa only [h] using hacts

theorem Repository.loadArchive_acts (repository : Repository σ β) (files : FileTree) (path : Path)
    (added : Nat) :
    Acts engine task ⟨repository, .nothing, added⟩
      ⟨(repository.loadArchive engine files path).1, .nothing,
       added + if (repository.loadArchive engine files path).2 = .loaded then 1 else 0⟩ := by
  unfold loadArchive
  split
  · exact .refl
  · rename_i hloaded
    split
    · exact .refl
    · rename_i contents hread
      split
      · exact .refl
      · rename_i hreserved
        have hpath := Bundle.path_of_read hread
        rw [← hpath] at hloaded hreserved
        have hparsed := Bundle.parsed_of_read hread
        obtain ⟨state, hcalled, h | ⟨bundle, h⟩⟩ := repository.register_cases engine contents
        · rw [h]
          exact .tail (.tail (.single (.read hparsed)) (.run hcalled)) .forget
        · rw [h]
          exact .tail (.tail (.single (.read hparsed)) (.run hcalled))
            (.add bundle hloaded hreserved)

theorem Repository.loadArchives_acts (files : FileTree) (paths : List Path)
    (repository : Repository σ β) (added : Nat) :
    Acts engine task ⟨repository, .nothing, added⟩
      ⟨(loadArchives engine files paths repository).1, .nothing,
       added + (loadArchives engine files paths repository).2.added⟩ := by
  induction paths generalizing repository added with
  | nil => exact .refl
  | cons path rest ih =>
      have hfirst := repository.loadArchive_acts engine task files path added
      refine hfirst.trans ?_
      have hrest := ih (repository.loadArchive engine files path).1
        (added + if (repository.loadArchive engine files path).2 = .loaded then 1 else 0)
      have hsum : added + (loadArchives engine files (path :: rest) repository).2.added
          = (added + if (repository.loadArchive engine files path).2 = .loaded then 1 else 0)
            + (loadArchives engine files rest
                (repository.loadArchive engine files path).1).2.added := by
        simp only [loadArchives, Loads.added, List.countP_cons, decide_eq_true_eq]
        omega
      rw [hsum]
      exact hrest

theorem Repository.cacheInvalidFrom_acts (indices : List Nat) (repository : Repository σ β)
    (hold : Hold) (added : Nat) :
    Acts engine task ⟨repository, hold, added⟩
      ⟨cacheInvalidFrom engine indices repository, hold, added⟩ := by
  induction indices generalizing repository with
  | nil => exact .refl
  | cons index rest ih =>
      unfold cacheInvalidFrom
      split
      · exact ih repository
      · rename_i id hid
        have hmarker := isMarker_of_marker? hid
        have hcases := repository.materialized engine (repository.source index) id
        generalize repository.materialize engine (repository.source index) id = result at hcases
        cases hcases with
        | stored hstored => exact .single (.keep hmarker hstored)
        | unbound hbundle => exact ih repository
        | missing hcalled => exact .head (.run hcalled) (ih _)
        | loaded hempty hdelivers => exact .single (.keepLoaded hmarker hempty hdelivers)

theorem Repository.loadLocal_acts (repository : Repository σ β) (files : FileTree)
    (directory : Path) (added : Nat) :
    Acts engine task ⟨repository, .nothing, added⟩
      ⟨(repository.loadLocal engine files directory).1, .nothing,
       added + (repository.loadLocal engine files directory).2⟩ := by
  unfold loadLocal
  split
  · refine (repository.loadArchives_acts engine task files
      ((Bundle.archivesIn files directory).toOption.getD []) added).trans ?_
    refine ReflTransGen.tail ?_ (.advance (by decide))
    unfold cacheInvalid
    split
    · exact .refl
    · exact cacheInvalidFrom_acts engine task _ _ _ _
  · exact .single (.advance (by decide))

end AtOnce

end ShaderMend
