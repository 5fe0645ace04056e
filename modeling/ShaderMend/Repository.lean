import ShaderMend.Bundle
import ShaderMend.Engine
import ShaderMend.Matching

/-!
# Repositories

A repository holds the manifests of the archives that are loaded, in the order of
loading. Manifests are only added, at the end and with their bundle, and never two of
one path; a load that does not block reserves the path of its archive meanwhile. The
repository passes through its stages in one direction, and the flag that the web
phase is over is never lowered.
-/

namespace ShaderMend

/-- Why a shader cannot be had from a repository. -/
inductive RepositoryError where
  | notMainThread
  | bundleNotLoaded (archive : Path)
  | assetNotFound (archive : Path) (assetPath : String)
  deriving DecidableEq, Repr

/-- The text shown for a failure. -/
def RepositoryError.message : RepositoryError → String
  | .notMainThread => "les chargements natifs doivent être faits depuis le thread principal"
  | .bundleNotLoaded archive => s!"le bundle natif de {archive.text} n'a jamais été chargé"
  | .assetNotFound archive assetPath => s!"asset {assetPath} introuvable dans {archive.text}"

/-- How far a repository has come. -/
inductive Stage where
  | empty
  | locallyLoaded
  | webLoaded
  | ready
  deriving DecidableEq, Repr

namespace Stage

/-- The place of a stage in their order. -/
def rank : Stage → Nat
  | .empty => 0
  | .locallyLoaded => 1
  | .webLoaded => 2
  | .ready => 3

/-- The name of a stage. -/
def name : Stage → String
  | .empty => "Empty"
  | .locallyLoaded => "LocallyLoaded"
  | .webLoaded => "WebLoaded"
  | .ready => "Ready"

/-- The later of two stages. -/
def advance (stage next : Stage) : Stage :=
  if stage.rank < next.rank then next else stage

theorem rank_advance (stage next : Stage) :
    (stage.advance next).rank = max stage.rank next.rank := by
  unfold advance
  split <;> omega

end Stage

/-- An entry of a repository: the number of its manifest and the path of its asset. -/
structure EntryId where
  manifest : Nat
  assetPath : String
  deriving DecidableEq, Repr

/-- Where the shaders of a manifest come from: its archive and its bundle. -/
structure Source (β : Type) where
  archive : Path
  bundle : Option β
  deriving Repr

/-- Where the shaders of a manifest come from. -/
def Manifest.source {β : Type} (manifest : Manifest β) : Source β :=
  ⟨manifest.path, manifest.bundle⟩

/-- A repository of bundles in `β` over an engine with states in `σ`. -/
structure Repository (σ β : Type) where
  engine : σ
  manifests : List (Manifest β)
  /-- The shader shown in the place of shaders without replacement. -/
  invalid : Option Shader
  /-- Whether the web phase is over. -/
  webDone : Bool
  stage : Stage
  /-- The paths of the archives that are being loaded. -/
  inFlight : List Path
  deriving Repr

namespace Repository

variable {σ β : Type}

/-- A repository without manifests. -/
def fresh (engine : σ) : Repository σ β :=
  ⟨engine, [], none, false, .empty, []⟩

/-! ### Stages -/

/-- The repository at a stage, unless it is already past it. -/
def advance (repository : Repository σ β) (stage : Stage) : Repository σ β :=
  { repository with stage := repository.stage.advance stage }

/-- The repository with the web phase over. -/
def completeWeb (repository : Repository σ β) : Repository σ β :=
  { repository with webDone := true }.advance .ready

/-! ### Archives -/

/-- Whether the archive of a path is loaded. -/
def isLoaded (repository : Repository σ β) (path : Path) : Bool :=
  repository.manifests.any (·.path.same path)

/-- Whether the archive of a path is being loaded. -/
def isReserved (repository : Repository σ β) (path : Path) : Bool :=
  repository.inFlight.any (·.same path)

/-- Reserves a path. -/
def reserve (repository : Repository σ β) (path : Path) : Repository σ β :=
  { repository with inFlight := repository.inFlight ++ [path] }

/-- Gives a path free. -/
def release (repository : Repository σ β) (path : Path) : Repository σ β :=
  { repository with inFlight := repository.inFlight.filter fun other => !other.same path }

/-- Lets the engine load the bundle of an archive, and adds its manifest at the end;
tells whether the engine accepted the payload. -/
def register (repository : Repository σ β) (engine : Engine σ β) (contents : Bundle.Contents) :
    Repository σ β × Bool :=
  match engine.loadBundle repository.engine contents.path contents.payload with
  | (state, none) => ({ repository with engine := state }, false)
  | (state, some bundle) =>
      let manifest := ⟨contents.path, some bundle, contents.entries⟩
      ({ repository with engine := state, manifests := repository.manifests ++ [manifest] }, true)

/-! ### Entries -/

/-- The number of entries in all manifests. -/
def shaderCount (repository : Repository σ β) : Nat :=
  repository.manifests.foldl (fun count manifest => count + manifest.entries.length) 0

/-- All entries: by manifests in the order of loading, then by asset paths. -/
def entries (repository : Repository σ β) : List (EntryId × Entry) :=
  repository.manifests.zipIdx.flatMap fun (manifest, index) =>
    manifest.entries.map fun entry => (⟨index, entry.assetPath⟩, entry)

/-- An entry. -/
def lookup? (repository : Repository σ β) (id : EntryId) : Option Entry :=
  repository.manifests[id.manifest]?.bind (·.lookup? id.assetPath)

/-- The cell of an entry. -/
def cell (repository : Repository σ β) (id : EntryId) : Cell :=
  ((repository.lookup? id).map Entry.cell).getD .empty

/-- The repository with the cell of an entry changed. -/
def modifyCell (repository : Repository σ β) (id : EntryId) (change : Cell → Cell) :
    Repository σ β :=
  { repository with
    manifests := repository.manifests.modify id.manifest fun manifest =>
      manifest.modifyEntry id.assetPath fun entry => { entry with cell := change entry.cell } }

/-- Where the shaders of the manifest with a number come from. A manifest that does not
exist has no bundle. -/
def source (repository : Repository σ β) (manifest : Nat) : Source β :=
  (repository.manifests[manifest]?.map Manifest.source).getD ⟨⟨""⟩, none⟩

/-- The first entry of a manifest that stands in for shaders without replacement. -/
def marker? (repository : Repository σ β) (manifest : Nat) : Option EntryId := do
  let entry ← (← repository.manifests[manifest]?).invalidMarker?
  return ⟨manifest, entry.assetPath⟩

/-- Keeps a shader to show in the place of shaders without replacement. The first one
stays. -/
def keepInvalid (repository : Repository σ β) (shader : Shader) : Repository σ β :=
  { repository with invalid := some (repository.invalid.getD shader) }

/-! ### Report -/

/-- The line on a manifest. -/
def describe (manifest : Manifest β) : String :=
  let materialized := (manifest.entries.filter Entry.isMaterialized).length
  s!"{manifest.path.text}: {manifest.entries.length} shaders ({materialized} matérialisés)\n"

/-- The report on the bundles that are loaded. -/
def report (repository : Repository σ β) : String :=
  let invalid := if repository.invalid.isSome then "✅ chargé" else "❌ absent"
  s!"=== SHADERBUNDLES CHARGÉS ===\n\nÉtat: {repository.stage.name}\nShader invalide: {invalid}\n\n"
    ++ String.join (repository.manifests.map describe)

end Repository

end ShaderMend
