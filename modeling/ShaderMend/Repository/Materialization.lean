import ShaderMend.Repository.Search
import ShaderMend.Suspension

/-!
# Loading a shader without blocking

Tasks that need the shader of one entry share its load. The first holds the cell of
the entry while the engine loads; the others queue at the cell. A load that fails
leaves the entry empty, and the next in line loads again.
-/

namespace ShaderMend

/-- A task that needs the shader of an entry: it waits for its turn, or the engine
loads for it. -/
inductive Materialization (β : Type) where
  | waiting (source : Source β) (entry : EntryId)
  | loading (archive : Path) (bundle : β) (entry : EntryId)
  deriving Repr

namespace Materialization

variable {σ β : Type}

/-- What the task has in the end. -/
abbrev Result := Except RepositoryError Shader

/-- Goes on as the turn at the cell demands. -/
def proceed (engine : Engine σ β) (now : Nat) (source : Source β) (entry : EntryId)
    (repository : Repository σ β) : Cell.Turn → Repository σ β × Progress (Materialization β) Result
  | .ready shader => (repository, .done (.ok shader))
  | .wait => (repository, .paused (.waiting source entry) (.turn entry))
  | .hold =>
      match source.bundle with
      | none =>
          (repository.modifyCell entry Cell.fail, .done (.error (.bundleNotLoaded source.archive)))
      | some bundle =>
          (repository,
           .paused (.loading source.archive bundle entry) (.until (now + engine.shaderDelay)))

/-- A task asks for the shader of an entry, to be loaded from a source. -/
def start (engine : Engine σ β) (task : TaskId) (now : Nat) (source : Source β)
    (entry : EntryId) (repository : Repository σ β) :
    Repository σ β × Progress (Materialization β) Result :=
  let turn := ((repository.cell entry).request task).2
  let repository := repository.modifyCell entry fun cell => (cell.request task).1
  proceed engine now source entry repository turn

/-- The task goes on after its pause. -/
def resume (engine : Engine σ β) (task : TaskId) (now : Nat) (repository : Repository σ β) :
    Materialization β → Repository σ β × Progress (Materialization β) Result
  | .waiting source entry =>
      proceed engine now source entry repository ((repository.cell entry).turn task)
  | .loading archive bundle entry =>
      match repository.loadShader engine archive bundle entry.assetPath with
      | (repository, .ok shader) =>
          (repository.modifyCell entry (·.fill shader), .done (.ok shader))
      | (repository, .error error) => (repository.modifyCell entry Cell.fail, .done (.error error))

/-- The entry that the task needs. -/
def entry : Materialization β → EntryId
  | .waiting _ entry => entry
  | .loading _ _ entry => entry

/-- The task is dropped and leaves the cell. -/
def drop (task : TaskId) (state : Materialization β) (repository : Repository σ β) :
    Repository σ β :=
  repository.modifyCell state.entry (·.leave task)

end Materialization

/-- A task that looks for a replacement and needs its shader. -/
structure Lookup (β : Type) where
  candidate : Candidate
  materialization : Materialization β
  deriving Repr

namespace Lookup

variable {σ β : Type}

/-- What the task has in the end. -/
abbrev Result := Except RepositoryError (Option Replacement)

/-- Takes a step of the load as one of the lookup. -/
def ofMaterialization (candidate : Candidate) :
    Repository σ β × Progress (Materialization β) Materialization.Result →
      Repository σ β × Progress (Lookup β) Result
  | (repository, progress) =>
      (repository, progress.within (⟨candidate, ·⟩)
        (·.map fun shader => some { candidate with shader }))

/-- A task looks for the best replacement for what a query asks for. -/
def start (engine : Engine σ β) (task : TaskId) (now : Nat) (query : Signature)
    (repository : Repository σ β) : Repository σ β × Progress (Lookup β) Result :=
  match repository.closest? query with
  | none => (repository, .done (.ok none))
  | some candidate =>
      ofMaterialization candidate
        (Materialization.start engine task now (repository.source candidate.entry.manifest)
          candidate.entry repository)

/-- The task goes on after its pause. -/
def resume (engine : Engine σ β) (task : TaskId) (now : Nat) (lookup : Lookup β)
    (repository : Repository σ β) : Repository σ β × Progress (Lookup β) Result :=
  ofMaterialization lookup.candidate
    (lookup.materialization.resume engine task now repository)

/-- The task is dropped. -/
def drop (task : TaskId) (lookup : Lookup β) (repository : Repository σ β) : Repository σ β :=
  lookup.materialization.drop task repository

end Lookup

end ShaderMend
