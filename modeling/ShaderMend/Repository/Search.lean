import ShaderMend.Repository

/-!
# Searching a repository

The closest entry is the first that matches fully, else the first among those with
the least score. Its shader is loaded when it is first needed and then kept in the
entry.
-/

namespace ShaderMend

/-- An entry found for a query. -/
structure Candidate where
  entry : EntryId
  name : String
  found : Match
  deriving DecidableEq, Repr

/-- What was found for a query: an entry, how well it fits, and its shader. -/
structure Replacement extends Candidate where
  shader : Shader
  deriving DecidableEq, Repr

namespace Repository

variable {σ β : Type}

/-- Goes through entries until one matches fully; of the others the best stays. -/
def scan (query : Signature) (best : BestMatch Candidate) :
    List (EntryId × Entry) → Option Candidate
  | [] => best.best?.map (·.1)
  | (id, entry) :: rest =>
      match query.match? entry.signature with
      | none => scan query best rest
      | some found =>
          let candidate := ⟨id, entry.signature.name, found⟩
          if found.isFull then some candidate else scan query (best.offer candidate found) rest

/-- The entry that fits a query best. -/
def closest? (repository : Repository σ β) (query : Signature) : Option Candidate :=
  scan query .empty repository.entries

/-- Loads the shader of an asset from a bundle. -/
def loadShader (repository : Repository σ β) (engine : Engine σ β) (archive : Path) (bundle : β)
    (assetPath : String) : Repository σ β × Except RepositoryError Shader :=
  match engine.loadShader repository.engine bundle assetPath with
  | (state, some shader) => ({ repository with engine := state }, .ok shader)
  | (state, none) =>
      ({ repository with engine := state }, .error (.assetNotFound archive assetPath))

/-- The shader of an entry, loaded from a source unless the entry has one. -/
def materialize (repository : Repository σ β) (engine : Engine σ β) (source : Source β)
    (id : EntryId) : Repository σ β × Except RepositoryError Shader :=
  match (repository.cell id).stored, source.bundle with
  | some shader, _ => (repository, .ok shader)
  | none, none => (repository, .error (.bundleNotLoaded source.archive))
  | none, some bundle =>
      match repository.loadShader engine source.archive bundle id.assetPath with
      | (repository, .error error) => (repository, .error error)
      | (repository, .ok shader) =>
          (repository.modifyCell id fun cell => (cell.store shader).1,
           .ok ((repository.cell id).store shader).2)

/-- The best replacement for what a query asks for. -/
def find (repository : Repository σ β) (engine : Engine σ β) (query : Signature) :
    Repository σ β × Except RepositoryError (Option Replacement) :=
  match repository.closest? query with
  | none => (repository, .ok none)
  | some candidate =>
      let source := repository.source candidate.entry.manifest
      match repository.materialize engine source candidate.entry with
      | (repository, .ok shader) => (repository, .ok (some { candidate with shader }))
      | (repository, .error error) => (repository, .error error)

end Repository

end ShaderMend
