import ShaderMend.Repository.Search

/-!
# Loading a directory

All archives of a directory are loaded in ascending order; those that cannot be used
are passed over. Then the shader shown in the place of shaders without replacement is
loaded, if there is none yet and some manifest offers one.
-/

namespace ShaderMend.Repository

variable {σ β : Type}

/-- What becomes of an archive. -/
inductive ArchiveLoad where
  | loaded
  | alreadyLoaded
  | skipped
  deriving DecidableEq, Repr

/-- What became of archives, in the order of their loads. -/
abbrev Loads := List (Path × ArchiveLoad)

/-- The number of archives that were added. -/
def Loads.added (loads : Loads) : Nat :=
  loads.countP (·.2 = .loaded)

/-- Loads an archive at once. One that is being loaded is passed over. -/
def loadArchive (repository : Repository σ β) (engine : Engine σ β) (files : FileTree)
    (path : Path) : Repository σ β × ArchiveLoad :=
  if repository.isLoaded path then (repository, .alreadyLoaded)
  else
    match Bundle.read files path with
    | .error _ => (repository, .skipped)
    | .ok contents =>
        if repository.isReserved path then (repository, .skipped)
        else
          match repository.register engine contents with
          | (repository, true) => (repository, .loaded)
          | (repository, false) => (repository, .skipped)

/-- Loads archives one after the other. -/
def loadArchives (engine : Engine σ β) (files : FileTree) :
    List Path → Repository σ β → Repository σ β × Loads
  | [], repository => (repository, [])
  | path :: rest, repository =>
      let (repository, outcome) := repository.loadArchive engine files path
      let (repository, loads) := loadArchives engine files rest repository
      (repository, (path, outcome) :: loads)

/-- Takes the first of the manifests with these numbers whose marker can be loaded. -/
def cacheInvalidFrom (engine : Engine σ β) : List Nat → Repository σ β → Repository σ β
  | [], repository => repository
  | index :: rest, repository =>
      match repository.marker? index with
      | none => cacheInvalidFrom engine rest repository
      | some id =>
          match repository.materialize engine (repository.source index) id with
          | (repository, .ok shader) => repository.keepInvalid shader
          | (repository, .error _) => cacheInvalidFrom engine rest repository

/-- The numbers of all manifests. -/
def indices (repository : Repository σ β) : List Nat :=
  List.range repository.manifests.length

/-- Loads the shader shown in the place of shaders without replacement, unless there
is one. -/
def cacheInvalid (repository : Repository σ β) (engine : Engine σ β) : Repository σ β :=
  if repository.invalid.isSome then repository
  else cacheInvalidFrom engine repository.indices repository

/-- Loads the archives of a directory and counts those that were added. Where there is
no directory there is nothing to load. -/
def loadLocal (repository : Repository σ β) (engine : Engine σ β) (files : FileTree)
    (directory : Path) : Repository σ β × Nat :=
  if files.isDirectory directory then
    let archives := (Bundle.archivesIn files directory).toOption.getD []
    let (repository, loads) := loadArchives engine files archives repository
    ((repository.cacheInvalid engine).advance .locallyLoaded, loads.added)
  else (repository.advance .locallyLoaded, 0)

end ShaderMend.Repository
