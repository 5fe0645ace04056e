import ShaderMend.Repository.LocalLoad
import ShaderMend.Repository.Materialization
import ShaderMend.World

/-!
# The web phase

Archives are downloaded and added one after the other without blocking. Each is
reserved by its path while the engine loads it, so that no archive is loaded twice at
a time. However the phase ends, also when it is dropped, the flag goes up that it is
over.
-/

namespace ShaderMend

/-- A way to download archives: how long it takes, whether it fails, the files that it
leaves behind and the paths of the archives among them. -/
structure Downloader where
  delay : Nat
  fails : Bool
  files : List (Path × FileNode)
  paths : List Path
  deriving Repr

/-- There is nothing to download. -/
def Downloader.nothing : Downloader := ⟨0, false, [], []⟩

open Repository (Loads)

/-- The web phase between two pieces of work, with what became of the archives so
far. -/
inductive WebLoad (β : Type) where
  | downloading (downloader : Downloader)
  /-- Waits for the path of the archive to be free. -/
  | reserving (contents : Bundle.Contents) (rest : List Path) (loads : Loads)
  /-- Holds the path while the engine loads the bundle. -/
  | loading (contents : Bundle.Contents) (rest : List Path) (loads : Loads)
  /-- Loads a marker; other manifests may offer one too. -/
  | caching (materialization : Materialization β) (rest : List Nat) (loads : Loads)
  deriving Repr

namespace WebLoad

variable {σ β : Type}

/-- What the phase has in the end: the number of archives that were added. -/
abbrev Result := Except RepositoryError Nat

/-- The phase is over: the flag goes up. -/
def finish (result : Result) (world : World σ β) : World σ β × Progress (WebLoad β) Result :=
  ({ world with repository := world.repository.completeWeb }, .done result)

/-- The phase is over after archives were downloaded. -/
def conclude (loads : Loads) (world : World σ β) : World σ β × Progress (WebLoad β) Result :=
  finish (.ok loads.added) { world with repository := world.repository.advance .webLoaded }

/-- Takes the first of the manifests with these numbers whose marker can be loaded. -/
def cacheInvalidFrom (engine : Engine σ β) (task : TaskId) (now : Nat) (loads : Loads) :
    List Nat → World σ β → World σ β × Progress (WebLoad β) Result
  | [], world => conclude loads world
  | index :: rest, world =>
      match world.repository.marker? index with
      | none => cacheInvalidFrom engine task now loads rest world
      | some id =>
          match Materialization.start engine task now (world.repository.source index) id
              world.repository with
          | (repository, .paused state pause) =>
              ({ world with repository }, .paused (.caching state rest loads) pause)
          | (repository, .done (.ok shader)) =>
              conclude loads { world with repository := repository.keepInvalid shader }
          | (repository, .done (.error _)) =>
              cacheInvalidFrom engine task now loads rest { world with repository }

/-- Loads the shader shown in the place of shaders without replacement, unless there
is one. -/
def cacheInvalid (engine : Engine σ β) (task : TaskId) (now : Nat) (loads : Loads)
    (world : World σ β) : World σ β × Progress (WebLoad β) Result :=
  if world.repository.invalid.isSome then conclude loads world
  else cacheInvalidFrom engine task now loads world.repository.indices world

/-- Goes on with the next of the archives that can be used and is not loaded yet. -/
def nextArchive (engine : Engine σ β) (task : TaskId) (now : Nat) :
    List Path → Loads → World σ β → World σ β × Progress (WebLoad β) Result
  | [], loads, world => cacheInvalid engine task now loads world
  | path :: rest, loads, world =>
      if world.repository.isLoaded path then
        nextArchive engine task now rest (loads ++ [(path, .alreadyLoaded)]) world
      else
        match Bundle.read world.files path with
        | .error _ => nextArchive engine task now rest (loads ++ [(path, .skipped)]) world
        | .ok contents =>
            if world.repository.isReserved path then
              (world, .paused (.reserving contents rest loads) (.until (now + retryInterval)))
            else
              ({ world with repository := world.repository.reserve path },
               .paused (.loading contents rest loads) (.until (now + engine.bundleDelay)))

/-- The phase begins with the download into a directory. It needs the main thread. -/
def start (thread : Thread) (now : Nat) (downloader : Downloader) (world : World σ β) :
    World σ β × Progress (WebLoad β) Result :=
  match thread with
  | .other => finish (.error .notMainThread) world
  | .main => (world, .paused (.downloading downloader) (.until (now + downloader.delay)))

/-- The download is over: its files are there, unless it failed. -/
def arrive (engine : Engine σ β) (task : TaskId) (now : Nat) (downloader : Downloader)
    (world : World σ β) : World σ β × Progress (WebLoad β) Result :=
  if downloader.fails then finish (.ok 0) world
  else
    let files := downloader.files.foldl (fun files file => files.add file.1 file.2) world.files
    if downloader.paths.isEmpty then finish (.ok 0) { world with files }
    else nextArchive engine task now downloader.paths [] { world with files }

/-- The phase goes on after its pause. -/
def resume (engine : Engine σ β) (task : TaskId) (now : Nat) (world : World σ β) :
    WebLoad β → World σ β × Progress (WebLoad β) Result
  | .downloading downloader => arrive engine task now downloader world
  | .reserving contents rest loads =>
      if world.repository.isReserved contents.path then
        (world, .paused (.reserving contents rest loads) (.until (now + retryInterval)))
      else if world.repository.isLoaded contents.path then
        nextArchive engine task now rest (loads ++ [(contents.path, .alreadyLoaded)]) world
      else
        ({ world with repository := world.repository.reserve contents.path },
         .paused (.loading contents rest loads) (.until (now + engine.bundleDelay)))
  | .loading contents rest loads =>
      let (repository, added) := world.repository.register engine contents
      nextArchive engine task now rest
        (loads ++ [(contents.path, if added then .loaded else .skipped)])
        { world with repository := repository.release contents.path }
  | .caching state rest loads =>
      match state.resume engine task now world.repository with
      | (repository, .paused state pause) =>
          ({ world with repository }, .paused (.caching state rest loads) pause)
      | (repository, .done (.ok shader)) =>
          conclude loads { world with repository := repository.keepInvalid shader }
      | (repository, .done (.error _)) =>
          cacheInvalidFrom engine task now loads rest { world with repository }

/-- The phase is dropped: it gives back what it holds, and the flag goes up. -/
def drop (task : TaskId) (state : WebLoad β) (world : World σ β) : World σ β :=
  let repository :=
    match state with
    | .downloading _ | .reserving .. => world.repository
    | .loading contents .. => world.repository.release contents.path
    | .caching state .. => state.drop task world.repository
  { world with repository := repository.completeWeb }

end WebLoad

end ShaderMend
