import ShaderMend.Repair.Run
import ShaderMend.Repository.LocalLoad
import ShaderMend.Repository.WebLoad

/-!
# Requests

What a host asks of the library, and the tasks that carry it out. A request that does
not block becomes a `Task`, which is resumed piece by piece and may be dropped between
two pieces; any other is answered at once.
-/

namespace ShaderMend

/-! ### Requests and replies -/

/-- The materials that a repair is to look at. -/
inductive Target where
  | scene (root : SceneObject)
  | listed (materials : List MaterialId)
  deriving Repr

/-- Where the shader of an entry is to come from: a manifest of the repository, or an
archive whose bundle was never loaded. -/
inductive Provider where
  | manifest (index : Nat)
  | unbound (archive : Path)
  deriving DecidableEq, Repr

/-- What is asked for. -/
inductive Request where
  /-- Load the archives of a directory, or of the configured one. -/
  | loadLocal (directory : Option Path)
  /-- Download archives into a directory, or into the configured one if the options
  allow. -/
  | loadWeb (directory : Option Path) (downloader : Downloader)
  | awaitWeb (timeout : Duration)
  | completeWeb
  | find (query : Signature)
  | findSuspending (query : Signature)
  | materialize (provider : Provider) (entry : EntryId)
  | materializeSuspending (provider : Provider) (entry : EntryId)
  | repair (target : Target)
  | repairSuspending (target : Target)
  | assign (material : MaterialId) (shader : Shader)
  | configure (change : Config → Config)
  | writeFile (path : Path) (node : FileNode)
  | removeFile (path : Path)
  | saveRecords (path : Path)
  | receiveNotice
  | completeNotices
  | dropReceiver
  /-- Look at everything. -/
  | observe

/-- What is answered. -/
inductive Reply (σ β : Type) where
  | nothing
  | loaded (result : Except RepositoryError Nat)
  /-- With the directory that archives were downloaded into, if they were. -/
  | webLoaded (result : Except RepositoryError Nat) (directory : Option Path)
  | awaited (inTime : Bool)
  /-- Nothing, since the clock has no instant for the end of a timeout. -/
  | brokenOff
  | found (result : Except RepositoryError (Option Replacement))
  | materialized (result : Except RepositoryError Shader)
  | repaired (result : Except Repair.Error Repair.Outcome)
  | recordsSaved (result : Except FileError String)
  | received (notice : Option Notice)
  | observed (world : World σ β)
  deriving Repr

namespace Target

/-- The materials that a target stands for. -/
def materials {σ β : Type} (world : World σ β) : Target → List MaterialId
  | .scene root => root.materials world.materials
  | .listed materials => materials

end Target

/-- The source that a provider stands for. -/
def Provider.source {σ β : Type} (world : World σ β) : Provider → Source β
  | .manifest index => world.repository.source index
  | .unbound archive => ⟨archive, none⟩

/-! ### Tasks -/

/-- A request that is being carried out, between two pieces of work. -/
inductive Task (β : Type) where
  | webLoad (directory : Path) (state : WebLoad β)
  | webWait (state : WebWait)
  | lookup (state : Lookup β)
  | materialization (state : Materialization β)
  | repair (state : Repair.Run β)
  deriving Repr

namespace Task

variable {σ β α : Type}

/-- What a piece of work leads to. -/
abbrev Step (σ β : Type) := World σ β × Progress (Task β) (Reply σ β)

/-- A step of a part as a step of the task. -/
def step {τ : Type} (wrap : τ → Task β) (reply : α → Reply σ β) :
    World σ β × Progress τ α → Step σ β
  | (world, progress) => (world, progress.within wrap reply)

/-- A change of the world that is answered at once. -/
def answer (reply : α → Reply σ β) : World σ β × α → Step σ β
  | (world, value) => (world, .done (reply value))

/-- Refuses to use the repository from a thread other than the main one. -/
def guarded (thread : Thread) (repository : Repository σ β)
    (result : Repository σ β × Except RepositoryError α) :
    Repository σ β × Except RepositoryError α :=
  match thread with
  | .main => result
  | .other => (repository, .error .notMainThread)

/-- The web phase begins, unless only the options speak for a directory and they forbid
it. -/
def startWebLoad (now : Nat) (thread : Thread) (directory : Option Path)
    (downloader : Downloader) (world : World σ β) : Step σ β :=
  if directory.isNone ∧ !world.config.downloadNewBundles then
    ({ world with repository := world.repository.completeWeb }, .done (.webLoaded (.ok 0) none))
  else
    let directory := directory.getD world.config.bundleDirectory
    let called := if thread = .main then some directory else none
    step (.webLoad directory) (.webLoaded · called) (WebLoad.start thread now downloader world)

/-- The wait for the web phase begins, unless the clock has no instant for its deadline. -/
def startWebWait (now : Nat) (timeout : Duration) (world : World σ β) : Step σ β :=
  match deadline? now timeout with
  | none => (world, .done .brokenOff)
  | some deadline =>
      step .webWait .awaited
        (world.withRepository (WebWait.poll now ⟨deadline⟩ world.repository))

/-- A request begins to be carried out. -/
def start (engine : Engine σ β) (task : TaskId) (now : Nat) (thread : Thread)
    (request : Request) (world : World σ β) : Step σ β :=
  let repository := world.repository
  match request with
  | .loadLocal directory =>
      let directory := directory.getD world.config.bundleDirectory
      let (loaded, count) := repository.loadLocal engine world.files directory
      answer .loaded (world.withRepository (guarded thread repository (loaded, .ok count)))
  | .loadWeb directory downloader => startWebLoad now thread directory downloader world
  | .awaitWeb timeout => startWebWait now timeout world
  | .completeWeb => ({ world with repository := repository.completeWeb }, .done .nothing)
  | .find query =>
      answer .found
        (world.withRepository (guarded thread repository (repository.find engine query)))
  | .findSuspending query =>
      match thread with
      | .other => (world, .done (.found (.error .notMainThread)))
      | .main =>
          step .lookup .found
            (world.withRepository (Lookup.start engine task now query repository))
  | .materialize provider entry =>
      let source := provider.source world
      answer .materialized
        (world.withRepository
          (guarded thread repository (repository.materialize engine source entry)))
  | .materializeSuspending provider entry =>
      match thread with
      | .other => (world, .done (.materialized (.error .notMainThread)))
      | .main =>
          let source := provider.source world
          step .materialization .materialized
            (world.withRepository (Materialization.start engine task now source entry repository))
  | .repair target =>
      answer .repaired (Repair.fix engine thread (target.materials world) world)
  | .repairSuspending target =>
      step .repair .repaired
        (Repair.Run.start engine task now thread (target.materials world) world)
  | .assign material shader =>
      ({ world with materials := world.materials.assign material shader }, .done .nothing)
  | .configure change => ({ world with config := change world.config }, .done .nothing)
  | .writeFile path node => ({ world with files := world.files.add path node }, .done .nothing)
  | .removeFile path => ({ world with files := world.files.remove path }, .done .nothing)
  | .saveRecords path =>
      let text := Diagnostics.text world.records
      match world.files.write path (Bytes.ofText text) with
      | .ok files => ({ world with files }, .done (.recordsSaved (.ok text)))
      | .error error => (world, .done (.recordsSaved (.error error)))
  | .receiveNotice =>
      let received := (world.notices.map fun channel => channel.receive.2).join
      (world.modifyNotices fun channel => channel.receive.1, .done (.received received))
  | .completeNotices => (world.modifyNotices Channel.completeAll, .done .nothing)
  | .dropReceiver => (world.modifyNotices Channel.dropReceiver, .done .nothing)
  | .observe => (world, .done (.observed world))

/-- The task goes on after its pause. -/
def resume (engine : Engine σ β) (task : TaskId) (now : Nat) (world : World σ β) :
    Task β → Step σ β
  | .webLoad directory state =>
      step (.webLoad directory) (.webLoaded · (some directory)) (state.resume engine task now world)
  | .webWait state =>
      step .webWait .awaited (world.withRepository (state.poll now world.repository))
  | .lookup state =>
      step .lookup .found (world.withRepository (state.resume engine task now world.repository))
  | .materialization state =>
      step .materialization .materialized
        (world.withRepository (state.resume engine task now world.repository))
  | .repair state => step .repair .repaired (state.resume engine task now world)

/-- The task is dropped: it gives back what it holds. -/
def drop (task : TaskId) (state : Task β) (world : World σ β) : World σ β :=
  match state with
  | .webLoad _ state => state.drop task world
  | .webWait _ => world
  | .lookup state => { world with repository := state.drop task world.repository }
  | .materialization state => { world with repository := state.drop task world.repository }
  | .repair state => state.drop task world

end Task

end ShaderMend
