import ShaderMend.Proofs.Repository.Undisturbed
import ShaderMend.Proofs.Session.Stages
import ShaderMend.Proofs.Text.Splitting

/-!
# The two phases of loading

Archives of a directory are loaded at once; archives that were downloaded are reserved, loaded
and released one after the other, and the shader shown in the place of shaders without
replacement is loaded like any other shader that is needed. If no other task goes on, both
phases add the same manifests and keep the same shaders.

* `WebLoad.comes_nextArchive` — by induction on the paths, one archive each.
* `WebLoad.comes_cacheInvalidFrom` — by induction on the manifests that may offer a marker.
* `Session.phases_of_replay` — what this comes to in every session.
-/

namespace ShaderMend

variable {σ β : Type}

namespace Repository

variable {engine : Engine σ β} {repository : Repository σ β}

/-- At the end of the web phase it is no matter how far the repository came before. -/
theorem completeWeb_advance (repository : Repository σ β) (stage : Stage) :
    (repository.advance stage).completeWeb = repository.completeWeb := by
  simp only [completeWeb, advance, Stage.advance_ready]

/-- A bundle that is loaded under a reservation, where there is no other, is loaded as without
one. -/
theorem register_reserve (h : repository.inFlight = []) (engine : Engine σ β)
    (contents : Bundle.Contents) :
    (((repository.reserve contents.path).register engine contents).1.release contents.path,
      ((repository.reserve contents.path).register engine contents).2)
      = repository.register engine contents := by
  have hengine : (repository.reserve contents.path).engine = repository.engine := rfl
  unfold register
  rw [hengine]
  rcases engine.loadBundle repository.engine contents.path contents.payload with
    ⟨state, _ | bundle⟩ <;> simp [reserve, release, h, Path.same_refl]

theorem inFlight_register (repository : Repository σ β) (engine : Engine σ β)
    (contents : Bundle.Contents) :
    (repository.register engine contents).1.inFlight = repository.inFlight := by
  obtain ⟨state, -, h | ⟨bundle, h⟩⟩ := repository.register_cases engine contents
  · rw [h]
  · rw [h]
    rfl

/-- An archive that can be read, and is neither loaded nor being loaded, is registered. -/
theorem loadArchive_of_read (engine : Engine σ β) {files : FileTree} {path : Path}
    {contents : Bundle.Contents} (hloaded : ¬ repository.isLoaded path)
    (hread : Bundle.read files path = .ok contents)
    (hreserved : ¬ repository.isReserved path) :
    repository.loadArchive engine files path
      = ((repository.register engine contents).1,
         if (repository.register engine contents).2 then .loaded else .skipped) := by
  simp only [loadArchive, hloaded, hread, hreserved]
  rcases repository.register engine contents with ⟨after, added⟩
  cases added <;> rfl

theorem inFlight_loadArchive (repository : Repository σ β) (engine : Engine σ β)
    (files : FileTree) (path : Path) :
    (repository.loadArchive engine files path).1.inFlight = repository.inFlight := by
  by_cases hloaded : repository.isLoaded path
  · simp [loadArchive, hloaded]
  · cases hread : Bundle.read files path with
    | error error => simp [loadArchive, hloaded, hread]
    | ok contents =>
        by_cases hreserved : repository.isReserved path
        · simp [loadArchive, hloaded, hread, hreserved]
        · rw [loadArchive_of_read engine hloaded hread hreserved]
          exact inFlight_register repository engine contents

/-- The archives of a directory are loaded, and then the first marker. -/
theorem loadLocal_of_listed (repository : Repository σ β) (engine : Engine σ β)
    {files : FileTree} {directory : Path} {archives : List Path}
    (hdirectory : files.isDirectory directory = true)
    (harchives : Bundle.archivesIn files directory = .ok archives) :
    repository.loadLocal engine files directory
      = (((loadArchives engine files archives repository).1.cacheInvalid engine).advance
          .locallyLoaded,
         (loadArchives engine files archives repository).2.added) := by
  simp only [loadLocal, hdirectory, if_true, harchives, Except.toOption, Option.getD_some]

end Repository

theorem added_concat (loads more : Repository.Loads) (path : Path)
    (outcome : Repository.ArchiveLoad) :
    Repository.Loads.added (loads ++ [(path, outcome)]) + more.added
      = loads.added + Repository.Loads.added ((path, outcome) :: more) := by
  simp only [Repository.Loads.added, List.countP_append, List.countP_cons, List.countP_nil]
  omega

namespace WebLoad

variable {engine : Engine σ β} {world : World σ β}

/-- What follows the load of a marker. -/
def cached (engine : Engine σ β) (task : TaskId) (loads : Repository.Loads) (rest : List Nat)
    (world : World σ β) (now : Nat) (repository : Repository σ β) :
    Materialization.Result → World σ β × Progress (WebLoad β) Result
  | .ok shader => conclude loads { world with repository := repository.keepInvalid shader }
  | .error _ => cacheInvalidFrom engine task now loads rest { world with repository }

theorem conclude_eq (loads : Repository.Loads) (world : World σ β) :
    conclude loads world
      = ({ world with repository := world.repository.completeWeb }, .done (.ok loads.added)) := by
  simp only [conclude, finish, Repository.completeWeb_advance]

/-- **Markers are tried as they are at once**, in a world whose repository is at rest. -/
theorem comes_cacheInvalidFrom (loads : Repository.Loads) (indices : List Nat)
    (h : world.repository.AtRest engine) (task : TaskId) (now : Nat) :
    Comes (fun now world (state : WebLoad β) => state.resume engine task now world)
      { world with
        repository := (Repository.cacheInvalidFrom engine indices world.repository).completeWeb }
      (.ok loads.added) indices.length
      (cacheInvalidFrom engine task now loads indices world) := by
  induction indices generalizing world now with
  | nil =>
      simp only [cacheInvalidFrom, conclude_eq]
      exact .done
  | cons index rest ih =>
      cases hmarker : world.repository.marker? index with
      | none =>
          simp only [cacheInvalidFrom, Repository.cacheInvalidFrom, hmarker]
          exact (ih h now).mono (Nat.le_succ _)
      | some id =>
          have hstep : cacheInvalidFrom engine task now loads (index :: rest) world
              = followedBy (fun repository => { world with repository })
                  (caching · rest loads) (cached engine task loads rest world now)
                  (Materialization.start engine task now (world.repository.source index) id
                    world.repository) := by
            simp only [cacheInvalidFrom, hmarker]
            rcases Materialization.start engine task now (world.repository.source index) id
              world.repository with ⟨repository, ⟨state, pause⟩ | ⟨error | shader⟩⟩ <;> rfl
          have hresume : ∀ later repository (state : Materialization β),
              resume engine task later { world with repository } (caching state rest loads)
                = followedBy (fun repository => { world with repository })
                    (caching · rest loads) (cached engine task loads rest world later)
                    (state.resume engine task later repository) := by
            intro later repository state
            simp only [resume]
            rcases state.resume engine task later repository with
              ⟨after, ⟨state, pause⟩ | ⟨error | shader⟩⟩ <;> rfl
          have hload := h.comes_start task now (world.repository.source index) id
          have hafter := h.of_acts (world.repository.materialize_acts engine task
            (world.repository.source index) id .nothing 0)
          rw [hstep, List.length_cons, Nat.add_comm]
          refine hload.followed hresume (fun later => ?_) now
          simp only [Repository.cacheInvalidFrom, hmarker]
          generalize world.repository.materialize engine (world.repository.source index) id
            = result at hafter
          obtain ⟨after, error | shader⟩ := result
          · exact @ih { world with repository := after } hafter later
          · simp only [cached, conclude_eq]
            exact .done

/-- **The shader for shaders without replacement is found as it is at once.** -/
theorem comes_cacheInvalid (loads : Repository.Loads) (h : world.repository.AtRest engine)
    (task : TaskId) (now : Nat) :
    Comes (fun now world (state : WebLoad β) => state.resume engine task now world)
      { world with repository := (world.repository.cacheInvalid engine).completeWeb }
      (.ok loads.added) world.repository.indices.length
      (cacheInvalid engine task now loads world) := by
  by_cases hinvalid : world.repository.invalid.isSome
  · simp only [cacheInvalid, Repository.cacheInvalid, hinvalid, if_true, conclude_eq]
    exact .done
  · simp only [cacheInvalid, Repository.cacheInvalid, hinvalid]
    exact comes_cacheInvalidFrom loads _ h task now

/-- **Archives are added as they are at once**, if no other archive is being loaded. -/
theorem comes_nextArchive (paths : List Path) (loads : Repository.Loads)
    (h : world.repository.AtRest engine) (hfree : world.repository.inFlight = [])
    (task : TaskId) :
    ∃ turns, ∀ now, Comes (fun now world (state : WebLoad β) => state.resume engine task now world)
      { world with
        repository := ((Repository.loadArchives engine world.files paths
          world.repository).1.cacheInvalid engine).completeWeb }
      (.ok (loads.added
        + (Repository.loadArchives engine world.files paths world.repository).2.added))
      turns (nextArchive engine task now paths loads world) := by
  induction paths generalizing world loads with
  | nil => exact ⟨_, comes_cacheInvalid loads h task⟩
  | cons path rest ih =>
      have hacts := world.repository.loadArchive_acts engine task world.files path 0
      have hafter := h.of_acts hacts
      have hfree' := (world.repository.inFlight_loadArchive engine world.files path).trans hfree
      obtain ⟨turns, hrest⟩ := @ih
        { world with repository := (world.repository.loadArchive engine world.files path).1 }
        (loads ++ [(path, (world.repository.loadArchive engine world.files path).2)]) hafter hfree'
      rw [added_concat] at hrest
      by_cases hloaded : world.repository.isLoaded path
      · refine ⟨turns, fun now => ?_⟩
        have hstep := hrest now
        simp only [Repository.loadArchive, hloaded, if_true] at hstep
        simp only [nextArchive, Repository.loadArchives, Repository.loadArchive, hloaded, if_true]
        exact hstep
      · have hreserved : ¬ world.repository.isReserved path := by
          simp [Repository.isReserved, hfree]
        cases hread : Bundle.read world.files path with
        | error error =>
            refine ⟨turns, fun now => ?_⟩
            have hstep := hrest now
            simp only [Repository.loadArchive, hloaded, hread] at hstep
            simp only [nextArchive, Repository.loadArchives, Repository.loadArchive, hloaded,
              hread]
            exact hstep
        | ok contents =>
            obtain rfl : contents.path = path := Bundle.path_of_read hread
            have harchive :=
              Repository.loadArchive_of_read engine hloaded hread hreserved
            obtain ⟨hregistered, hadded⟩ :=
              Prod.mk.inj (Repository.register_reserve hfree engine contents)
            rw [harchive] at hrest
            refine ⟨turns + 1, fun now => ?_⟩
            simp only [nextArchive, Repository.loadArchives, harchive, hloaded, hread, hreserved]
            refine .paused fun later => ?_
            simp only [resume, hregistered, hadded]
            exact hrest later

end WebLoad

namespace Session

variable {engine : Engine σ β}

/-- In a session that leaves no task under way no archive is being loaded. -/
theorem inFlight_of_quiet {world : World σ β} (hstart : ∃ start, world.repository = .fresh start)
    (moves : List Move) (hquiet : (replay engine moves (fresh world)).Quiet) :
    (replay engine moves (fresh world)).world.repository.inFlight = [] := by
  obtain ⟨start, hfresh⟩ := hstart
  have hinitial : Guarded (fresh world).world.repository (fresh world).holds := by
    show Guarded world.repository _
    rw [hfresh]
    exact Guarded.initial start fun _ => rfl
  have hguarded := replay_keeps (Act.keeps_guarded engine) moves (sound_fresh world) hinitial
  refine List.eq_nil_iff_forall_not_mem.mpr fun path hmem => ?_
  obtain ⟨task, htask⟩ := (hguarded.held path).mp hmem
  rw [hquiet.holds task] at htask
  cases htask

/-- **The two phases of loading agree.** Let a session leave no task under way, and let a
directory list some archives. Then the load of the directory, and a web phase whose download
comes to these archives, add the same manifests, keep the same shaders and count the same
archives: those of a load of one archive after the other, and then of a marker. They leave the
repository at different stages, and only the web phase raises the flag that it is over. -/
theorem phases_of_replay {world : World σ β} (hstart : ∃ start, world.repository = .fresh start)
    (moves : List Move) (hquiet : (replay engine moves (fresh world)).Quiet) {directory : Path}
    {archives : List Path}
    (hdirectory : (replay engine moves (fresh world)).world.files.isDirectory directory = true)
    (harchives : Bundle.archivesIn (replay engine moves (fresh world)).world.files directory
      = .ok archives)
    (hlisted : archives ≠ []) (target : Path) (delay : Nat) :
    let session := replay engine moves (fresh world)
    let loaded := Repository.loadArchives engine session.world.files archives
      session.world.repository
    let after := loaded.1.cacheInvalid engine
    session.ComesTo engine .main (.loadLocal (some directory))
        { session.world with repository := after.advance .locallyLoaded }
        (.loaded (.ok loaded.2.added)) ∧
      session.ComesTo engine .main (.loadWeb (some target) ⟨delay, false, [], archives⟩)
        { session.world with repository := after.completeWeb }
        (.webLoaded (.ok loaded.2.added) (some target)) := by
  intro session loaded after
  have hnumbered : session.Numbered := numbered_replay engine moves (numbered_fresh world)
  have hrest : session.world.repository.AtRest engine :=
    Repository.atRest_of_reachable ⟨world, moves, hstart, hquiet, rfl⟩
  have hfree : session.world.repository.inFlight = [] := inFlight_of_quiet hstart moves hquiet
  constructor
  · refine comesTo_of_done hnumbered fun now => ?_
    have hlocal : session.world.repository.loadLocal engine session.world.files directory
        = (after.advance .locallyLoaded, loaded.2.added) :=
      session.world.repository.loadLocal_of_listed engine hdirectory harchives
    simp only [Task.start, Option.getD_some, hlocal]
    rfl
  · obtain ⟨turns, hnext⟩ := WebLoad.comes_nextArchive archives [] hrest hfree session.nextTask
    have harrive : ∀ now, (WebLoad.downloading ⟨delay, false, [], archives⟩).resume engine
        session.nextTask now session.world
          = WebLoad.nextArchive engine session.nextTask now archives [] session.world := by
      intro now
      have hsome : archives.isEmpty = false := by simpa using hlisted
      simp [WebLoad.resume, WebLoad.arrive, hsome]
    have hrun : ∀ now, Comes
        (fun now world (state : WebLoad β) => state.resume engine session.nextTask now world)
        { session.world with repository := after.completeWeb } (.ok loaded.2.added) (turns + 1)
        (WebLoad.start .main now ⟨delay, false, [], archives⟩ session.world) := by
      intro now
      refine .paused fun later => ?_
      rw [harrive]
      simpa [Repository.Loads.added] using hnext later
    exact comesTo_of_comes hnumbered fun now =>
      (hrun now).within id (Reply.webLoaded · (some target)) fun _ _ _ => rfl

/-! ### A directory with one archive -/

/-- A tree with a directory and an archive in it that holds one shader, `S` at `x`. -/
def shelfFiles : FileTree :=
  ⟨[(["d"], .directory), (["d", "b.shaderbundle"],
    .file (Bundle.encode [("x", .object [("name", .string "S")])]))]⟩

/-- A world with the directory and a new repository. -/
def shelfWorld : World Engine.Tally Engine.MemoryBundle :=
  { sampleWorld with files := shelfFiles }

/-- The archive of the directory. -/
def shelfPath : Path := ⟨"d/b.shaderbundle"⟩

theorem components_shelf :
    (Path.mk "d").components = [.name "d"] ∧
      shelfPath.components = [.name "d", .name "b.shaderbundle"] := by
  unfold Path.components
  simp only [Path.parts_eq]
  decide +kernel

theorem locate_shelf :
    shelfFiles.locate ⟨"d"⟩ = .ok (["d"], .directory) ∧
      shelfFiles.locate shelfPath = .ok (["d", "b.shaderbundle"],
        .file (Bundle.encode [("x", .object [("name", .string "S")])])) := by
  obtain ⟨hdirectory, harchive⟩ := components_shelf
  have hplain : shelfPath.namesDirectory = false := by
    unfold Path.namesDirectory
    rw [Path.parts_eq]
    decide +kernel
  constructor
  · simp only [FileTree.locate, FileTree.find, hdirectory]
    rfl
  · simp only [FileTree.locate, FileTree.find, harchive, hplain]
    rfl

theorem archivesIn_shelf : Bundle.archivesIn shelfFiles ⟨"d"⟩ = .ok [shelfPath] := by
  have hextension : shelfPath.extension? = some Bundle.fileExtension := by
    have hname : "b.shaderbundle".splitOn "." = ["b", "shaderbundle"] := by
      refine (Text.splitOn_singleton "b.shaderbundle" '.').trans ?_
      decide +kernel
    simp only [Path.extension?, Path.fileName?, components_shelf.2, List.getLast?_cons_cons,
      List.getLast?_singleton, Option.bind_some, hname]
    rfl
  have harchive : Bundle.isArchive shelfPath = true := by
    simp only [Bundle.isArchive, hextension]
    decide +kernel
  have hnames : Catalogue.ofList id (shelfFiles.filesIn ["d"]) = ["b.shaderbundle"] := by
    decide +kernel
  have hjoin : (Path.mk "d").join "b.shaderbundle" = shelfPath := by decide +kernel
  simp only [Bundle.archivesIn, locate_shelf.1, hnames, List.map_cons, List.map_nil, hjoin,
    List.filter_cons, harchive, if_true, List.filter_nil]

theorem read_shelf :
    Bundle.read shelfFiles shelfPath
      = .ok ⟨shelfPath, Bundle.sampleContents.entries, Bundle.sampleContents.payload⟩ := by
  apply Bundle.read_of_parts
  unfold Bundle.read
  rw [locate_shelf.2]
  decide +kernel

/-- The repository with the archive. -/
def shelfRepository : Repository Engine.Tally Engine.MemoryBundle :=
  { shelfWorld.repository with
    engine := ⟨1, 0⟩
    manifests := [⟨shelfPath, some ⟨shelfPath, [("x", "S")]⟩, Bundle.sampleContents.entries⟩] }

theorem loadArchives_shelf :
    Repository.loadArchives sampleEngine shelfFiles [shelfPath] shelfWorld.repository
      = (shelfRepository, [(shelfPath, .loaded)]) := by
  have hdecode : Payload.decode? Bundle.sampleContents.payload = some [("x", "S")] := by
    decide +kernel
  have hloaded : ¬ shelfWorld.repository.isLoaded shelfPath := by
    simp [shelfWorld, sampleWorld, Repository.fresh, Repository.isLoaded]
  have hreserved : ¬ shelfWorld.repository.isReserved shelfPath := by
    simp [shelfWorld, sampleWorld, Repository.fresh, Repository.isReserved]
  have harchive := Repository.loadArchive_of_read sampleEngine hloaded read_shelf hreserved
  simp only [Repository.loadArchives, harchive]
  simp [Repository.register, Repository.fresh, shelfWorld, sampleWorld, sampleEngine,
    Engine.inMemory, Engine.Tally.loadBundle, hdecode, shelfRepository]

theorem phases_of_sample :
    (shelfWorld.repository = .fresh ⟨0, 0⟩ ∧
      (replay sampleEngine [] (fresh shelfWorld)).Quiet ∧
      shelfFiles.isDirectory ⟨"d"⟩ = true ∧
      Bundle.archivesIn shelfFiles ⟨"d"⟩ = .ok [shelfPath]) ∧
    (fresh shelfWorld).ComesTo sampleEngine .main (.loadLocal (some ⟨"d"⟩))
      { shelfWorld with repository := shelfRepository.advance .locallyLoaded } (.loaded (.ok 1)) ∧
    (fresh shelfWorld).ComesTo sampleEngine .main
      (.loadWeb (some ⟨"d"⟩) ⟨5, false, [], [shelfPath]⟩)
      { shelfWorld with repository := shelfRepository.completeWeb }
      (.webLoaded (.ok 1) (some ⟨"d"⟩)) := by
  have hquiet : (replay sampleEngine [] (fresh shelfWorld)).Quiet := fun _ hmem => by cases hmem
  have hdirectory : shelfFiles.isDirectory ⟨"d"⟩ = true := by
    simp only [FileTree.isDirectory, locate_shelf.1]
  have hstart : ∃ start, shelfWorld.repository = .fresh start := ⟨⟨0, 0⟩, rfl⟩
  have hphases := @phases_of_replay _ _ sampleEngine shelfWorld hstart [] hquiet _ _ hdirectory
    archivesIn_shelf (List.cons_ne_nil _ _) ⟨"d"⟩ 5
  simp only [replay, List.foldl_nil, fresh] at hphases
  rw [show shelfWorld.files = shelfFiles from rfl, loadArchives_shelf] at hphases
  exact ⟨⟨rfl, hquiet, hdirectory, archivesIn_shelf⟩, hphases⟩

end Session

end ShaderMend
