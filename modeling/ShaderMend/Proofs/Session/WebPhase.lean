import ShaderMend.Proofs.Session.Archives

/-!
# Pieces of work of a web phase

A web phase deals with the paths that were downloaded one after the other.

* `WebLoad.passes_resume` — in a piece of work it raises the flag with its end and not before,
  and it is done with a path once the archive is registered, or cannot be used.
-/

namespace ShaderMend

variable {σ β : Type}

/-! ### Loads of shaders and archives -/

/-- Whether a piece of work is the last. -/
def Progress.isDone {τ α : Type} : Progress τ α → Bool
  | .paused .. => false
  | .done _ => true

theorem Materialization.webDone_proceed (engine : Engine σ β) (now : Nat) (source : Source β)
    (entry : EntryId) (repository : Repository σ β) (turn : Cell.Turn) :
    (proceed engine now source entry repository turn).1.webDone = repository.webDone := by
  cases turn with
  | hold => cases hbundle : source.bundle <;> simp [proceed, hbundle, Repository.modifyCell]
  | _ => rfl

theorem Materialization.webDone_start (engine : Engine σ β) (task : TaskId) (now : Nat)
    (source : Source β) (entry : EntryId) (repository : Repository σ β) :
    (start engine task now source entry repository).1.webDone = repository.webDone :=
  webDone_proceed engine now source entry _ _

theorem Repository.webDone_loadShader (repository : Repository σ β) (engine : Engine σ β)
    (archive : Path) (bundle : β) (assetPath : String) :
    (repository.loadShader engine archive bundle assetPath).1.webDone = repository.webDone := by
  obtain ⟨state, ⟨-, h⟩ | ⟨shader, -, h⟩⟩ :=
    repository.loadShader_cases engine archive bundle assetPath <;> rw [h]

theorem Materialization.webDone_resume (engine : Engine σ β) (task : TaskId) (now : Nat)
    (repository : Repository σ β) (state : Materialization β) :
    (state.resume engine task now repository).1.webDone = repository.webDone := by
  cases state with
  | waiting source entry => exact webDone_proceed engine now source entry repository _
  | loading archive bundle entry =>
      have hload := repository.webDone_loadShader engine archive bundle entry.assetPath
      simp only [resume]
      split <;> rename_i h <;> rw [h] at hload <;> exact hload

/-- Manifests are only added. -/
theorem Acts.isLoaded {engine : Engine σ β} {task : TaskId} {before after : Footing σ β}
    (hacts : Acts engine task before after) {path : Path}
    (h : before.repository.isLoaded path = true) : after.repository.isLoaded path = true := by
  have hdeclared := hacts.grows_declared
  have hpaths : ∀ repository : Repository σ β,
      repository.paths = repository.declared.map Manifest.path := by
    intro repository
    simp [Repository.paths, Repository.declared, Function.comp_def, Manifest.unfilled]
  rw [Repository.isLoaded_iff, hpaths] at h ⊢
  obtain ⟨other, hmem, hsame⟩ := h
  exact ⟨other, (hdeclared.map Manifest.path).subset hmem, hsame⟩

/-- An archive is loaded once it is registered, unless the engine refuses its payload. -/
theorem Repository.register_spec (repository : Repository σ β) (engine : Engine σ β)
    (contents : Bundle.Contents) :
    (repository.register engine contents).1.webDone = repository.webDone ∧
      ((repository.register engine contents).1.isLoaded contents.path = true ∨
        (engine.loadBundle repository.engine contents.path contents.payload).2 = none) := by
  unfold register
  split
  · rename_i state h
    exact ⟨rfl, Or.inr (congrArg Prod.snd h)⟩
  · rename_i state bundle h
    refine ⟨rfl, Or.inl ?_⟩
    simp [isLoaded, Path.same_refl]

/-! ### The web phase -/

namespace WebLoad

/-- The paths that a web phase still has to deal with. A download that fails has none. -/
def pending : WebLoad β → List Path
  | .downloading downloader => if downloader.fails then [] else downloader.paths
  | .reserving contents rest _ => contents.path :: rest
  | .loading contents rest _ => contents.path :: rest
  | .caching .. => []

/-- The paths that are left after a piece of work. -/
def left : Progress (WebLoad β) Result → List Path
  | .paused state _ => state.pending
  | .done _ => []

/-- What a piece of work in a world comes to that deals with paths one after the other: the
flag goes up with the end and not before, and the paths that are not left are registered, or
their archives cannot be read. -/
structure Passes (world : World σ β) (paths : List Path)
    (step : World σ β × Progress (WebLoad β) Result) : Prop where
  flag : step.1.repository.webDone = (step.2.isDone || world.repository.webDone)
  files : step.1.files = world.files
  passed : ∃ passed, paths = passed ++ left step.2 ∧ ∀ path ∈ passed,
    step.1.repository.isLoaded path = true ∨
      ∃ error, Bundle.read step.1.files path = .error error

variable (engine : Engine σ β) (task : TaskId) (now : Nat)

theorem passes_finish (result : Result) (world : World σ β) :
    Passes world [] (finish result world) :=
  ⟨rfl, rfl, [], rfl, fun _ hmem => by cases hmem⟩

theorem passes_conclude (loads : Repository.Loads) (world : World σ β) :
    Passes world [] (conclude loads world) :=
  ⟨rfl, rfl, [], rfl, fun _ hmem => by cases hmem⟩

theorem Passes.of_world {first world : World σ β} {paths : List Path}
    {step : World σ β × Progress (WebLoad β) Result} (h : Passes first paths step)
    (hflag : first.repository.webDone = world.repository.webDone)
    (hfiles : first.files = world.files) : Passes world paths step :=
  ⟨hflag ▸ h.flag, hfiles ▸ h.files, h.passed⟩

theorem passes_cacheInvalidFrom (loads : Repository.Loads) (indices : List Nat)
    (world : World σ β) :
    Passes world [] (cacheInvalidFrom engine task now loads indices world) := by
  induction indices generalizing world with
  | nil => exact passes_conclude loads world
  | cons index rest ih =>
      unfold cacheInvalidFrom
      split
      · exact ih world
      · rename_i id _
        have hstart := Materialization.webDone_start engine task now
          (world.repository.source index) id world.repository
        split <;> rename_i h <;> rw [h] at hstart
        · exact ⟨hstart, rfl, [], rfl, fun _ hmem => by cases hmem⟩
        · exact (passes_conclude loads _).of_world hstart rfl
        · exact (ih _).of_world hstart rfl

theorem passes_cacheInvalid (loads : Repository.Loads) (world : World σ β) :
    Passes world [] (cacheInvalid engine task now loads world) := by
  unfold cacheInvalid
  split
  · exact passes_conclude loads world
  · exact passes_cacheInvalidFrom engine task now loads _ world

/-- One more path that is dealt with. -/
theorem Passes.cons {world : World σ β} {path : Path} {rest : List Path}
    {step : World σ β × Progress (WebLoad β) Result} (h : Passes world rest step)
    (hpath : step.1.repository.isLoaded path = true ∨
      ∃ error, Bundle.read step.1.files path = .error error) :
    Passes world (path :: rest) step := by
  obtain ⟨passed, hpaths, hpassed⟩ := h.passed
  refine ⟨h.flag, h.files, path :: passed, by rw [hpaths, List.cons_append], ?_⟩
  intro other hmem
  rcases List.mem_cons.mp hmem with rfl | hmem
  · exact hpath
  · exact hpassed other hmem

/-- What is loaded before the next archives are dealt with stays loaded. -/
theorem isLoaded_nextArchive (paths : List Path) (loads : Repository.Loads) (world : World σ β)
    {path : Path} (h : world.repository.isLoaded path = true) :
    (nextArchive engine task now paths loads world).1.repository.isLoaded path = true := by
  have hpiece := nextArchive_piece engine task now paths loads world
  have hloaded := hpiece.acts.isLoaded h
  unfold footing at hloaded
  split at hloaded <;> rename_i heq <;> rw [heq] <;> exact hloaded

theorem passes_nextArchive (paths : List Path) (loads : Repository.Loads) (world : World σ β) :
    Passes world paths (nextArchive engine task now paths loads world) := by
  induction paths generalizing loads with
  | nil => exact passes_cacheInvalid engine task now loads world
  | cons path rest ih =>
      unfold nextArchive
      split
      · rename_i hloaded
        exact (ih _).cons (Or.inl (isLoaded_nextArchive engine task now rest _ world hloaded))
      · split
        · rename_i error hread
          have hrest := ih (loads ++ [(path, .skipped)])
          exact hrest.cons (Or.inr ⟨error, hrest.files ▸ hread⟩)
        · rename_i contents hread
          have hpath := Bundle.path_of_read hread
          split
          · exact ⟨rfl, rfl, [], by rw [← hpath]; rfl, fun _ hmem => by cases hmem⟩
          · exact ⟨rfl, rfl, [], by rw [← hpath]; rfl, fun _ hmem => by cases hmem⟩

theorem passes_start (thread : Thread) (downloader : Downloader) (world : World σ β) :
    (start thread now downloader world).1.repository.webDone
      = ((start thread now downloader world).2.isDone || world.repository.webDone) := by
  cases thread <;> rfl

theorem passes_arrive (downloader : Downloader) (world : World σ β) :
    ∃ first : World σ β, first.repository = world.repository ∧
      Passes first (if downloader.fails then [] else downloader.paths)
        (arrive engine task now downloader world) := by
  unfold arrive
  by_cases hfails : downloader.fails
  · rw [if_pos hfails, if_pos hfails]
    exact ⟨world, rfl, passes_finish (.ok 0) world⟩
  · rw [if_neg hfails, if_neg hfails]
    dsimp only
    by_cases hempty : downloader.paths.isEmpty
    · rw [if_pos hempty, List.isEmpty_iff.mp hempty]
      refine ⟨_, ?_, passes_finish (.ok 0) _⟩
      rfl
    · rw [if_neg hempty]
      refine ⟨_, ?_, passes_nextArchive engine task now _ _ _⟩
      rfl

theorem passes_reserving (contents : Bundle.Contents) (rest : List Path)
    (loads : Repository.Loads) (world : World σ β) :
    Passes world (contents.path :: rest)
      ((reserving contents rest loads).resume engine task now world) := by
  simp only [resume]
  split
  · exact ⟨rfl, rfl, [], rfl, fun _ hmem => by cases hmem⟩
  · split
    · rename_i hloaded
      have hrest := passes_nextArchive engine task now rest
        (loads ++ [(contents.path, .alreadyLoaded)]) world
      exact hrest.cons (Or.inl (isLoaded_nextArchive engine task now rest _ world hloaded))
    · exact ⟨rfl, rfl, [], rfl, fun _ hmem => by cases hmem⟩

theorem passes_caching (state : Materialization β) (rest : List Nat)
    (loads : Repository.Loads) (world : World σ β) :
    Passes world [] ((caching state rest loads).resume engine task now world) := by
  have hresume := state.webDone_resume engine task now world.repository
  simp only [resume]
  split <;> rename_i h <;> rw [h] at hresume
  · exact ⟨hresume, rfl, [], rfl, fun _ hmem => by cases hmem⟩
  · exact (passes_conclude loads _).of_world hresume rfl
  · exact (passes_cacheInvalidFrom engine task now loads rest _).of_world hresume rfl

/-- Whether the engine refuses the payload of the archive that a web phase loads. -/
def Refuses (engine : Engine σ β) (repository : Repository σ β) (path : Path)
    (state : WebLoad β) : Prop :=
  ∃ contents rest loads, state = .loading contents rest loads ∧ contents.path = path ∧
    (engine.loadBundle repository.engine contents.path contents.payload).2 = none

/-- The archive that was reserved is added, unless the engine refuses its payload; then come
the others. -/
theorem passes_loading (contents : Bundle.Contents) (rest : List Path)
    (loads : Repository.Loads) (world : World σ β) :
    let step := (loading contents rest loads).resume engine task now world
    ∃ first : World σ β, first.repository.webDone = world.repository.webDone ∧
      Passes first rest step ∧
      (step.1.repository.isLoaded contents.path = true ∨
        (engine.loadBundle world.repository.engine contents.path contents.payload).2 = none) := by
  obtain ⟨hflag, hverdict⟩ := world.repository.register_spec engine contents
  simp only [resume]
  refine ⟨_, ?_, passes_nextArchive engine task now rest _ _, ?_⟩
  · exact hflag
  · rcases hverdict with hloaded | hrefused
    · exact Or.inl (isLoaded_nextArchive engine task now rest _ _ hloaded)
    · exact Or.inr hrefused

/-- **A piece of work of a web phase**: it raises the flag with its end and not before, and the
paths that are not left are registered, or their archives cannot be read, or the engine refused
what they hold. -/
theorem passes_resume (world : World σ β) (state : WebLoad β) :
    let step := state.resume engine task now world
    step.1.repository.webDone = (step.2.isDone || world.repository.webDone) ∧
      ∃ passed, state.pending = passed ++ left step.2 ∧ ∀ path ∈ passed,
        step.1.repository.isLoaded path = true ∨
          (∃ error, Bundle.read step.1.files path = .error error) ∨
          state.Refuses engine world.repository path := by
  intro step
  have hpasses : ∀ {first : World σ β}, first.repository.webDone = world.repository.webDone →
      Passes first state.pending step →
        step.1.repository.webDone = (step.2.isDone || world.repository.webDone) ∧
          ∃ passed, state.pending = passed ++ left step.2 ∧ ∀ path ∈ passed,
            step.1.repository.isLoaded path = true ∨
              (∃ error, Bundle.read step.1.files path = .error error) ∨
              state.Refuses engine world.repository path := by
    intro first hflag h
    obtain ⟨passed, hpaths, hpassed⟩ := h.passed
    refine ⟨hflag ▸ h.flag, passed, hpaths, fun path hmem => ?_⟩
    rcases hpassed path hmem with hloaded | hread
    · exact Or.inl hloaded
    · exact Or.inr (Or.inl hread)
  cases state with
  | downloading downloader =>
      obtain ⟨first, hsame, h⟩ := passes_arrive engine task now downloader world
      exact hpasses (congrArg Repository.webDone hsame) h
  | reserving contents rest loads =>
      exact hpasses rfl (passes_reserving engine task now contents rest loads world)
  | loading contents rest loads =>
      obtain ⟨first, hflag, h, hverdict⟩ := passes_loading engine task now contents rest loads world
      obtain ⟨passed, hpaths, hpassed⟩ := h.passed
      refine ⟨hflag ▸ h.flag, contents.path :: passed, congrArg (contents.path :: ·) hpaths, ?_⟩
      intro path hmem
      rcases List.mem_cons.mp hmem with rfl | hmem
      · rcases hverdict with hloaded | hrefused
        · exact Or.inl hloaded
        · exact Or.inr (Or.inr ⟨contents, rest, loads, rfl, rfl, hrefused⟩)
      · rcases hpassed path hmem with hloaded | hread
        · exact Or.inl hloaded
        · exact Or.inr (Or.inl hread)
  | caching state rest loads =>
      exact hpasses rfl (passes_caching engine task now state rest loads world)

end WebLoad

end ShaderMend
