import ShaderMend.Proofs.Session.Acts

/-!
# Work that pauses

* `Materialization.start_acts`, `resume_acts`, `drop_acts` — each piece of a load that
  does not block is a row of acts, and so is its end when it is dropped.
* `WebLoad.start_acts`, `resume_acts`, `drop_acts` — the same for the web phase, which
  also keeps count of the archives that it adds.
-/

namespace ShaderMend

variable {σ β : Type}

open Relation (ReflTransGen)

/-! ### Loads of shaders -/

/-- What work holds on to after a piece of it. -/
def Progress.hold {τ α : Type} (hold : τ → Hold) : Progress τ α → Hold
  | .paused state _ => hold state
  | .done _ => .nothing

theorem Progress.hold_within {τ υ α γ : Type} (hold : υ → Hold) (wrap : τ → υ)
    (finish : α → γ) (progress : Progress τ α) :
    (progress.within wrap finish).hold hold = progress.hold fun state => hold (wrap state) := by
  cases progress <;> rfl

/-- What a task that needs a shader holds on to. -/
def Materialization.hold : Materialization β → Hold
  | .waiting _ entry => .asked entry
  | .loading _ _ entry => .loading entry

/-- What a lookup holds on to. -/
def Lookup.hold (lookup : Lookup β) : Hold :=
  lookup.materialization.hold

/-- What a web phase holds on to. -/
def WebLoad.hold : WebLoad β → Hold
  | .downloading _ => .nothing
  | .reserving contents .. => .read contents
  | .loading contents .. => .reserved contents
  | .caching state .. => state.hold

/-- What a repair holds on to. -/
def Repair.Run.hold : Repair.Run β → Hold
  | .waiting .. => .nothing
  | .lookingUp _ _ _ _ lookup => lookup.hold

/-- What a task holds on to. -/
def Task.hold : Task β → Hold
  | .webLoad _ state => state.hold
  | .webWait _ => .nothing
  | .lookup state => state.hold
  | .materialization state => state.hold
  | .repair state => state.hold

section Materializations

variable (engine : Engine σ β) (task : TaskId)

theorem Materialization.proceed_acts (now : Nat) (source : Source β) (entry : EntryId)
    (repository : Repository σ β) (turn : Cell.Turn) (added : Nat) :
    Acts engine task ⟨repository, .ofTurn entry turn, added⟩
      ⟨(proceed engine now source entry repository turn).1,
       (proceed engine now source entry repository turn).2.hold hold, added⟩ := by
  cases turn with
  | ready shader => exact .refl
  | wait => exact .refl
  | hold =>
      unfold proceed
      cases source.bundle with
      | none => exact .single .fail
      | some bundle => exact .refl

theorem Materialization.start_acts (now : Nat) (source : Source β) (entry : EntryId)
    (repository : Repository σ β) (added : Nat) :
    Acts engine task ⟨repository, .nothing, added⟩
      ⟨(start engine task now source entry repository).1,
       (start engine task now source entry repository).2.hold hold, added⟩ :=
  .head (.ask entry) (proceed_acts engine task now source entry _ _ added)

theorem Materialization.resume_acts (now : Nat) (repository : Repository σ β)
    (state : Materialization β) (added : Nat) :
    Acts engine task ⟨repository, state.hold, added⟩
      ⟨(state.resume engine task now repository).1,
       (state.resume engine task now repository).2.hold hold, added⟩ := by
  cases state with
  | waiting source entry =>
      exact .head .take (proceed_acts engine task now source entry repository _ added)
  | loading archive bundle entry =>
      unfold resume
      obtain ⟨state, ⟨hcalled, h⟩ | ⟨shader, hdelivers, h⟩⟩ :=
        repository.loadShader_cases engine archive bundle entry.assetPath
      · simp only [h]
        exact .tail (.single (.run hcalled)) .fail
      · simp only [h]
        exact .single (.fill hdelivers)

theorem Materialization.entry_of_proceed {now : Nat} {source : Source β} {entry : EntryId}
    {repository : Repository σ β} {turn : Cell.Turn} {state : Materialization β} {pause : Pause}
    (h : (proceed engine now source entry repository turn).2 = .paused state pause) :
    state.entry = entry := by
  cases turn with
  | ready shader => cases h
  | wait => cases h; rfl
  | hold =>
      cases hbundle : source.bundle with
      | none => simp [proceed, hbundle] at h
      | some bundle =>
          simp only [proceed, hbundle] at h
          obtain ⟨rfl, -⟩ := Progress.paused.inj h
          rfl

theorem Materialization.entry_of_start {now : Nat} {source : Source β} {entry : EntryId}
    {repository : Repository σ β} {state : Materialization β} {pause : Pause}
    (h : (start engine task now source entry repository).2 = .paused state pause) :
    state.entry = entry :=
  entry_of_proceed engine h

theorem Materialization.entry_of_resume {now : Nat} {repository : Repository σ β}
    {state next : Materialization β} {pause : Pause}
    (h : (state.resume engine task now repository).2 = .paused next pause) :
    next.entry = state.entry := by
  cases state with
  | waiting source entry => exact entry_of_proceed engine h
  | loading archive bundle entry =>
      unfold resume at h
      cases hload : repository.loadShader engine archive bundle entry.assetPath with
      | mk repository result => cases result <;> simp [hload] at h

theorem Materialization.drop_acts (repository : Repository σ β) (state : Materialization β)
    (added : Nat) :
    Acts engine task ⟨repository, state.hold, added⟩
      ⟨state.drop task repository, .nothing, added⟩ := by
  cases state with
  | waiting source entry => exact .single (.leave (Or.inl rfl))
  | loading archive bundle entry => exact .single (.leave (Or.inr rfl))

end Materializations

/-! ### Shaders that are stored -/

section Stored

variable {engine : Engine σ β} {task : TaskId}

theorem Cell.stored_of_request {cell : Cell} {task : TaskId} {shader : Shader}
    (h : (cell.request task).2 = .ready shader) : cell.stored = some shader := by
  unfold request at h
  split at h <;> cases h
  assumption

theorem Cell.stored_of_turn {cell : Cell} {task : TaskId} {shader : Shader}
    (h : cell.turn task = .ready shader) : cell.stored = some shader := by
  unfold turn at h
  split at h
  · cases h
    assumption
  · split at h <;> cases h

theorem Materialization.turn_of_proceed {now : Nat} {source : Source β} {entry : EntryId}
    {repository : Repository σ β} {turn : Cell.Turn} {shader : Shader}
    (h : (proceed engine now source entry repository turn).2 = .done (.ok shader)) :
    turn = .ready shader := by
  cases turn with
  | ready found => cases h; rfl
  | wait => cases h
  | hold => cases hbundle : source.bundle <;> simp [proceed, hbundle] at h

/-- A task that has its shader at once finds it stored. -/
theorem Materialization.stored_of_start {now : Nat} {source : Source β} {entry : EntryId}
    {repository : Repository σ β} {shader : Shader}
    (h : (start engine task now source entry repository).2 = .done (.ok shader)) :
    ((start engine task now source entry repository).1.cell entry).stored = some shader := by
  have hturn := turn_of_proceed h
  have hstored := Cell.stored_of_request hturn
  have hafter : (start engine task now source entry repository).1
      = repository.modifyCell entry fun cell => (cell.request task).1 := by
    unfold start
    simp only [hturn, proceed]
  rw [hafter]
  cases hentry : repository.lookup? entry with
  | none => rw [repository.cell_modifyCell_of_none hentry, hstored]
  | some found => rw [repository.cell_modifyCell_self hentry, Cell.stored_request, hstored]

/-- A task that has its shader leaves it stored. -/
theorem Materialization.stored_of_resume {now : Nat} {state : Materialization β}
    {repository : Repository σ β} (hpresent : (repository.lookup? state.entry).isSome)
    {shader : Shader}
    (h : (state.resume engine task now repository).2 = .done (.ok shader)) :
    ((state.resume engine task now repository).1.cell state.entry).stored = some shader := by
  cases state with
  | waiting source entry =>
      have hturn := turn_of_proceed h
      have hafter : ((waiting source entry).resume engine task now repository).1 = repository := by
        unfold resume
        simp only [hturn, proceed]
      rw [hafter]
      exact Cell.stored_of_turn hturn
  | loading archive bundle entry =>
      unfold resume at h ⊢
      obtain ⟨state, ⟨hcalled, hload⟩ | ⟨made, hdelivers, hload⟩⟩ :=
        repository.loadShader_cases engine archive bundle entry.assetPath
      · simp only [hload] at h
        cases h
      · simp only [hload] at h ⊢
        cases h
        exact congrArg Cell.stored (Repository.cell_modifyCell_of_engine hpresent state _)

end Stored

/-! ### Lookups -/

section Lookups

variable (engine : Engine σ β) (task : TaskId)

theorem Lookup.hold_ofMaterialization (candidate : Candidate)
    (step : Repository σ β × Progress (Materialization β) Materialization.Result) :
    (ofMaterialization candidate step).2.hold hold = step.2.hold Materialization.hold := by
  obtain ⟨repository, progress⟩ := step
  exact Progress.hold_within hold _ _ progress

theorem Lookup.start_acts (now : Nat) (query : Signature) (repository : Repository σ β)
    (added : Nat) :
    Acts engine task ⟨repository, .nothing, added⟩
      ⟨(start engine task now query repository).1,
       (start engine task now query repository).2.hold hold, added⟩ := by
  unfold start
  split
  · exact .refl
  · rw [hold_ofMaterialization]
    exact Materialization.start_acts engine task now _ _ repository added

theorem Lookup.resume_acts (now : Nat) (repository : Repository σ β) (lookup : Lookup β)
    (added : Nat) :
    Acts engine task ⟨repository, lookup.hold, added⟩
      ⟨(lookup.resume engine task now repository).1,
       (lookup.resume engine task now repository).2.hold hold, added⟩ := by
  unfold resume
  rw [hold_ofMaterialization]
  exact lookup.materialization.resume_acts engine task now repository added

end Lookups

/-! ### The web phase -/

/-- How many archives a web phase has added. -/
def WebLoad.added : WebLoad β → Nat
  | .downloading _ => 0
  | .reserving _ _ loads => loads.added
  | .loading _ _ loads => loads.added
  | .caching _ _ loads => loads.added

/-- How many archives a request has added that ended with a result. -/
def addedBy : Except RepositoryError Nat → Nat
  | .ok count => count
  | .error _ => 0

section WebPhase

variable (engine : Engine σ β) (task : TaskId)

/-- Where a piece of work leaves a web phase. -/
def WebLoad.footing : World σ β × Progress (WebLoad β) Result → Footing σ β
  | (world, .paused state _) => ⟨world.repository, state.hold, state.added⟩
  | (world, .done result) => ⟨world.repository, .nothing, addedBy result⟩

/-- Whether the entry that a web phase loads the shader of, if it does, is a marker. -/
def WebLoad.Sound (repository : Repository σ β) : WebLoad β → Prop
  | .caching state .. => repository.IsMarker state.entry
  | _ => True

/-- A piece of work of a web phase: a row of acts that leaves the phase sound. -/
structure WebLoad.Piece (engine : Engine σ β) (task : TaskId) (before : Footing σ β)
    (step : World σ β × Progress (WebLoad β) Result) : Prop where
  acts : Acts engine task before (footing step)
  sound : ∀ state pause, step.2 = .paused state pause → state.Sound step.1.repository

namespace WebLoad

variable {engine task} in
theorem Piece.after {before middle : Footing σ β}
    {step : World σ β × Progress (WebLoad β) Result} (h : Piece engine task middle step)
    (hacts : Acts engine task before middle) : Piece engine task before step :=
  ⟨hacts.trans h.acts, h.sound⟩

theorem finish_piece (world : World σ β) (result : Result) :
    Piece engine task ⟨world.repository, .nothing, addedBy result⟩ (finish result world) where
  acts := .single .completeWeb
  sound _ _ h := by cases h

theorem conclude_piece (world : World σ β) (loads : Repository.Loads) :
    Piece engine task ⟨world.repository, .nothing, loads.added⟩ (conclude loads world) where
  acts := .head (.advance (by decide)) (.single .completeWeb)
  sound _ _ h := by cases h

theorem cacheInvalidFrom_piece (now : Nat) (loads : Repository.Loads) (indices : List Nat)
    (world : World σ β) :
    Piece engine task ⟨world.repository, .nothing, loads.added⟩
      (cacheInvalidFrom engine task now loads indices world) := by
  induction indices generalizing world with
  | nil => exact conclude_piece engine task world loads
  | cons index rest ih =>
      unfold cacheInvalidFrom
      split
      · exact ih world
      · rename_i id hid
        have hacts := Materialization.start_acts engine task now
          (world.repository.source index) id world.repository loads.added
        have hmarker := (Repository.isMarker_of_marker? hid).mono hacts.grows_declared
        split <;> rename_i h <;> rw [h] at hacts hmarker
        · rename_i repository state pause
          have hentry := Materialization.entry_of_start engine task (congrArg Prod.snd h)
          refine ⟨hacts, fun other _ heq => ?_⟩
          obtain ⟨rfl, -⟩ := Progress.paused.inj heq
          rw [← hentry] at hmarker
          exact hmarker
        · rename_i repository shader
          have hstored := Materialization.stored_of_start (congrArg Prod.snd h)
          rw [h] at hstored
          have hrest := conclude_piece engine task
            { world with repository := repository.keepInvalid shader } loads
          exact hrest.after (hacts.tail (.keep hmarker hstored))
        · exact (ih _).after hacts

theorem cacheInvalid_piece (now : Nat) (loads : Repository.Loads) (world : World σ β) :
    Piece engine task ⟨world.repository, .nothing, loads.added⟩
      (cacheInvalid engine task now loads world) := by
  unfold cacheInvalid
  split
  · exact conclude_piece engine task world loads
  · exact cacheInvalidFrom_piece engine task now loads _ world

theorem added_nil : Repository.Loads.added [] = 0 := by
  simp [Repository.Loads.added]

theorem added_append_loaded (loads : Repository.Loads) (path : Path) :
    Repository.Loads.added (loads ++ [(path, .loaded)]) = loads.added + 1 := by
  simp [Repository.Loads.added]

theorem added_append (loads : Repository.Loads) (path : Path) {outcome : Repository.ArchiveLoad}
    (h : outcome ≠ .loaded) :
    Repository.Loads.added (loads ++ [(path, outcome)]) = loads.added := by
  simp [Repository.Loads.added, h]

theorem nextArchive_piece (now : Nat) (paths : List Path) (loads : Repository.Loads)
    (world : World σ β) :
    Piece engine task ⟨world.repository, .nothing, loads.added⟩
      (nextArchive engine task now paths loads world) := by
  induction paths generalizing loads world with
  | nil => exact cacheInvalid_piece engine task now loads world
  | cons path rest ih =>
      unfold nextArchive
      split
      · have hnext := ih (loads ++ [(path, .alreadyLoaded)]) world
        rwa [added_append loads path (by decide)] at hnext
      · rename_i hloaded
        split
        · have hnext := ih (loads ++ [(path, .skipped)]) world
          rwa [added_append loads path (by decide)] at hnext
        · rename_i contents hread
          have hpath := Bundle.path_of_read hread
          have hparsed := Bundle.parsed_of_read hread
          split
          · exact ⟨.single (.read hparsed), fun _ _ heq => (Progress.paused.inj heq).1 ▸ trivial⟩
          · rename_i hreserved
            rw [← hpath] at hloaded hreserved ⊢
            exact ⟨.head (.read hparsed) (.single (.reserve hloaded hreserved)),
              fun _ _ heq => (Progress.paused.inj heq).1 ▸ trivial⟩

theorem start_piece (thread : Thread) (now : Nat) (downloader : Downloader)
    (world : World σ β) :
    Piece engine task ⟨world.repository, .nothing, 0⟩ (start thread now downloader world) := by
  cases thread with
  | main => exact ⟨.refl, fun _ _ heq => (Progress.paused.inj heq).1 ▸ trivial⟩
  | other => exact finish_piece engine task world (.error .notMainThread)

/-- What a web phase does once the load of a marker took its next step. -/
theorem caching_piece (now : Nat) (world : World σ β) {state : Materialization β}
    (hmarker : world.repository.IsMarker state.entry) (rest : List Nat)
    (loads : Repository.Loads) :
    Piece engine task
      ⟨(state.resume engine task now world.repository).1,
       (state.resume engine task now world.repository).2.hold Materialization.hold, loads.added⟩
      ((caching state rest loads).resume engine task now world) := by
  have hacts := state.resume_acts engine task now world.repository loads.added
  have hafter := hmarker.mono hacts.grows_declared
  unfold resume
  dsimp only
  split <;> rename_i h <;> rw [h] at hafter ⊢
  · rename_i repository next pause
    have hentry := Materialization.entry_of_resume engine task (congrArg Prod.snd h)
    refine ⟨.refl, fun other _ heq => ?_⟩
    obtain ⟨rfl, -⟩ := Progress.paused.inj heq
    rw [← hentry] at hafter
    exact hafter
  · rename_i repository shader
    have hstored := Materialization.stored_of_resume hmarker.isSome_lookup? (congrArg Prod.snd h)
    rw [h] at hstored
    have hrest := conclude_piece engine task
      { world with repository := repository.keepInvalid shader } loads
    exact hrest.after (.single (.keep hafter hstored))
  · rename_i repository _
    exact cacheInvalidFrom_piece engine task now loads rest { world with repository }

theorem resume_piece (now : Nat) {world : World σ β} {state : WebLoad β}
    (hsound : state.Sound world.repository) :
    Piece engine task ⟨world.repository, state.hold, state.added⟩
      (state.resume engine task now world) := by
  cases state with
  | downloading downloader =>
      show Piece engine task _ (arrive engine task now downloader world)
      unfold arrive
      split
      · exact finish_piece engine task world (.ok 0)
      · generalize downloader.files.foldl _ _ = files
        dsimp only
        split
        · exact finish_piece engine task { world with files } (.ok 0)
        · have hnext := nextArchive_piece engine task now downloader.paths []
            { world with files }
          rwa [added_nil] at hnext
  | reserving contents rest loads =>
      unfold resume
      dsimp only
      split
      · exact ⟨.refl, fun _ _ heq => (Progress.paused.inj heq).1 ▸ trivial⟩
      · rename_i hreserved
        split
        · have hnext := nextArchive_piece engine task now rest
            (loads ++ [(contents.path, .alreadyLoaded)]) world
          rw [added_append loads contents.path (by decide)] at hnext
          exact hnext.after (.single .forget)
        · rename_i hloaded
          exact ⟨.single (.reserve hloaded hreserved),
            fun _ _ heq => (Progress.paused.inj heq).1 ▸ trivial⟩
  | loading contents rest loads =>
      unfold resume
      obtain ⟨state, hcalled, h | ⟨bundle, h⟩⟩ := world.repository.register_cases engine contents
      · simp only [h]
        have hnext := nextArchive_piece engine task now rest
          (loads ++ [(contents.path, .skipped)])
          { world with
            repository := { world.repository with engine := state }.release contents.path }
        rw [added_append loads contents.path (by decide)] at hnext
        exact hnext.after (.head (.run hcalled) (.single .release))
      · simp only [h]
        have hnext := nextArchive_piece engine task now rest
          (loads ++ [(contents.path, .loaded)])
          { world with
            repository := ({ world.repository with engine := state }.append contents bundle).release
              contents.path }
        rw [added_append_loaded loads contents.path] at hnext
        exact hnext.after (.head (.run hcalled) (.single (.addReserved bundle)))
  | caching state rest loads =>
      have hacts := state.resume_acts engine task now world.repository loads.added
      exact (caching_piece engine task now world hsound rest loads).after hacts

theorem drop_acts (world : World σ β) (state : WebLoad β) (added : Nat) :
    Acts engine task ⟨world.repository, state.hold, added⟩
      ⟨(state.drop task world).repository, .nothing, added⟩ := by
  cases state with
  | downloading downloader => exact .single .completeWeb
  | reserving contents rest loads => exact .head .forget (.single .completeWeb)
  | loading contents rest loads => exact .head .release (.single .completeWeb)
  | caching state rest loads =>
      exact (state.drop_acts engine task world.repository added).tail .completeWeb

end WebLoad

end WebPhase

end ShaderMend
