import ShaderMend.Proofs.Session.History
import ShaderMend.Proofs.Session.WebPhase

/-!
# Stages of a repository and the end of the web phase

* `Act.keeps_rank`, `Act.keeps_webDone`, `Act.keeps_ready` — no act leads back to an earlier
  stage or lowers the flag that the web phase is over, and the flag is up at the last stage
  alone.
* `Session.webDone_of_webPhase`, `Session.webDone_of_other` — which pieces of work raise it.
-/

namespace ShaderMend

variable {σ β : Type}

/-! ### Acts -/

/-- **No act leads back to an earlier stage.** -/
theorem Act.keeps_rank (engine : Engine σ β) (least : Nat) :
    Act.Keeps engine fun repository _ => least ≤ repository.stage.rank := by
  intro task before after holds hact _ h
  have hadvance : ∀ stage next : Stage, least ≤ stage.rank → least ≤ (stage.advance next).rank := by
    intro stage next hleast
    rw [Stage.rank_advance]
    exact Nat.le_trans hleast (Nat.le_max_left _ _)
  cases hact with
  | advance hstage => exact hadvance _ _ h
  | completeWeb => exact hadvance _ _ h
  | _ => exact h

/-- **No act lowers the flag.** -/
theorem Act.keeps_webDone (engine : Engine σ β) :
    Act.Keeps engine fun repository _ => repository.webDone = true := by
  intro task before after holds hact _ h
  cases hact with
  | completeWeb => rfl
  | _ => exact h

theorem Stage.advance_eq_ready {stage next : Stage} (h : next ≠ .ready) :
    stage.advance next = .ready ↔ stage = .ready := by
  cases stage <;> cases next <;> simp_all [Stage.advance, Stage.rank]

theorem Stage.advance_ready (stage : Stage) : stage.advance .ready = .ready := by
  cases stage <;> rfl

/-- **The flag is up at the last stage alone.** -/
theorem Act.keeps_ready (engine : Engine σ β) :
    Act.Keeps engine fun repository _ => repository.webDone = true ↔ repository.stage = .ready := by
  intro task before after holds hact _ h
  cases hact with
  | advance hstage => exact h.trans (Stage.advance_eq_ready hstage).symm
  | completeWeb => exact iff_of_true rfl (Stage.advance_ready _)
  | _ => exact h

/-! ### Other tasks -/

section Others

variable (engine : Engine σ β)

namespace Repository

theorem webDone_materialize (repository : Repository σ β) (source : Source β) (id : EntryId) :
    (repository.materialize engine source id).1.webDone = repository.webDone := by
  unfold materialize
  split
  · rfl
  · rfl
  · rename_i bundle _ _
    have hload := repository.webDone_loadShader engine source.archive bundle id.assetPath
    split <;> rename_i h <;> rw [h] at hload <;> exact hload

theorem webDone_find (repository : Repository σ β) (query : Signature) :
    (repository.find engine query).1.webDone = repository.webDone := by
  unfold find
  split
  · rfl
  · rename_i candidate _
    have hload := repository.webDone_materialize engine
      (repository.source candidate.entry.manifest) candidate.entry
    dsimp only
    split <;> rename_i h <;> rw [h] at hload <;> exact hload

theorem webDone_loadArchive (repository : Repository σ β) (files : FileTree) (path : Path) :
    (repository.loadArchive engine files path).1.webDone = repository.webDone := by
  unfold loadArchive
  split
  · rfl
  · split
    · rfl
    · rename_i contents _
      have hflag := (repository.register_spec engine contents).1
      split
      · rfl
      · split <;> rename_i h <;> rw [h] at hflag <;> exact hflag

theorem webDone_loadArchives (files : FileTree) (paths : List Path)
    (repository : Repository σ β) :
    (loadArchives engine files paths repository).1.webDone = repository.webDone := by
  induction paths generalizing repository with
  | nil => rfl
  | cons path rest ih => exact (ih _).trans (repository.webDone_loadArchive engine files path)

theorem webDone_cacheInvalidFrom (indices : List Nat) (repository : Repository σ β) :
    (cacheInvalidFrom engine indices repository).webDone = repository.webDone := by
  induction indices generalizing repository with
  | nil => rfl
  | cons index rest ih =>
      unfold cacheInvalidFrom
      split
      · exact ih repository
      · rename_i id _
        have hload := repository.webDone_materialize engine (repository.source index) id
        split <;> rename_i h <;> rw [h] at hload
        · exact hload
        · exact (ih _).trans hload

theorem webDone_loadLocal (repository : Repository σ β) (files : FileTree) (directory : Path) :
    (repository.loadLocal engine files directory).1.webDone = repository.webDone := by
  unfold loadLocal
  split
  · refine Eq.trans ?_ (webDone_loadArchives engine files
      ((Bundle.archivesIn files directory).toOption.getD []) repository)
    simp only [advance, cacheInvalid]
    split
    · rfl
    · exact webDone_cacheInvalidFrom engine _ _
  · rfl

end Repository

theorem Repair.webDone_replaceAll (job : Repair.Job) (shaders : List Shader)
    (missing : List String) (world : World σ β) :
    (replaceAll engine job shaders missing world).1.repository.webDone
      = world.repository.webDone := by
  induction shaders generalizing missing world with
  | nil =>
      unfold replaceAll
      simp
  | cons shader rest ih =>
      have hfind := world.repository.webDone_find engine shader.query
      unfold replaceAll
      dsimp only [World.withRepository]
      split
      · exact hfind
      · refine (ih _ _).trans ?_
        simpa using hfind

theorem Repair.webDone_fix (thread : Thread) (materials : List MaterialId) (world : World σ β) :
    (fix engine thread materials world).1.repository.webDone = world.repository.webDone := by
  unfold fix
  split
  · rfl
  · rfl
  · exact webDone_replaceAll engine _ _ _ world

theorem Lookup.webDone_start (task : TaskId) (now : Nat) (query : Signature)
    (repository : Repository σ β) :
    (start engine task now query repository).1.webDone = repository.webDone := by
  unfold start
  split
  · rfl
  · exact Materialization.webDone_start engine task now _ _ repository

theorem WebWait.webDone_poll (now : Nat) (wait : WebWait) (repository : Repository σ β) :
    (wait.poll now repository).1.webDone = repository.webDone ∨
      (wait.poll now repository).2 = .done false := by
  unfold poll
  split
  · exact Or.inl rfl
  · split
    · exact Or.inr rfl
    · exact Or.inl rfl

/-- What is answered at once, and only on the main thread. -/
theorem Task.webDone_guarded {α : Type} {thread : Thread} {repository : Repository σ β}
    {result : Repository σ β × Except RepositoryError α}
    (h : result.1.webDone = repository.webDone) :
    (guarded thread repository result).1.webDone = repository.webDone := by
  cases thread with
  | main => exact h
  | other => rfl

theorem Task.webDone_poll (wait : WebWait) (now : Nat) (world : World σ β) :
    (step .webWait .awaited (world.withRepository
        (wait.poll now world.repository)) : Step σ β).1.repository.webDone
          = world.repository.webDone ∨
      (step .webWait .awaited (world.withRepository
        (wait.poll now world.repository)) : Step σ β).2 = .done (.awaited false) := by
  rcases wait.webDone_poll now world.repository with hsame | hlate
  · exact Or.inl hsame
  · right
    simp only [step, World.withRepository, hlate]
    rfl

theorem Task.webDone_startWebWait (now : Nat) (timeout : Duration) (world : World σ β) :
    (startWebWait now timeout world : Step σ β).1.repository.webDone
        = world.repository.webDone ∨
      (startWebWait now timeout world : Step σ β).2 = .done (.awaited false) := by
  unfold startWebWait
  cases deadline? now timeout with
  | none => exact Or.inl rfl
  | some deadline => exact webDone_poll ⟨deadline⟩ now world

end Others

/-! ### Roles -/

/-- What an activity has to do with the end of the web phase. -/
inductive Activity.Role where
  /-- It is a web phase. -/
  | webPhase
  /-- It raises the flag itself, or may do so after a while. -/
  | marking
  | other
  deriving DecidableEq

/-- The role of an activity. -/
def Activity.role : Activity β → Activity.Role
  | .planned _ (.loadWeb ..) => .webPhase
  | .planned _ .completeWeb => .marking
  | .planned _ (.repairSuspending _) => .marking
  | .begun (.webLoad ..) => .webPhase
  | .begun (.repair _) => .marking
  | _ => .other

theorem Progress.isDone_within {τ υ α γ : Type} (wrap : τ → υ) (finish : α → γ)
    (progress : Progress τ α) : (progress.within wrap finish).isDone = progress.isDone := by
  cases progress <;> rfl

namespace Session

variable {engine : Engine σ β} {session : Session σ β} {running : Running β}

/-- An activity that pauses keeps its role. -/
theorem role_of_paused {state : Task β} {pause : Pause}
    (h : (session.advance engine running).2 = .paused state pause) :
    (Activity.begun state).role = running.activity.role := by
  unfold advance at h
  cases hactivity : running.activity with
  | planned thread request =>
      rw [hactivity] at h
      have hstarted := Task.started engine running.task h
      generalize (Task.start engine running.task _ _ _ session.world).1 = after at hstarted
      cases hstarted <;> rfl
  | begun task =>
      rw [hactivity] at h
      cases task <;> obtain ⟨part, -, rfl⟩ := Task.paused_of_step h <;> rfl

/-- **A web phase raises the flag with its end, and not before.** -/
theorem webDone_of_webPhase (engine : Engine σ β) (session : Session σ β)
    (h : running.activity.role = .webPhase) :
    (session.advance engine running).1.repository.webDone
      = ((session.advance engine running).2.isDone || session.world.repository.webDone) := by
  have hstep : ∀ {directory called} {work : World σ β × Progress (WebLoad β) WebLoad.Result},
      work.1.repository.webDone = (work.2.isDone || session.world.repository.webDone) →
        (Task.step (.webLoad directory) (.webLoaded · called) work).1.repository.webDone
          = ((Task.step (.webLoad directory) (.webLoaded · called) work).2.isDone
            || session.world.repository.webDone) := by
    intro directory called work hwork
    obtain ⟨world, progress⟩ := work
    simpa [Task.step, Progress.isDone_within] using hwork
  unfold advance
  cases hactivity : running.activity with
  | planned thread request =>
      rw [hactivity] at h
      cases request with
      | loadWeb directory downloader =>
          simp only [Task.start, Task.startWebLoad]
          split
          · rfl
          · exact hstep (WebLoad.passes_start _ thread downloader session.world)
      | _ => cases h
  | begun task =>
      rw [hactivity] at h
      cases task with
      | webLoad directory state =>
          have hpasses := WebLoad.passes_resume engine running.task session.clock session.world
            state
          exact hstep hpasses.1
      | _ => cases h

/-- **Other activities leave the flag alone**, but for those that wait for it too long. -/
theorem webDone_of_other (engine : Engine σ β) (session : Session σ β)
    (h : running.activity.role = .other) :
    (session.advance engine running).1.repository.webDone = session.world.repository.webDone ∨
      (session.advance engine running).2 = .done (.awaited false) := by
  unfold advance
  cases hactivity : running.activity with
  | planned thread request =>
      rw [hactivity] at h
      cases request with
      | loadLocal directory =>
          have hload := session.world.repository.webDone_loadLocal engine session.world.files
          exact Or.inl (Task.webDone_guarded (hload _))
      | awaitWeb timeout => exact Task.webDone_startWebWait session.clock timeout session.world
      | find query =>
          exact Or.inl (Task.webDone_guarded (session.world.repository.webDone_find engine query))
      | findSuspending query =>
          cases thread with
          | other => exact Or.inl rfl
          | main => exact Or.inl (Lookup.webDone_start engine _ _ query _)
      | materialize provider entry =>
          have hload := session.world.repository.webDone_materialize engine
          exact Or.inl (Task.webDone_guarded (hload _ entry))
      | materializeSuspending provider entry =>
          cases thread with
          | other => exact Or.inl rfl
          | main => exact Or.inl (Materialization.webDone_start engine _ _ _ entry _)
      | repair target => exact Or.inl (Repair.webDone_fix engine thread _ session.world)
      | saveRecords path =>
          left
          simp only [Task.start]
          split <;> rfl
      | loadWeb directory downloader => cases h
      | completeWeb => cases h
      | repairSuspending target => cases h
      | _ => exact Or.inl rfl
  | begun task =>
      rw [hactivity] at h
      cases task with
      | webLoad directory state => cases h
      | webWait wait => exact Task.webDone_poll wait session.clock session.world
      | lookup lookup =>
          exact Or.inl (lookup.materialization.webDone_resume engine _ _ _)
      | materialization state => exact Or.inl (state.webDone_resume engine _ _ _)
      | repair run => cases h

/-- A web phase that is dropped raises the flag, once it has begun. -/
theorem webDone_drop {directory : Path} {state : WebLoad β}
    (hfound : session.activity? running.task = some running)
    (h : running.activity = .begun (.webLoad directory state)) :
    (session.move engine (.drop running.task)).world.repository.webDone = true := by
  simp only [move, hfound, drop, h]
  rfl

/-- Other activities that are dropped leave the flag alone. -/
theorem webDone_drop_of_other (session : Session σ β) (running : Running β)
    (h : ∀ directory state, running.activity ≠ .begun (.webLoad directory state)) :
    (session.drop running).world.repository.webDone = session.world.repository.webDone := by
  unfold drop
  cases hactivity : running.activity with
  | planned thread request => rfl
  | begun task =>
      cases task with
      | webLoad directory state => exact absurd hactivity (h directory state)
      | repair run => cases run <;> rfl
      | _ => rfl

/-- **A web phase that has ended has raised the flag.** -/
theorem webDone_of_ending (hsound : session.Sound) {moves : List Move} {ending : Ending σ β}
    (hmem : ending ∈ endings engine moves session)
    (h : ending.running.activity.role = .webPhase) :
    (replay engine moves session).world.repository.webDone = true := by
  obtain ⟨earlier, later, -, -, -, hstep, hreplay⟩ := mem_endings hmem
  have hflag := webDone_of_webPhase engine ending.before h
  rw [hstep, ← world_resume] at hflag
  rw [hreplay]
  exact replay_keeps (Act.keeps_webDone engine) later (sound_of_ending hsound hmem).2 hflag

/-- The activities that are dropped with a move. -/
def dropsOf (session : Session σ β) : Move → List (Activity β)
  | .drop task => ((session.activity? task).map Running.activity).toList
  | _ => []

/-- The activities that are dropped in the course of a row of moves. -/
def drops (engine : Engine σ β) : List Move → Session σ β → List (Activity β) :=
  collect engine dropsOf

/-- **A web phase that was dropped once it had begun has raised the flag.** -/
theorem webDone_of_drop (hsound : session.Sound) {moves : List Move} {directory : Path}
    {state : WebLoad β} (hmem : .begun (.webLoad directory state) ∈ drops engine moves session) :
    (replay engine moves session).world.repository.webDone = true := by
  obtain ⟨earlier, next, later, rfl, hseen⟩ := mem_collect_iff.mp hmem
  rw [replay_append]
  cases next with
  | drop task =>
      simp only [dropsOf, Option.mem_toList, Option.map_eq_some_iff] at hseen
      obtain ⟨running, hfound, hactivity⟩ := hseen
      obtain rfl := task_of_activity? hfound
      exact replay_keeps (Act.keeps_webDone engine) later ((hsound.replay earlier).move _)
        (webDone_drop hfound hactivity)
  | _ => cases hseen

end Session

end ShaderMend
