import ShaderMend.Proofs.Session.Deliveries

/-!
# What tasks pause for

A task that does not block pauses until an instant, or until its turn at the cell of an entry.

* `Pause.Suits` — the second only if it is in the middle of a load that waits at this cell.
* `Task.suits_start`, `Task.suits_resume` — all pauses are of this kind.
* `Session.patient_move` — so those of a session are.
-/

namespace ShaderMend

variable {σ β : Type}

/-! ### Pauses of tasks -/

/-- Whether a pause is one of a task with a load: it lasts until an instant, or until the turn
at the cell where the load waits. -/
def Pause.Suits (pause : Pause) (load? : Option (Materialization β)) : Prop :=
  (∃ instant, pause = .until instant) ∨
    ∃ source id, load? = some (.waiting source id) ∧ pause = .turn id

section Pauses

variable {engine : Engine σ β} {task : TaskId} {now : Nat} {pause : Pause}

namespace Materialization

variable {repository : Repository σ β} {next : Materialization β}

theorem suits_proceed {source : Source β} {entry : EntryId} {turn : Cell.Turn}
    (h : (proceed engine now source entry repository turn).2 = .paused next pause) :
    pause.Suits (some next) := by
  cases turn with
  | ready shader => cases h
  | wait =>
      obtain ⟨rfl, rfl⟩ := Progress.paused.inj h
      exact Or.inr ⟨source, entry, rfl, rfl⟩
  | hold =>
      cases hbundle : source.bundle with
      | none => simp [proceed, hbundle] at h
      | some bundle =>
          simp only [proceed, hbundle] at h
          exact Or.inl ⟨_, (Progress.paused.inj h).2.symm⟩

theorem suits_start {source : Source β} {entry : EntryId}
    (h : (start engine task now source entry repository).2 = .paused next pause) :
    pause.Suits (some next) :=
  suits_proceed h

theorem suits_resume {state : Materialization β}
    (h : (state.resume engine task now repository).2 = .paused next pause) :
    pause.Suits (some next) := by
  cases state with
  | waiting source entry => exact suits_proceed h
  | loading archive bundle entry =>
      simp only [resume] at h
      split at h <;> cases h

end Materialization

namespace Lookup

variable {repository : Repository σ β} {next : Lookup β}

theorem paused_of_ofMaterialization {candidate : Candidate}
    {step : Repository σ β × Progress (Materialization β) Materialization.Result}
    (h : (ofMaterialization candidate step).2 = .paused next pause) :
    step.2 = .paused next.materialization pause := by
  obtain ⟨after, progress⟩ := step
  cases progress with
  | paused state other =>
      obtain ⟨rfl, rfl⟩ := Progress.paused.inj h
      rfl
  | done result => cases h

theorem suits_start {query : Signature}
    (h : (start engine task now query repository).2 = .paused next pause) :
    pause.Suits (some next.materialization) := by
  unfold start at h
  split at h
  · cases h
  · exact Materialization.suits_start (paused_of_ofMaterialization h)

theorem suits_resume {lookup : Lookup β}
    (h : (lookup.resume engine task now repository).2 = .paused next pause) :
    pause.Suits (some next.materialization) :=
  Materialization.suits_resume (paused_of_ofMaterialization h)

end Lookup

namespace WebLoad

variable {next : WebLoad β}

/-- What a web phase is in the middle of that needs the shader of an entry. -/
def materialization? : WebLoad β → Option (Materialization β)
  | .caching state .. => some state
  | _ => none

theorem suits_cacheInvalidFrom {loads : Repository.Loads} {indices : List Nat}
    {world : World σ β}
    (h : (cacheInvalidFrom engine task now loads indices world).2 = .paused next pause) :
    pause.Suits next.materialization? := by
  induction indices generalizing world with
  | nil => cases h
  | cons index rest ih =>
      unfold cacheInvalidFrom at h
      split at h
      · exact ih h
      · split at h <;> rename_i hstart
        · obtain ⟨rfl, rfl⟩ := Progress.paused.inj h
          exact Materialization.suits_start (congrArg Prod.snd hstart)
        · cases h
        · exact ih h

theorem suits_cacheInvalid {loads : Repository.Loads} {world : World σ β}
    (h : (cacheInvalid engine task now loads world).2 = .paused next pause) :
    pause.Suits next.materialization? := by
  unfold cacheInvalid at h
  split at h
  · cases h
  · exact suits_cacheInvalidFrom h

theorem suits_nextArchive {paths : List Path} {loads : Repository.Loads} {world : World σ β}
    (h : (nextArchive engine task now paths loads world).2 = .paused next pause) :
    pause.Suits next.materialization? := by
  induction paths generalizing loads with
  | nil => exact suits_cacheInvalid h
  | cons path rest ih =>
      unfold nextArchive at h
      split at h
      · exact ih h
      · split at h
        · exact ih h
        · split at h
          · exact Or.inl ⟨_, (Progress.paused.inj h).2.symm⟩
          · exact Or.inl ⟨_, (Progress.paused.inj h).2.symm⟩

theorem suits_start {thread : Thread} {downloader : Downloader} {world : World σ β}
    (h : (start thread now downloader world).2 = .paused next pause) :
    pause.Suits next.materialization? := by
  cases thread with
  | main => exact Or.inl ⟨_, (Progress.paused.inj h).2.symm⟩
  | other => cases h

theorem suits_resume {world : World σ β} {state : WebLoad β}
    (h : (state.resume engine task now world).2 = .paused next pause) :
    pause.Suits next.materialization? := by
  cases state with
  | downloading downloader =>
      simp only [resume, arrive] at h
      split at h
      · cases h
      · split at h
        · cases h
        · exact suits_nextArchive h
  | reserving contents rest loads =>
      simp only [resume] at h
      split at h
      · exact Or.inl ⟨_, (Progress.paused.inj h).2.symm⟩
      · split at h
        · exact suits_nextArchive h
        · exact Or.inl ⟨_, (Progress.paused.inj h).2.symm⟩
  | loading contents rest loads => exact suits_nextArchive h
  | caching state rest loads =>
      simp only [resume] at h
      split at h <;> rename_i hresume
      · obtain ⟨rfl, rfl⟩ := Progress.paused.inj h
        exact Materialization.suits_resume (congrArg Prod.snd hresume)
      · cases h
      · exact suits_cacheInvalidFrom h

end WebLoad

theorem WebWait.suits_poll {repository : Repository σ β} {wait next : WebWait}
    (h : (wait.poll now repository).2 = .paused next pause) :
    next = wait ∧ ∃ instant, pause = .until instant := by
  unfold poll at h
  split at h
  · cases h
  · split at h
    · cases h
    · obtain ⟨rfl, rfl⟩ := Progress.paused.inj h
      exact ⟨rfl, _, rfl⟩

namespace Repair.Run

variable {next : Run β}

/-- What a repair is in the middle of that needs the shader of an entry. -/
def materialization? : Run β → Option (Materialization β)
  | .waiting .. => none
  | .lookingUp _ _ _ _ lookup => some lookup.materialization

theorem suits_next {job : Job} {shaders : List Shader} {missing : List String}
    {world : World σ β}
    (h : (Run.next engine task now job shaders missing world).2 = .paused next pause) :
    pause.Suits next.materialization? := by
  induction shaders generalizing missing world with
  | nil => cases h
  | cons shader rest ih =>
      unfold Run.next at h
      cases hstart : Lookup.start engine task now shader.query world.repository with
      | mk repository progress =>
          simp only [hstart, World.withRepository] at h
          cases progress with
          | paused lookup other =>
              obtain ⟨rfl, rfl⟩ := Progress.paused.inj h
              exact Lookup.suits_start (congrArg Prod.snd hstart)
          | done result =>
              dsimp only at h
              split at h
              · cases h
              · exact ih h

theorem suits_await {job : Job} {shaders : List Shader} {wait : WebWait} {world : World σ β}
    (h : (await engine task now job shaders wait world).2 = .paused next pause) :
    pause.Suits next.materialization? := by
  unfold await at h
  cases hpoll : wait.poll now world.repository with
  | mk repository progress =>
      simp only [hpoll, World.withRepository] at h
      cases progress with
      | paused wait other =>
          obtain ⟨rfl, rfl⟩ := Progress.paused.inj h
          exact Or.inl (WebWait.suits_poll (congrArg Prod.snd hpoll)).2
      | done inTime => exact suits_next h

theorem suits_start {thread : Thread} {materials : List MaterialId} {world : World σ β}
    (h : (start engine task now thread materials world).2 = .paused next pause) :
    pause.Suits next.materialization? := by
  unfold start at h
  split at h
  · cases h
  · cases h
  · exact suits_await h

theorem suits_resume {world : World σ β} {run : Run β}
    (h : (run.resume engine task now world).2 = .paused next pause) :
    pause.Suits next.materialization? := by
  cases run with
  | waiting job shaders wait => exact suits_await h
  | lookingUp job shader rest missing lookup =>
      unfold resume at h
      cases hresume : lookup.resume engine task now world.repository with
      | mk repository progress =>
          simp only [hresume, World.withRepository] at h
          cases progress with
          | paused lookup other =>
              obtain ⟨rfl, rfl⟩ := Progress.paused.inj h
              exact Lookup.suits_resume (congrArg Prod.snd hresume)
          | done result =>
              dsimp only at h
              split at h
              · cases h
              · exact suits_next h

end Repair.Run

namespace Task

variable {world : World σ β} {next : Task β}

theorem suits_start {thread : Thread} {request : Request}
    (h : (start engine task now thread request world).2 = .paused next pause) :
    pause.Suits next.materialization? := by
  cases request with
  | loadWeb directory downloader =>
      simp only [start, startWebLoad] at h
      split at h
      · cases h
      · obtain ⟨part, hpart, rfl⟩ := paused_of_step h
        have hsuits := WebLoad.suits_start hpart
        cases part <;> exact hsuits
  | awaitWeb timeout =>
      obtain ⟨deadline, part, hpart, rfl⟩ := paused_of_startWebWait h
      exact Or.inl (WebWait.suits_poll hpart).2
  | findSuspending query =>
      cases thread with
      | other => cases h
      | main =>
          obtain ⟨part, hpart, rfl⟩ := paused_of_step h
          exact Lookup.suits_start hpart
  | materializeSuspending provider entry =>
      cases thread with
      | other => cases h
      | main =>
          obtain ⟨part, hpart, rfl⟩ := paused_of_step h
          exact Materialization.suits_start hpart
  | repairSuspending target =>
      obtain ⟨part, hpart, rfl⟩ := paused_of_step h
      have hsuits := Repair.Run.suits_start hpart
      cases part <;> exact hsuits
  | saveRecords path =>
      simp only [start] at h
      split at h <;> cases h
  | _ => cases h

theorem suits_resume {state : Task β}
    (h : (state.resume engine task now world).2 = .paused next pause) :
    pause.Suits next.materialization? := by
  cases state with
  | webLoad directory state =>
      obtain ⟨part, hpart, rfl⟩ := paused_of_step h
      have hsuits := WebLoad.suits_resume hpart
      cases part <;> exact hsuits
  | webWait state =>
      obtain ⟨part, hpart, rfl⟩ := paused_of_step h
      exact Or.inl (WebWait.suits_poll hpart).2
  | lookup state =>
      obtain ⟨part, hpart, rfl⟩ := paused_of_step h
      exact Lookup.suits_resume hpart
  | materialization state =>
      obtain ⟨part, hpart, rfl⟩ := paused_of_step h
      exact Materialization.suits_resume hpart
  | repair state =>
      obtain ⟨part, hpart, rfl⟩ := paused_of_step h
      have hsuits := Repair.Run.suits_resume hpart
      cases part <;> exact hsuits

end Task

end Pauses

/-! ### Pauses in a session -/

namespace Session

variable {engine : Engine σ β} {session : Session σ β}

/-- Whether all pauses are until instants, or until turns at the cells where loads wait. -/
def Patient (session : Session σ β) : Prop :=
  ∀ running ∈ session.running, running.pause.Suits running.activity.materialization?

theorem patient_fresh (world : World σ β) : (fresh world).Patient :=
  fun _ hmem => by cases hmem

theorem patient_plan (h : session.Patient) (instant : Nat) (thread : Thread) (request : Request) :
    (session.plan instant thread request).Patient := by
  intro running hmem
  rcases List.mem_append.mp hmem with hmem | hmem
  · exact h running hmem
  · rw [List.mem_singleton.mp hmem]
    exact Or.inl ⟨instant, rfl⟩

theorem suits_advance {running : Running β} {state : Task β} {pause : Pause}
    (h : (session.advance engine running).2 = .paused state pause) :
    pause.Suits state.materialization? := by
  unfold advance at h
  split at h
  · exact Task.suits_start h
  · exact Task.suits_resume h

/-- **Every move keeps the pauses of a session suitable.** -/
theorem patient_move (h : session.Patient) (next : Move) : (session.move engine next).Patient := by
  cases next with
  | plan instant thread request => exact patient_plan h instant thread request
  | _ =>
      intro running hmem
      rcases mem_running_move hmem with hmem | ⟨instant, thread, request, hnext, -⟩
        | ⟨former, state, -, -, hbegun, hpaused⟩
      · exact h running hmem
      · cases hnext
      · rw [hbegun]
        exact suits_advance hpaused

end Session

end ShaderMend
