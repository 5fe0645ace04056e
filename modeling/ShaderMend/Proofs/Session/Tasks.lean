import ShaderMend.Proofs.Session.Pieces

/-!
# Tasks

* `Task.start_acts`, `Task.resume_acts`, `Task.drop_acts` — a request, a piece of work
  and the end of a task that is dropped are rows of acts.
* `Task.sound_of_start`, `Task.sound_of_resume` — a web phase loads the shaders of markers
  alone.
-/

namespace ShaderMend

variable {σ β : Type}

open Relation (ReflTransGen)

/-! ### Repairs -/

section Repairs

variable (engine : Engine σ β) (task : TaskId)

namespace Repair

@[simp] theorem repository_record (job : Job) (shader : Shader) (replacement : Option Replacement)
    (world : World σ β) : (record job shader replacement world).repository = world.repository := by
  unfold record
  split <;> rfl

@[simp] theorem repository_replace (job : Job) (shader : Shader)
    (replacement : Option Replacement) (world : World σ β) :
    (replace job shader replacement world).repository = world.repository := by
  unfold replace
  split <;> rfl

@[simp] theorem repository_finish (job : Job) (missing : List String) (world : World σ β) :
    (finish job missing world).1.repository = world.repository := by
  unfold finish
  dsimp only
  split <;> rfl

theorem replaceAll_acts (job : Job) (shaders : List Shader) (missing : List String)
    (world : World σ β) (added : Nat) :
    Acts engine task ⟨world.repository, .nothing, added⟩
      ⟨(replaceAll engine job shaders missing world).1.repository, .nothing, added⟩ := by
  induction shaders generalizing missing world with
  | nil =>
      unfold replaceAll
      simpa using ReflTransGen.refl
  | cons shader rest ih =>
      unfold replaceAll
      have hfind := world.repository.find_acts engine task shader.query
        .nothing added
      dsimp only [World.withRepository]
      split
      · exact hfind
      · rename_i replacement _
        refine hfind.trans ?_
        have hrest := ih (missingAfter shader replacement missing)
          (replace job shader replacement (record job shader replacement
            { world with repository := (world.repository.find engine shader.query).1 }))
        simpa using hrest

theorem fix_acts (thread : Thread) (materials : List MaterialId) (world : World σ β)
    (added : Nat) :
    Acts engine task ⟨world.repository, .nothing, added⟩
      ⟨(fix engine thread materials world).1.repository, .nothing, added⟩ := by
  unfold fix
  split
  · exact .refl
  · exact .refl
  · exact replaceAll_acts engine task _ _ _ _ _

namespace Run

theorem next_acts (now : Nat) (job : Job) (shaders : List Shader) (missing : List String)
    (world : World σ β) (added : Nat) :
    Acts engine task ⟨world.repository, .nothing, added⟩
      ⟨(next engine task now job shaders missing world).1.repository,
       (next engine task now job shaders missing world).2.hold hold, added⟩ := by
  induction shaders generalizing missing world with
  | nil =>
      unfold next
      simpa [Progress.hold] using ReflTransGen.refl
  | cons shader rest ih =>
      unfold next
      have hlookup := Lookup.start_acts engine task now shader.query
        world.repository added
      cases h : Lookup.start engine task now shader.query world.repository with
      | mk repository progress =>
          rw [h] at hlookup
          cases progress with
          | paused lookup pause => exact hlookup
          | done result =>
              dsimp only [World.withRepository]
              split
              · exact hlookup
              · rename_i replacement _
                refine hlookup.trans ?_
                have hrest := ih (missingAfter shader replacement missing)
                  (replace job shader replacement (record job shader replacement
                    { world with repository }))
                simpa [Progress.hold] using hrest

theorem await_acts (now : Nat) (job : Job) (shaders : List Shader) (wait : WebWait)
    (world : World σ β) (added : Nat) :
    Acts engine task ⟨world.repository, .nothing, added⟩
      ⟨(await engine task now job shaders wait world).1.repository,
       (await engine task now job shaders wait world).2.hold hold, added⟩ := by
  unfold await WebWait.poll
  by_cases hdone : world.repository.webDone
  · rw [if_pos hdone]
    exact next_acts engine task now job shaders [] world added
  · rw [if_neg hdone]
    by_cases hlate : wait.deadline ≤ now
    · rw [if_pos hlate]
      exact .head .completeWeb (next_acts engine task now job shaders []
        { world with repository := world.repository.completeWeb } added)
    · rw [if_neg hlate]
      exact .refl

theorem start_acts (now : Nat) (thread : Thread) (materials : List MaterialId)
    (world : World σ β) (added : Nat) :
    Acts engine task ⟨world.repository, .nothing, added⟩
      ⟨(start engine task now thread materials world).1.repository,
       (start engine task now thread materials world).2.hold hold, added⟩ := by
  unfold start
  split
  · exact .refl
  · exact .refl
  · exact await_acts engine task now _ _ _ world added

/-- What a repair does once the load that it needs took its next step. -/
theorem lookingUp_acts (now : Nat) (world : World σ β) (job : Job) (shader : Shader)
    (rest : List Shader) (missing : List String) (lookup : Lookup β) (added : Nat) :
    Acts engine task
      ⟨(lookup.resume engine task now world.repository).1,
       (lookup.resume engine task now world.repository).2.hold Lookup.hold, added⟩
      ⟨((lookingUp job shader rest missing lookup).resume engine task now world).1.repository,
       ((lookingUp job shader rest missing lookup).resume engine task now world).2.hold hold,
       added⟩ := by
  dsimp only [resume, World.withRepository]
  cases lookup.resume engine task now world.repository with
  | mk repository progress =>
      cases progress with
      | paused lookup pause => exact .refl
      | done result =>
          dsimp only
          split
          · exact .refl
          · rename_i replacement _
            have hrest := next_acts engine task now job rest
              (missingAfter shader replacement missing)
              (replace job shader replacement (record job shader replacement
                { world with repository })) added
            simpa [Progress.hold] using hrest

theorem resume_acts (now : Nat) (world : World σ β) (run : Run β) (added : Nat) :
    Acts engine task ⟨world.repository, run.hold, added⟩
      ⟨(run.resume engine task now world).1.repository,
       (run.resume engine task now world).2.hold hold, added⟩ := by
  cases run with
  | waiting job shaders wait => exact await_acts engine task now job shaders wait world added
  | lookingUp job shader rest missing lookup =>
      have hlookup := lookup.resume_acts engine task now world.repository added
      exact hlookup.trans
        (lookingUp_acts engine task now world job shader rest missing lookup added)

theorem drop_acts (world : World σ β) (run : Run β) (added : Nat) :
    Acts engine task ⟨world.repository, run.hold, added⟩
      ⟨(run.drop task world).repository, .nothing, added⟩ := by
  cases run with
  | waiting job shaders wait => exact .refl
  | lookingUp job shader rest missing lookup =>
      exact lookup.materialization.drop_acts engine task world.repository added

end Run

end Repair

end Repairs

/-! ### Tasks -/

/-- How many archives a task has added so far. -/
def Task.added : Task β → Nat
  | .webLoad _ state => state.added
  | _ => 0

/-- How many archives a request has added by its reply. -/
def Reply.added : Reply σ β → Nat
  | .loaded result => addedBy result
  | .webLoaded result _ => addedBy result
  | _ => 0

/-- Whether the entry that a task loads the shader of for its own sake, if it does, is a
marker. -/
def Task.Sound (repository : Repository σ β) : Task β → Prop
  | .webLoad _ state => state.Sound repository
  | _ => True

/-- How many archives were added up to the end of a piece of work. -/
def Progress.added : Progress (Task β) (Reply σ β) → Nat
  | .paused state _ => state.added
  | .done reply => reply.added

/-- Where a piece of work leaves a task. -/
def Task.footing (step : Task.Step σ β) : Footing σ β :=
  ⟨step.1.repository, step.2.hold hold, step.2.added⟩

section Tasks

variable (engine : Engine σ β) (task : TaskId)

namespace Task

/-- A part that adds no archives is a task that adds none. -/
theorem footing_step {τ α : Type} {wrap : τ → Task β} {reply : α → Reply σ β}
    (hwrap : ∀ state, (wrap state).added = 0) (hreply : ∀ value, (reply value).added = 0)
    (work : World σ β × Progress τ α) :
    footing (step wrap reply work)
      = ⟨work.1.repository, work.2.hold fun state => (wrap state).hold, 0⟩ := by
  obtain ⟨world, progress⟩ := work
  cases progress with
  | paused state pause =>
      simp [footing, step, Progress.within, Progress.hold, Progress.added, hwrap]
  | done value => simp [footing, step, Progress.within, Progress.hold, Progress.added, hreply]

theorem done_of_step {τ α : Type} {wrap : τ → Task β} {reply : α → Reply σ β}
    {work : World σ β × Progress τ α} {answer : Reply σ β}
    (h : (step wrap reply work).2 = .done answer) :
    ∃ value, work.2 = .done value ∧ answer = reply value := by
  obtain ⟨world, progress⟩ := work
  cases progress with
  | paused state pause => cases h
  | done value => exact ⟨value, rfl, (Progress.done.inj h).symm⟩

theorem paused_of_step {τ α : Type} {wrap : τ → Task β} {reply : α → Reply σ β}
    {work : World σ β × Progress τ α} {state : Task β} {pause : Pause}
    (h : (step wrap reply work).2 = .paused state pause) :
    ∃ part, work.2 = .paused part pause ∧ state = wrap part := by
  obtain ⟨world, progress⟩ := work
  cases progress with
  | paused part other =>
      obtain ⟨rfl, rfl⟩ := Progress.paused.inj h
      exact ⟨part, rfl, rfl⟩
  | done value => cases h

theorem footing_webLoad (directory : Path) (called : Option Path)
    (work : World σ β × Progress (WebLoad β) WebLoad.Result) :
    footing (step (.webLoad directory) (.webLoaded · called) work) = WebLoad.footing work := by
  obtain ⟨world, progress⟩ := work
  cases progress <;> rfl

theorem poll_acts (now : Nat) (wait : WebWait) (world : World σ β) :
    Acts engine task ⟨world.repository, .nothing, 0⟩
      (footing (step .webWait .awaited
        (world.withRepository (wait.poll now world.repository)))) := by
  unfold WebWait.poll
  by_cases hdone : world.repository.webDone
  · rw [if_pos hdone]
    exact .refl
  · rw [if_neg hdone]
    by_cases hlate : wait.deadline ≤ now
    · rw [if_pos hlate]
      exact .single .completeWeb
    · rw [if_neg hlate]
      exact .refl

/-- What is answered at once, and only on the main thread. -/
theorem guarded_acts {α : Type} {thread : Thread} {world : World σ β}
    {result : Repository σ β × Except RepositoryError α}
    {reply : Except RepositoryError α → Reply σ β}
    (hrefused : (reply (.error .notMainThread)).added = 0)
    (hacts : Acts engine task ⟨world.repository, .nothing, 0⟩
      ⟨result.1, .nothing, (reply result.2).added⟩) :
    Acts engine task ⟨world.repository, .nothing, 0⟩
      (footing (answer reply (world.withRepository (guarded thread world.repository result)))) := by
  cases thread with
  | main => exact hacts
  | other =>
      show Acts engine task _ ⟨world.repository, .nothing, (reply (.error .notMainThread)).added⟩
      rw [hrefused]

theorem startWebLoad_acts (now : Nat) (thread : Thread) (directory : Option Path)
    (downloader : Downloader) (world : World σ β) :
    Acts engine task ⟨world.repository, .nothing, 0⟩
      (footing (startWebLoad now thread directory downloader world)) := by
  unfold startWebLoad
  split
  · exact .single .completeWeb
  · dsimp only
    rw [footing_webLoad]
    exact (WebLoad.start_piece engine task thread now downloader world).acts

theorem startWebWait_acts (now : Nat) (timeout : Duration) (world : World σ β) :
    Acts engine task ⟨world.repository, .nothing, 0⟩
      (footing (startWebWait now timeout world)) := by
  unfold startWebWait
  cases deadline? now timeout with
  | none => exact .refl
  | some deadline => exact poll_acts engine task now ⟨deadline⟩ world

/-- **Carrying out a request begins with a row of acts.** -/
theorem start_acts (now : Nat) (thread : Thread) (request : Request) (world : World σ β) :
    Acts engine task ⟨world.repository, .nothing, 0⟩
      (footing (start engine task now thread request world)) := by
  cases request with
  | loadLocal directory =>
      have hacts := world.repository.loadLocal_acts engine task world.files
        (directory.getD world.config.bundleDirectory) 0
      rw [Nat.zero_add] at hacts
      exact guarded_acts engine task rfl hacts
  | loadWeb directory downloader =>
      exact startWebLoad_acts engine task now thread directory downloader world
  | awaitWeb timeout => exact startWebWait_acts engine task now timeout world
  | completeWeb => exact .single .completeWeb
  | find query =>
      exact guarded_acts engine task rfl
        (world.repository.find_acts engine task query .nothing 0)
  | findSuspending query =>
      cases thread with
      | other => exact .refl
      | main =>
          simp only [start]
          rw [footing_step (fun _ => rfl) (fun _ => rfl)]
          exact Lookup.start_acts engine task now query world.repository 0
  | materialize provider entry =>
      exact guarded_acts engine task rfl
        (world.repository.materialize_acts engine task _ entry .nothing 0)
  | materializeSuspending provider entry =>
      cases thread with
      | other => exact .refl
      | main =>
          simp only [start]
          rw [footing_step (fun _ => rfl) (fun _ => rfl)]
          exact Materialization.start_acts engine task now _ entry world.repository 0
  | repair target => exact Repair.fix_acts engine task thread (target.materials world) world 0
  | repairSuspending target =>
      simp only [start]
      rw [footing_step (fun _ => rfl) (fun _ => rfl)]
      exact Repair.Run.start_acts engine task now thread (target.materials world) world 0
  | saveRecords path =>
      unfold start
      dsimp only
      split <;> exact .refl
  | _ => exact .refl

/-- **A piece of work is a row of acts.** -/
theorem resume_acts (now : Nat) {world : World σ β} {state : Task β}
    (hsound : state.Sound world.repository) :
    Acts engine task ⟨world.repository, state.hold, state.added⟩
      (footing (state.resume engine task now world)) := by
  cases state with
  | webLoad directory state =>
      unfold resume
      rw [footing_webLoad]
      exact (WebLoad.resume_piece engine task now hsound).acts
  | webWait state => exact poll_acts engine task now state world
  | lookup state =>
      unfold resume
      rw [footing_step (fun _ => rfl) (fun _ => rfl)]
      exact state.resume_acts engine task now world.repository 0
  | materialization state =>
      unfold resume
      rw [footing_step (fun _ => rfl) (fun _ => rfl)]
      exact state.resume_acts engine task now world.repository 0
  | repair state =>
      unfold resume
      rw [footing_step (fun _ => rfl) (fun _ => rfl)]
      exact state.resume_acts engine task now world 0

/-- A wait pauses after its first look, if it has a deadline. -/
theorem paused_of_startWebWait {now : Nat} {timeout : Duration} {world : World σ β}
    {state : Task β} {pause : Pause}
    (h : (startWebWait now timeout world).2 = .paused state pause) :
    ∃ deadline part,
      (world.withRepository (WebWait.poll now ⟨deadline⟩ world.repository)).2
        = .paused part pause ∧ state = .webWait part := by
  unfold startWebWait at h
  cases hdeadline : deadline? now timeout with
  | none =>
      rw [hdeadline] at h
      cases h
  | some deadline =>
      rw [hdeadline] at h
      exact ⟨deadline, paused_of_step h⟩

/-- What a request comes to that pauses after its first piece of work: the world, the task that
it has become, and the pause. -/
inductive Started (engine : Engine σ β) (task : TaskId) (now : Nat) (world : World σ β) :
    Thread → Request → World σ β → Task β → Pause → Prop where
  | webLoad {thread : Thread} {directory : Option Path} {downloader : Downloader}
      {part : WebLoad β} {pause : Pause}
      (hpart : (WebLoad.start thread now downloader world).2 = .paused part pause) :
      Started engine task now world thread (.loadWeb directory downloader)
        (WebLoad.start thread now downloader world).1
        (.webLoad (directory.getD world.config.bundleDirectory) part) pause
  | webWait {thread : Thread} {timeout : Duration} {after : World σ β} (part : WebWait)
      (pause : Pause) :
      Started engine task now world thread (.awaitWeb timeout) after (.webWait part) pause
  | lookup {query : Signature} {after : World σ β} (part : Lookup β) (pause : Pause) :
      Started engine task now world .main (.findSuspending query) after (.lookup part) pause
  | materialization {provider : Provider} {entry : EntryId} {after : World σ β}
      {part : Materialization β} {pause : Pause}
      (hpart : (Materialization.start engine task now (provider.source world) entry
        world.repository).2 = .paused part pause) :
      Started engine task now world .main (.materializeSuspending provider entry) after
        (.materialization part) pause
  | repair {thread : Thread} {target : Target} {after : World σ β} (part : Repair.Run β)
      (pause : Pause) :
      Started engine task now world thread (.repairSuspending target) after (.repair part) pause

/-- **A request that pauses is one that does not block.** -/
theorem started {now : Nat} {thread : Thread} {request : Request} {world : World σ β}
    {state : Task β} {pause : Pause}
    (h : (start engine task now thread request world).2 = .paused state pause) :
    Started engine task now world thread request
      (start engine task now thread request world).1 state pause := by
  cases request with
  | loadWeb directory downloader =>
      simp only [start, startWebLoad] at h ⊢
      by_cases hskipped : directory.isNone ∧ !world.config.downloadNewBundles
      · rw [if_pos hskipped] at h
        cases h
      · rw [if_neg hskipped] at h ⊢
        obtain ⟨part, hpart, rfl⟩ := paused_of_step h
        exact .webLoad hpart
  | awaitWeb timeout =>
      obtain ⟨-, part, -, rfl⟩ := paused_of_startWebWait h
      exact .webWait part pause
  | findSuspending query =>
      cases thread with
      | other => cases h
      | main =>
          obtain ⟨part, -, rfl⟩ := paused_of_step h
          exact .lookup part pause
  | materializeSuspending provider entry =>
      cases thread with
      | other => cases h
      | main =>
          obtain ⟨part, hpart, rfl⟩ := paused_of_step h
          exact .materialization hpart
  | repairSuspending target =>
      obtain ⟨part, -, rfl⟩ := paused_of_step h
      exact .repair part pause
  | saveRecords path =>
      simp only [start] at h
      split at h <;> cases h
  | _ => cases h

theorem sound_of_start {now : Nat} {thread : Thread} {request : Request} {world : World σ β}
    {next : Task β} {pause : Pause}
    (h : (start engine task now thread request world).2 = .paused next pause) :
    next.Sound (start engine task now thread request world).1.repository := by
  have hstarted := started engine task h
  generalize (start engine task now thread request world).1 = after at hstarted ⊢
  cases hstarted with
  | @webLoad _ _ downloader part _ hpart =>
      exact (WebLoad.start_piece engine task thread now downloader world).sound part pause hpart
  | _ => trivial

theorem sound_of_resume {now : Nat} {world : World σ β} {state next : Task β} {pause : Pause}
    (hsound : state.Sound world.repository)
    (h : (state.resume engine task now world).2 = .paused next pause) :
    next.Sound (state.resume engine task now world).1.repository := by
  cases state with
  | webLoad directory state =>
      obtain ⟨part, hpart, rfl⟩ := paused_of_step h
      exact (WebLoad.resume_piece engine task now hsound).sound part pause hpart
  | _ =>
      obtain ⟨part, -, rfl⟩ := paused_of_step h
      trivial

/-- **The end of a task that is dropped is a row of acts.** -/
theorem drop_acts (world : World σ β) (state : Task β) :
    Acts engine task ⟨world.repository, state.hold, state.added⟩
      ⟨(state.drop task world).repository, .nothing, state.added⟩ := by
  cases state with
  | webLoad directory state => exact state.drop_acts engine task world state.added
  | webWait state => exact .refl
  | lookup state => exact state.materialization.drop_acts engine task world.repository 0
  | materialization state => exact state.drop_acts engine task world.repository 0
  | repair state => exact state.drop_acts engine task world 0

end Task

end Tasks

end ShaderMend
