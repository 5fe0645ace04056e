import ShaderMend.Proofs.Session.Turns

/-!
# Repairs come to an end

A repair waits for the web phase, and then for loads. Every turn that is due takes it nearer to
its end; a turn that is not leaves it as it is.

* `Repair.Run.left_resume` — the first: fewer turns are left of the repair.
* `Session.Fair.turn_of_repair` — under a fair schedule a turn that is due comes.
* `Session.Fair.repair_ends` — so every repair ends, unless it is dropped.
-/

namespace ShaderMend

variable {σ β : Type}

/-! ### Turns that are due -/

/-- A task that waits for its turn and gets it begins to load, if it does not come to an end. -/
theorem Materialization.loading_of_served {engine : Engine σ β} {task : TaskId} {now : Nat}
    {source : Source β} {id : EntryId} {repository : Repository σ β} {next : Materialization β}
    {pause : Pause} (hserves : (repository.cell id).Serves task)
    (h : ((waiting source id).resume engine task now repository).2 = .paused next pause) :
    ∃ bundle, next = .loading source.archive bundle id := by
  dsimp only [resume] at h
  cases hturn : (repository.cell id).turn task with
  | wait => exact absurd hserves (Cell.turn_eq_wait_iff.mp hturn)
  | ready shader =>
      rw [hturn] at h
      cases h
  | hold =>
      rw [hturn] at h
      cases hbundle : source.bundle with
      | none =>
          simp only [proceed, hbundle] at h
          cases h
      | some bundle =>
          simp only [proceed, hbundle] at h
          exact ⟨bundle, (Progress.paused.inj h).1.symm⟩

/-- The end of a load does not pause. -/
theorem Materialization.resume_loading_ne {engine : Engine σ β} {task : TaskId} {now : Nat}
    {archive : Path} {bundle : β} {id : EntryId} {repository : Repository σ β}
    (next : Materialization β) (pause : Pause) :
    ((loading archive bundle id).resume engine task now repository).2 ≠ .paused next pause := by
  intro h
  simp only [resume] at h
  split at h <;> cases h

namespace Repair.Run

variable {engine : Engine σ β} {task : TaskId} {now : Nat}

/-- How many turns a repair needs at most until its end, if all of them are due. -/
def left : Run β → Nat
  | .waiting _ shaders _ => 2 * shaders.length + 1
  | .lookingUp _ _ rest _ ⟨_, .waiting ..⟩ => 2 * rest.length + 2
  | .lookingUp _ _ rest _ ⟨_, .loading ..⟩ => 2 * rest.length + 1

/-- Whether a turn of a repair is due: the web phase is over or took too long, or the load that
the repair waits for can go on. -/
def Due (task : TaskId) (now : Nat) (repository : Repository σ β) : Run β → Prop
  | .waiting _ _ wait => repository.webDone ∨ wait.deadline ≤ now
  | .lookingUp _ _ _ _ lookup => ∀ source id, lookup.materialization = .waiting source id →
      (repository.cell id).Serves task

theorem left_next {job : Job} {shaders : List Shader} {missing : List String} {world : World σ β}
    {run : Run β} {pause : Pause}
    (h : (next engine task now job shaders missing world).2 = .paused run pause) :
    run.left ≤ 2 * shaders.length := by
  induction shaders generalizing missing world with
  | nil => cases h
  | cons shader rest ih =>
      rw [List.length_cons]
      unfold next at h
      cases hstart : Lookup.start engine task now shader.query world.repository with
      | mk repository progress =>
          simp only [hstart, World.withRepository] at h
          cases progress with
          | paused lookup other =>
              obtain ⟨rfl, -⟩ := Progress.paused.inj h
              obtain ⟨candidate, load⟩ := lookup
              cases load with
              | waiting source id => exact Nat.le_refl _
              | loading archive bundle id => exact Nat.le_succ _
          | done result =>
              dsimp only at h
              split at h
              · cases h
              · exact (ih h).trans (Nat.mul_le_mul_left 2 (Nat.le_succ _))

/-- **A turn that is due** leaves fewer turns of a repair. -/
theorem left_resume {run after : Run β} {pause : Pause} {world : World σ β}
    (hdue : run.Due task now world.repository)
    (h : (run.resume engine task now world).2 = .paused after pause) : after.left < run.left := by
  cases run with
  | waiting job shaders wait =>
      have hnext : ∃ repository, (next engine task now job shaders []
          { world with repository }).2 = .paused after pause := by
        dsimp only [resume, await, WebWait.poll] at h
        by_cases hdone : world.repository.webDone
        · rw [if_pos hdone] at h
          exact ⟨_, h⟩
        · rw [if_neg hdone, if_pos (hdue.resolve_left hdone)] at h
          exact ⟨_, h⟩
      obtain ⟨repository, hnext⟩ := hnext
      exact Nat.lt_succ_of_le (left_next hnext)
  | lookingUp job shader rest missing lookup =>
      obtain ⟨candidate, load⟩ := lookup
      have hrest :
          2 * rest.length < left (.lookingUp job shader rest missing ⟨candidate, load⟩) := by
        cases load <;> simp [left]
      unfold resume at h
      cases hresume : Lookup.resume engine task now ⟨candidate, load⟩ world.repository with
      | mk repository progress =>
          simp only [hresume, World.withRepository] at h
          cases progress with
          | paused lookup other =>
              obtain ⟨rfl, -⟩ := Progress.paused.inj h
              have hload := Lookup.paused_of_ofMaterialization (congrArg Prod.snd hresume)
              cases load with
              | waiting source id =>
                  obtain ⟨bundle, hnext⟩ :=
                    Materialization.loading_of_served (hdue source id rfl) hload
                  obtain ⟨candidate, next⟩ := lookup
                  obtain rfl : next = .loading source.archive bundle id := hnext
                  exact Nat.lt_succ_self _
              | loading archive bundle id =>
                  exact absurd hload (Materialization.resume_loading_ne _ _)
          | done result =>
              dsimp only at h
              split at h
              · cases h
              · exact (left_next h).trans_lt hrest

/-- A turn before the web phase is over changes nothing. -/
theorem resume_of_early (engine : Engine σ β) {job : Job} {shaders : List Shader}
    {wait : WebWait} {world : World σ β}
    (h : ¬ Due task now world.repository (.waiting (β := β) job shaders wait)) :
    ∃ pause, (waiting job shaders wait).resume engine task now world
      = (world, .paused (.waiting job shaders wait) pause) := by
  obtain ⟨hdone, hlate⟩ := not_or.mp h
  refine ⟨.until (now + min retryInterval (wait.deadline - now)), ?_⟩
  dsimp only [resume, await, WebWait.poll]
  rw [if_neg hdone, if_neg hlate]
  rfl

end Repair.Run

/-! ### Turns come -/

namespace Session

variable {engine : Engine σ β} {schedule : Nat → Move} {start : Session σ β} {count : Nat}
  {task : TaskId} {run : Repair.Run β}

/-- A task without a load takes a turn. -/
theorem Fair.turn_of_free (hfair : Fair engine schedule start)
    (h : (upTo engine schedule start count).Orderly engine) {running : Running β}
    (hfound : (upTo engine schedule start count).activity? running.task = some running)
    {activity : Activity β} (hactivity : running.activity = activity)
    (hfree : ∀ source id, activity.materialization? ≠ some (.waiting source id))
    (hkept : ∀ later, count ≤ later → schedule later ≠ .drop running.task) :
    ∃ later, count ≤ later ∧ schedule later = .resume running.task ∧
      (upTo engine schedule start later).activity? running.task = some running := by
  rcases h.patient running (mem_of_activity? hfound) with
    ⟨instant, hpause⟩ | ⟨source, id, hwaiting, -⟩
  · obtain ⟨later, hlater⟩ := hfair.turn_of_until hfound hpause
    exact ⟨later, hlater.le, hlater.concerns.resolve_right (hkept later hlater.le), hlater.found⟩
  · rw [hactivity] at hwaiting
    exact absurd hwaiting (hfree source id)

variable (horderly : ∀ count, (upTo engine schedule start count).Orderly engine)
include horderly

/-- A repair that waits for the web phase takes a turn when it is over, or took too long. -/
theorem Fair.turn_of_early (hfair : Fair engine schedule start) {job : Repair.Job}
    {shaders : List Shader} {wait : WebWait}
    (hworking : (upTo engine schedule start count).Working task
      (.repair (.waiting job shaders wait)))
    (hkept : ∀ later, count ≤ later → schedule later ≠ .drop task) :
    ∃ later, count ≤ later ∧ schedule later = .resume task ∧
      (upTo engine schedule start later).Working task (.repair (.waiting job shaders wait)) ∧
      Repair.Run.Due task (upTo engine schedule start later).clock
        (upTo engine schedule start later).world.repository
        (.waiting (β := β) job shaders wait) := by
  by_contra hnever
  -- Else it stays as it is, also after its deadline.
  have hstays : ∀ last, count ≤ last →
      (upTo engine schedule start last).Working task (.repair (.waiting job shaders wait)) := by
    intro last hle
    induction last, hle using Nat.le_induction with
    | base => exact hworking
    | succ last hle ih =>
        rw [upTo_succ]
        by_cases hturn : schedule last = .resume task
        · have hearly : ¬ Repair.Run.Due task (upTo engine schedule start last).clock
              (upTo engine schedule start last).world.repository
              (.waiting (β := β) job shaders wait) :=
            fun hdue => hnever ⟨last, hle, hturn, ih, hdue⟩
          obtain ⟨pause, hresume⟩ := Repair.Run.resume_of_early engine hearly
          rw [hturn]
          apply (ih.move_of_idle _).1
          · exact pause
          · rw [Task.resume, hresume]
            rfl
        · exact ih.move_of_not_concerns fun hconcerns =>
            hconcerns.elim hturn (hkept last hle)
  obtain ⟨due, hdue⟩ := hfair.time wait.deadline
  have hbefore := Nat.le_max_left count due
  obtain ⟨running, hfound, rfl, hactivity⟩ := hstays (max count due) hbefore
  obtain ⟨later, hle, hturn, hlater⟩ := hfair.turn_of_free (horderly _) hfound hactivity
    (fun source id heq => by cases heq) fun later hle => hkept later (hbefore.trans hle)
  have hclock := (hdue.trans (clock_upTo_mono (Nat.le_max_right count due))).trans
    (clock_upTo_mono hle)
  exact hnever ⟨later, hbefore.trans hle, hturn, ⟨running, hlater, rfl, hactivity⟩, Or.inr hclock⟩

/-- **Under a fair schedule a repair takes a turn that is due**, unless it is dropped. -/
theorem Fair.turn_of_repair (hfair : Fair engine schedule start)
    (hworking : (upTo engine schedule start count).Working task (.repair run))
    (hkept : ∀ later, count ≤ later → schedule later ≠ .drop task) :
    ∃ later, count ≤ later ∧ schedule later = .resume task ∧
      (upTo engine schedule start later).Working task (.repair run) ∧
      run.Due task (upTo engine schedule start later).clock
        (upTo engine schedule start later).world.repository := by
  cases run with
  | waiting job shaders wait => exact hfair.turn_of_early horderly hworking hkept
  | lookingUp job shader rest missing lookup =>
      obtain ⟨candidate, load⟩ := lookup
      cases load with
      | waiting source id =>
          obtain ⟨later, hle, hturn, hlater, hserves⟩ :=
            hfair.turn_of_waiting horderly hworking rfl hkept
          refine ⟨later, hle, hturn, hlater, ?_⟩
          intro other entry heq
          obtain ⟨rfl, rfl⟩ := Materialization.waiting.inj heq
          exact hserves
      | loading archive bundle id =>
          obtain ⟨running, hfound, rfl, hactivity⟩ := hworking
          obtain ⟨later, hle, hturn, hlater⟩ := hfair.turn_of_free (horderly count) hfound
            hactivity (fun source id heq => by cases heq) hkept
          exact ⟨later, hle, hturn, ⟨running, hlater, rfl, hactivity⟩,
            fun source id heq => by cases heq⟩

/-! ### Ends come -/

omit horderly in
/-- A task either ends with its turn or is in the middle of its work afterwards. -/
theorem ends_or_working {running : Running β}
    (hfound : (upTo engine schedule start count).activity? running.task = some running)
    (hturn : schedule count = .resume running.task) :
    (∃ ending ∈ endingsOf engine (upTo engine schedule start count) (schedule count),
      ending.running = running) ∨
    ∃ state pause, ((upTo engine schedule start count).advance engine running).2
        = .paused state pause ∧
      (upTo engine schedule start (count + 1)).Working running.task state := by
  cases hstep : ((upTo engine schedule start count).advance engine running).2 with
  | done reply =>
      left
      rw [hturn, endingsOf_resume hfound, hstep]
      exact ⟨_, List.mem_singleton_self _, rfl⟩
  | paused state pause =>
      right
      refine ⟨state, pause, rfl, ⟨running.task, .begun state, pause⟩, ?_, rfl, rfl⟩
      rw [upTo_succ, hturn, move_resume hfound, activity?_resume_self hfound, hstep]

omit horderly in
/-- A repair that pauses is a repair under way. -/
theorem repair_of_paused {session : Session σ β} {running : Running β} {state : Task β}
    {pause : Pause} (hrepairs : running.activity.Repairs)
    (h : (session.advance engine running).2 = .paused state pause) :
    ∃ run, state = .repair run := by
  unfold advance at h
  generalize running.activity = activity at hrepairs h
  cases hrepairs with
  | atOnce target => cases h
  | planned target =>
      obtain ⟨run, -, hstate⟩ := Task.paused_of_step h
      exact ⟨run, hstate⟩
  | begun former =>
      obtain ⟨run, -, hstate⟩ := Task.paused_of_step h
      exact ⟨run, hstate⟩

/-- **Under a fair schedule a repair that has begun ends**, unless it is dropped. -/
theorem Fair.ends_of_working (hfair : Fair engine schedule start)
    (hworking : (upTo engine schedule start count).Working task (.repair run))
    (hkept : ∀ later, count ≤ later → schedule later ≠ .drop task) :
    ∃ later, count ≤ later ∧
      ∃ ending ∈ endingsOf engine (upTo engine schedule start later) (schedule later),
        ending.running.task = task ∧ ending.running.activity.Repairs := by
  induction hleft : run.left using Nat.strong_induction_on generalizing run count with
  | _ bound ih =>
      obtain ⟨turn, hle, hturn, ⟨running, hfound, rfl, hactivity⟩, hdue⟩ :=
        hfair.turn_of_repair horderly hworking hkept
      rcases ends_or_working hfound hturn with
        ⟨ending, hends, rfl⟩ | ⟨state, pause, hstep, hafter⟩
      · exact ⟨turn, hle, ending, hends, rfl, hactivity ▸ .begun run⟩
      · rw [advance_of_begun engine hactivity] at hstep
        obtain ⟨after, hpart, rfl⟩ := Task.paused_of_step hstep
        have hlt := Repair.Run.left_resume hdue hpart
        have hnext : count ≤ turn + 1 := Nat.le_succ_of_le hle
        obtain ⟨later, hlater, hends⟩ := ih _ (hleft ▸ hlt) hafter
          (fun later hlater => hkept later (hnext.trans hlater)) rfl
        exact ⟨later, hnext.trans hlater, hends⟩

/-- **Under a fair schedule every repair ends**, unless it is dropped. -/
theorem Fair.repair_ends (hfair : Fair engine schedule start) {running : Running β}
    (hfound : (upTo engine schedule start count).activity? running.task = some running)
    (hrepairs : running.activity.Repairs)
    (hkept : ∀ later, count ≤ later → schedule later ≠ .drop running.task) :
    ∃ later, count ≤ later ∧
      ∃ ending ∈ endingsOf engine (upTo engine schedule start later) (schedule later),
        ending.running.task = running.task ∧ ending.running.activity.Repairs := by
  by_cases hbegun : ∃ run, running.activity = .begun (.repair run)
  · obtain ⟨run, hactivity⟩ := hbegun
    exact hfair.ends_of_working horderly ⟨running, hfound, rfl, hactivity⟩ hkept
  · have hplanned : ∃ request, running.activity = .planned .main request := by
      generalize running.activity = activity at hrepairs hbegun ⊢
      cases hrepairs with
      | atOnce target => exact ⟨_, rfl⟩
      | planned target => exact ⟨_, rfl⟩
      | begun run => exact absurd ⟨run, rfl⟩ hbegun
    obtain ⟨request, hactivity⟩ := hplanned
    obtain ⟨turn, hle, hturn, hlater⟩ := hfair.turn_of_free (horderly count) hfound hactivity
      (fun source id heq => by cases heq) hkept
    rcases ends_or_working hlater hturn with ⟨ending, hends, rfl⟩ | ⟨state, pause, hstep, hafter⟩
    · exact ⟨turn, hle, ending, hends, rfl, hrepairs⟩
    · obtain ⟨run, rfl⟩ := repair_of_paused hrepairs hstep
      have hnext : count ≤ turn + 1 := Nat.le_succ_of_le hle
      obtain ⟨later, hlater, hends⟩ := hfair.ends_of_working horderly hafter
        fun later hlater => hkept later (hnext.trans hlater)
      exact ⟨later, hnext.trans hlater, hends⟩

end Session

end ShaderMend
