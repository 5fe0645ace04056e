import ShaderMend.Proofs.Session.Deliveries

/-!
# Calls that share the load of a shader

Calls for the shader of one entry share its load, whatever else happens in the session.

* `Session.ending_of_call` — a call ends with the shader that is stored, or because its own
  attempt failed.
* `Session.shares_of_replay` — one load at a time, one that succeeds, and the next in line
  tries again where one fails or is dropped.
-/

namespace ShaderMend

variable {σ β : Type}

/-! ### How calls end -/

/-- Whether an activity is a call for the shader of an entry that does not block. -/
inductive Activity.Calls (id : EntryId) : Activity β → Prop where
  | planned (thread : Thread) (provider : Provider) :
      Calls id (.planned thread (.materializeSuspending provider id))
  | waiting (source : Source β) : Calls id (.begun (.materialization (.waiting source id)))
  | loading (archive : Path) (bundle : β) :
      Calls id (.begun (.materialization (.loading archive bundle id)))

/-- The cell without a shader, held by the first of those who were in line. -/
def Cell.handedOver (cell : Cell) : Cell :=
  ⟨none, cell.queue.head?, cell.queue.tail⟩

theorem Cell.fail_eq {cell : Cell} (h : cell.stored = none) : cell.fail = cell.handedOver := by
  unfold fail handedOver
  cases hqueue : cell.queue with
  | nil => simp [h]
  | cons next queue => simp [h]

/-- Why the attempt of a call for the shader of an entry fails. -/
inductive Ending.Fails (engine : Engine σ β) (id : EntryId) (ending : Ending σ β) :
    RepositoryError → Prop where
  /-- The call comes from another thread than the main one. -/
  | refused {provider : Provider}
      (hactivity : ending.running.activity = .planned .other (.materializeSuspending provider id)) :
      Fails engine id ending .notMainThread
  /-- It is the only one, and its archive has no bundle. -/
  | unboundAtOnce {provider : Provider}
      (hactivity : ending.running.activity = .planned .main (.materializeSuspending provider id))
      (hholder : (ending.before.world.repository.cell id).holder = none)
      (hbundle : (provider.source ending.before.world).bundle = none) :
      Fails engine id ending (.bundleNotLoaded (provider.source ending.before.world).archive)
  /-- It waited, it is its turn, and its archive has no bundle. -/
  | unbound {source : Source β}
      (hactivity : ending.running.activity = .begun (.materialization (.waiting source id)))
      (hholder : (ending.before.world.repository.cell id).holder = some ending.running.task)
      (hbundle : source.bundle = none) :
      Fails engine id ending (.bundleNotLoaded source.archive)
  /-- The engine does not deliver. -/
  | undelivered {archive : Path} {bundle : β}
      (hactivity : ending.running.activity = .begun (.materialization (.loading archive bundle id)))
      (hload : (engine.loadShader ending.before.world.repository.engine bundle id.assetPath).2
        = none) :
      Fails engine id ending (.assetNotFound archive id.assetPath)

/-- How a call for the shader of an entry ends: with the shader that the entry then stores, or
because its own attempt failed, and then the entry is empty and the next in line holds its
cell. A call that is refused makes no attempt. -/
inductive Ending.Settled (engine : Engine σ β) (id : EntryId) (ending : Ending σ β) : Prop where
  | stored {shader : Shader} (hreply : ending.reply = .materialized (.ok shader))
      (hstored : ((ending.before.resume engine ending.running).world.repository.cell id).stored
        = some shader)
  | failed {error : RepositoryError} (hreply : ending.reply = .materialized (.error error))
      (hfails : ending.Fails engine id error)
      (hcell : error ≠ .notMainThread →
        (ending.before.resume engine ending.running).world.repository.cell id
          = (ending.before.world.repository.cell id).handedOver)

theorem Cell.idle_of_request {cell : Cell} {task : TaskId} (h : (cell.request task).2 = .hold) :
    cell.stored = none ∧ cell.holder = none := by
  unfold request at h
  split at h
  · cases h
  · exact ⟨‹_›, ‹_›⟩
  · cases h

theorem Cell.held_of_turn {cell : Cell} {task : TaskId} (h : cell.turn task = .hold) :
    cell.stored = none ∧ cell.holder = some task := by
  unfold turn at h
  split at h
  · cases h
  · rename_i hstored
    split at h
    · rename_i hholder
      exact ⟨hstored, hholder⟩
    · cases h

namespace Materialization

variable {engine : Engine σ β} {task : TaskId} {now : Nat} {repository : Repository σ β}
  {id : EntryId} {source : Source β} {value : Result}

/-- A turn at which a task is done: there is a shader, or its archive has no bundle. -/
theorem done_of_proceed {turn : Cell.Turn} (hpresent : (repository.lookup? id).isSome)
    (h : (proceed engine now source id repository turn).2 = .done value) :
    (∃ shader, turn = .ready shader ∧ value = .ok shader ∧
      (proceed engine now source id repository turn).1 = repository) ∨
    (turn = .hold ∧ source.bundle = none ∧
      value = .error (.bundleNotLoaded source.archive) ∧
      (proceed engine now source id repository turn).1.cell id = (repository.cell id).fail) := by
  cases turn with
  | ready shader => exact Or.inl ⟨shader, rfl, (Progress.done.inj h).symm, rfl⟩
  | wait => cases h
  | hold =>
      cases hbundle : source.bundle with
      | some bundle => simp [proceed, hbundle] at h
      | none =>
          have hfailed : proceed engine now source id repository .hold
              = (repository.modifyCell id Cell.fail,
                 .done (.error (.bundleNotLoaded source.archive))) := by
            simp only [proceed, hbundle]
          rw [hfailed] at h ⊢
          exact Or.inr ⟨rfl, rfl, (Progress.done.inj h).symm,
            Repository.cell_modifyCell hpresent _⟩

theorem done_of_start (hpresent : (repository.lookup? id).isSome)
    (h : (start engine task now source id repository).2 = .done value) :
    (∃ shader, value = .ok shader ∧
      ((start engine task now source id repository).1.cell id).stored = some shader) ∨
    ((repository.cell id).holder = none ∧ source.bundle = none ∧
      value = .error (.bundleNotLoaded source.archive) ∧
      (start engine task now source id repository).1.cell id
        = (repository.cell id).handedOver) := by
  have hasked := Repository.cell_modifyCell hpresent fun cell => (cell.request task).1
  have hpresent' :
      ((repository.modifyCell id fun cell => (cell.request task).1).lookup? id).isSome := by
    simpa using hpresent
  rcases done_of_proceed hpresent' h with
    ⟨shader, hturn, hvalue, hsame⟩ | ⟨hturn, hbundle, hvalue, hcell⟩
  · refine Or.inl ⟨shader, hvalue, ?_⟩
    have hstored := Cell.stored_of_request hturn
    rw [start, hsame, hasked, Cell.stored_request, hstored]
  · obtain ⟨hstored, hholder⟩ := Cell.idle_of_request hturn
    refine Or.inr ⟨hholder, hbundle, hvalue, ?_⟩
    rw [start, hcell, hasked, Cell.fail_eq (by rw [Cell.stored_request, hstored])]
    simp [Cell.request, hstored, hholder, Cell.handedOver]

theorem done_of_waiting (hpresent : (repository.lookup? id).isSome)
    (h : ((waiting source id).resume engine task now repository).2 = .done value) :
    (∃ shader, value = .ok shader ∧
      (((waiting source id).resume engine task now repository).1.cell id).stored = some shader) ∨
    ((repository.cell id).holder = some task ∧ source.bundle = none ∧
      value = .error (.bundleNotLoaded source.archive) ∧
      ((waiting source id).resume engine task now repository).1.cell id
        = (repository.cell id).handedOver) := by
  rcases done_of_proceed hpresent h with
    ⟨shader, hturn, hvalue, hsame⟩ | ⟨hturn, hbundle, hvalue, hcell⟩
  · refine Or.inl ⟨shader, hvalue, ?_⟩
    rw [resume, hsame, Cell.stored_of_turn hturn]
  · obtain ⟨hstored, hholder⟩ := Cell.held_of_turn hturn
    refine Or.inr ⟨hholder, hbundle, hvalue, ?_⟩
    rw [resume, hcell, Cell.fail_eq hstored]

/-- A task whose load comes back is done, whether or not the engine delivers. -/
theorem done_of_loading (task : TaskId) (now : Nat) {archive : Path} {bundle : β}
    (hpresent : (repository.lookup? id).isSome)
    (h : ((loading archive bundle id).resume engine task now repository).2 = .done value) :
    (∃ shader, value = .ok shader ∧
      (((loading archive bundle id).resume engine task now repository).1.cell id).stored
        = some shader) ∨
    ((engine.loadShader repository.engine bundle id.assetPath).2 = none ∧
      value = .error (.assetNotFound archive id.assetPath) ∧
      ((loading archive bundle id).resume engine task now repository).1.cell id
        = (repository.cell id).fail) := by
  cases hload : (engine.loadShader repository.engine bundle id.assetPath).2 with
  | some shader =>
      obtain ⟨hdone, hcell⟩ := resume_of_delivered task now archive hpresent hload
      exact Or.inl ⟨shader, Progress.done.inj (h.symm.trans hdone), congrArg Cell.stored hcell⟩
  | none =>
      obtain ⟨hdone, hcell⟩ := resume_of_undelivered task now archive hpresent hload
      exact Or.inr ⟨rfl, Progress.done.inj (h.symm.trans hdone), hcell⟩

end Materialization

namespace Session

variable {engine : Engine σ β} {id : EntryId}

/-- **How a call ends.** -/
theorem ending_of_call {ending : Ending σ β}
    (hattended : Attended id ending.before.world.repository ending.before.holds)
    (hfound : ending.before.activity? ending.running.task = some ending.running)
    (hcalls : ending.running.activity.Calls id)
    (hstep : (ending.before.advance engine ending.running).2 = .done ending.reply) :
    ending.Settled engine id := by
  have hafter := repository_resume engine ending.before ending.running
  generalize hactivity : ending.running.activity = activity at hcalls
  cases hcalls with
  | planned thread provider =>
      simp only [advance, hactivity, Task.start] at hstep hafter
      cases thread with
      | other =>
          exact .failed (Progress.done.inj hstep).symm (.refused hactivity) fun h => absurd rfl h
      | main =>
          obtain ⟨value, hvalue, hreply⟩ := Task.done_of_step hstep
          rcases Materialization.done_of_start hattended.present hvalue with
            ⟨shader, rfl, hstored⟩ | ⟨hholder, hbundle, rfl, hcell⟩
          · exact .stored hreply (hafter ▸ hstored)
          · exact .failed hreply (.unboundAtOnce hactivity hholder hbundle)
              fun _ => hafter ▸ hcell
  | waiting source =>
      simp only [advance, hactivity, Task.resume] at hstep hafter
      obtain ⟨value, hvalue, hreply⟩ := Task.done_of_step hstep
      rcases Materialization.done_of_waiting hattended.present hvalue with
        ⟨shader, rfl, hstored⟩ | ⟨hholder, hbundle, rfl, hcell⟩
      · exact .stored hreply (hafter ▸ hstored)
      · exact .failed hreply (.unbound hactivity hholder hbundle) fun _ => hafter ▸ hcell
  | loading archive bundle =>
      simp only [advance, hactivity, Task.resume] at hstep hafter
      obtain ⟨value, hvalue, hreply⟩ := Task.done_of_step hstep
      rcases Materialization.done_of_loading ending.running.task ending.before.clock
          hattended.present hvalue with
        ⟨shader, rfl, hstored⟩ | ⟨hload, rfl, hcell⟩
      · exact .stored hreply (hafter ▸ hstored)
      · refine .failed hreply (.undelivered hactivity hload) fun _ => ?_
        -- It loads, so it holds the cell, which is empty.
        have hholds : ending.before.holds ending.running.task = .loading id := by
          rw [holds_of_activity? hfound, hactivity]
          rfl
        have hempty := hattended.cell.empty_of_holder (hattended.cell.loading hholds)
        rw [hafter, ← Cell.fail_eq hempty]
        exact hcell

end Session

/-! ### Calls that wait -/

/-- A task that waits for its turn at a cell pauses until it comes. -/
theorem Materialization.pause_of_proceed {engine : Engine σ β} {now : Nat} {source : Source β}
    {entry : EntryId} {repository : Repository σ β} {turn : Cell.Turn} {other : Source β}
    {id : EntryId} {pause : Pause}
    (h : (proceed engine now source entry repository turn).2 = .paused (.waiting other id) pause) :
    pause = .turn id := by
  cases turn with
  | ready shader => cases h
  | wait =>
      obtain ⟨hstate, rfl⟩ := Progress.paused.inj h
      cases hstate
      rfl
  | hold => cases hbundle : source.bundle <;> simp [proceed, hbundle] at h

namespace Session

/-- Whether a call that waits pauses until its turn comes. -/
def Attentive (session : Session σ β) : Prop :=
  ∀ running ∈ session.running, ∀ source id,
    running.activity = .begun (.materialization (.waiting source id)) → running.pause = .turn id

variable {engine : Engine σ β} {session : Session σ β}

theorem pause_of_advance {running : Running β} {source : Source β} {id : EntryId} {pause : Pause}
    (h : (session.advance engine running).2
      = .paused (.materialization (.waiting source id)) pause) : pause = .turn id := by
  unfold advance at h
  split at h
  · have hstarted := Task.started engine running.task h
    generalize (Task.start engine running.task _ _ _ session.world).1 = after at hstarted
    cases hstarted with
    | materialization hpart => exact Materialization.pause_of_proceed hpart
  · rename_i state _
    cases state with
    | materialization materialization =>
        obtain ⟨part, hpart, hstate⟩ := Task.paused_of_step h
        cases hstate
        cases materialization with
        | waiting other entry => exact Materialization.pause_of_proceed hpart
        | loading archive bundle entry =>
            simp only [World.withRepository, Materialization.resume] at hpart
            split at hpart <;> cases hpart
    | _ =>
        obtain ⟨part, -, hstate⟩ := Task.paused_of_step h
        cases hstate

theorem attentive_replay (engine : Engine σ β) (moves : List Move) (h : session.Attentive) :
    (replay engine moves session).Attentive := by
  induction moves generalizing session with
  | nil => exact h
  | cons next rest ih =>
      refine ih fun running hmem source id hactivity => ?_
      rcases mem_running_move hmem with hmem | ⟨instant, thread, request, -, hplanned⟩ |
        ⟨former, state, -, -, hstate, hstep⟩
      · exact h running hmem source id hactivity
      · rw [hplanned] at hactivity
        cases hactivity
      · rw [hstate] at hactivity
        obtain rfl := Activity.begun.inj hactivity
        exact pause_of_advance hstep

/-! ### Shared loads -/

/-- How the tasks of a session share the load of the shader of an entry. -/
structure Shares (engine : Engine σ β) (id : EntryId) (session : Session σ β) : Prop where
  /-- The engine loads for one task at a time … -/
  sole : ∀ first ∈ session.running, ∀ second ∈ session.running,
    first.LoadsShader id → second.LoadsShader id → first = second
  /-- … which is the holder, and the entry is empty meanwhile. -/
  loading : ∀ running ∈ session.running, running.LoadsShader id →
    (session.world.repository.cell id).stored = none ∧
      (session.world.repository.cell id).holder = some running.task
  /-- The holder, and who is in line, are tasks that need the shader … -/
  attended : ∀ task, (session.world.repository.cell id).holder = some task ∨
      task ∈ (session.world.repository.cell id).queue →
    ∃ running ∈ session.running, running.task = task ∧
      ∃ state, running.activity.materialization? = some state ∧ state.entry = id
  /-- … and who waits is in line, unless it is its turn. -/
  waiting : ∀ running ∈ session.running, ∀ source,
    running.activity.materialization? = some (.waiting source id) →
      (session.world.repository.cell id).stored.isSome ∨
        (session.world.repository.cell id).holder = some running.task ∨
        running.task ∈ (session.world.repository.cell id).queue
  /-- A holder that is dropped hands over to the next in line. -/
  dropped : ∀ running ∈ session.running,
    (session.world.repository.cell id).holder = some running.task →
      (session.move engine (.drop running.task)).world.repository.cell id
        = (session.world.repository.cell id).handedOver
  /-- A call that waits can go on once there is a shader or it is the holder … -/
  ready : ∀ running ∈ session.running, ∀ source,
    running.activity = .begun (.materialization (.waiting source id)) →
      (session.isReady running = true ↔ (session.world.repository.cell id).stored.isSome ∨
        (session.world.repository.cell id).holder = some running.task)
  /-- … and as the holder it goes on with a load of its own. -/
  attempt : ∀ running ∈ session.running, ∀ source bundle,
    running.activity = .begun (.materialization (.waiting source id)) →
      (session.world.repository.cell id).holder = some running.task →
        source.bundle = some bundle →
          (session.move engine (.resume running.task)).activity? running.task
            = some ⟨running.task, .begun (.materialization (.loading source.archive bundle id)),
                .until (session.clock + engine.shaderDelay)⟩

variable {id : EntryId}

theorem cell_drop {running : Running β} {materialization : Materialization β}
    (hfound : session.activity? running.task = some running)
    (h : running.activity.materialization? = some materialization) :
    (session.move engine (.drop running.task)).world.repository.cell id
      = (materialization.drop running.task session.world.repository).cell id := by
  obtain ⟨state, hactivity, hstate⟩ := begun_of_materialization? h
  simp only [move, hfound, drop, hactivity]
  cases state with
  | webLoad directory load => cases load <;> cases hstate; rfl
  | webWait wait => cases hstate
  | lookup lookup => cases hstate; rfl
  | materialization materialization => cases hstate; rfl
  | repair run => cases run <;> cases hstate; rfl

theorem holds_of_loadsShader (hnumbered : session.Numbered) {running : Running β}
    (hmem : running ∈ session.running) (h : running.LoadsShader id) :
    session.holds running.task = .loading id := by
  obtain ⟨archive, bundle, hstate⟩ := h
  obtain ⟨state, hactivity, hstate⟩ := begun_of_materialization? hstate
  rw [hnumbered.holds_of_mem hmem, hactivity]
  exact Task.hold_of_materialization? hstate

/-- A task that is at the cell of an entry is one that needs its shader. -/
theorem exists_running_of_isAt (hnumbered : session.Numbered) {task : TaskId}
    (h : (session.holds task).IsAt id) :
    ∃ running ∈ session.running, running.task = task ∧
      ∃ state, running.activity.materialization? = some state ∧ state.entry = id := by
  have hsomething : session.holds task ≠ .nothing := fun heq =>
    Hold.not_isAt_nothing id (heq ▸ h)
  obtain ⟨running, hmem, rfl, -⟩ := exists_running_of_holds rfl hsomething
  rw [hnumbered.holds_of_mem hmem] at h
  refine ⟨running, hmem, rfl, ?_⟩
  cases hactivity : running.activity with
  | planned thread request =>
      rw [hactivity] at h
      exact absurd h (Hold.not_isAt_nothing id)
  | begun state =>
      rw [hactivity] at h
      exact Task.materialization?_of_isAt h

theorem shares (engine : Engine σ β) (hnumbered : session.Numbered)
    (hattentive : session.Attentive)
    (hattended : Attended id session.world.repository session.holds) :
    session.Shares engine id := by
  have hcell := hattended.cell
  constructor
  case sole =>
    intro first hfirst second hsecond hloads hloads'
    have hholder := hcell.loading (holds_of_loadsShader hnumbered hfirst hloads)
    rw [hcell.loading (holds_of_loadsShader hnumbered hsecond hloads')] at hholder
    exact (List.inj_on_of_nodup_map hnumbered.distinct hsecond hfirst
      (Option.some.inj hholder)).symm
  case loading =>
    intro running hmem hloading
    have hholder := hcell.loading (holds_of_loadsShader hnumbered hmem hloading)
    exact ⟨hcell.empty_of_holder hholder, hholder⟩
  case attended =>
    rintro task (hholder | hqueue)
    · exact exists_running_of_isAt hnumbered (hcell.holder hholder)
    · exact exists_running_of_isAt hnumbered (Or.inl (hcell.queue hqueue))
  case waiting =>
    intro running hmem source hstate
    obtain ⟨state, hactivity, hstate⟩ := begun_of_materialization? hstate
    refine hcell.waiting ?_
    rw [hnumbered.holds_of_mem hmem, hactivity]
    exact Task.hold_of_materialization? hstate
  case dropped =>
    intro running hmem hholder
    obtain ⟨other, hother, htask, state, hstate, rfl⟩ :=
      exists_running_of_isAt hnumbered (hcell.holder hholder)
    obtain rfl := List.inj_on_of_nodup_map hnumbered.distinct hother hmem htask
    rw [cell_drop (hnumbered.activity?_of_mem hmem) hstate, Materialization.drop,
      Repository.cell_modifyCell hattended.present, Cell.leave, if_pos hholder,
      Cell.fail_eq (hcell.empty_of_holder hholder)]
  case ready =>
    intro running hmem source hactivity
    rw [isReady, hattentive running hmem source id hactivity]
    cases hstored : (session.world.repository.cell id).stored with
    | some shader => simp [Pause.isOver, Cell.turn, hstored]
    | none =>
        by_cases hholder : (session.world.repository.cell id).holder = some running.task
        · simp [Pause.isOver, Cell.turn, hstored, hholder]
        · simp [Pause.isOver, Cell.turn, hstored, hholder]
  case attempt =>
    intro running hmem source bundle hactivity hholder hbundle
    have hfound := hnumbered.activity?_of_mem hmem
    have hturn : (session.world.repository.cell id).turn running.task = .hold := by
      simp [Cell.turn, hcell.empty_of_holder hholder, hholder]
    have hstep : session.advance engine running
        = (session.world, .paused (.materialization (.loading source.archive bundle id))
            (.until (session.clock + engine.shaderDelay))) := by
      simp only [advance, hactivity, Task.resume, Materialization.resume, hturn,
        Materialization.proceed, hbundle]
      rfl
    rw [move_resume hfound, resume, hstep]
    have hreplaced := find?_replaced session.running running.task running.task
      ⟨running.task, .begun (.materialization (.loading source.archive bundle id)),
        .until (session.clock + engine.shaderDelay)⟩ rfl
    rw [activity?] at hfound
    simp only [activity?]
    rw [hreplaced, if_pos rfl, hfound]
    rfl

section FromFree

variable {world : World σ β}

theorem attended_fresh (hfree : world.repository.Free id) :
    Attended id (fresh world).world.repository (fresh world).holds :=
  hfree.attended fun _ => rfl

theorem shares_replay (engine : Engine σ β) (hfree : world.repository.Free id)
    (moves : List Move) : (replay engine moves (fresh world)).Shares engine id :=
  shares engine (numbered_replay engine moves (numbered_fresh world))
    (attentive_replay engine moves fun _ hmem => by cases hmem)
    (replay_keeps (Act.keeps_attended engine id) moves (sound_fresh world) (attended_fresh hfree))

/-- What an entry stores stays. -/
theorem stored_replay (engine : Engine σ β) (hfree : world.repository.Free id)
    {moves : List Move} {shader : Shader}
    (hstored : ((replay engine moves (fresh world)).world.repository.cell id).stored = some shader)
    (later : List Move) :
    ((replay engine later (replay engine moves (fresh world))).world.repository.cell id).stored
      = some shader :=
  have hsound := sound_fresh world
  have hattended := replay_keeps (Act.keeps_attended engine id) moves hsound (attended_fresh hfree)
  (replay_keeps (Act.keeps_stored engine id shader) later (hsound.replay moves)
    ⟨hattended, hstored⟩).2

theorem settled_of_call (hfree : world.repository.Free id) {moves : List Move}
    {ending : Ending σ β} (hmem : ending ∈ endings engine moves (fresh world))
    (hcalls : ending.running.activity.Calls id) :
    ending.Settled engine id ∧ ∀ shader, ending.reply = .materialized (.ok shader) →
      ((replay engine moves (fresh world)).world.repository.cell id).stored = some shader := by
  have hinitial := attended_fresh hfree
  have hsound := sound_fresh world
  obtain ⟨earlier, later, -, -, hfound, hstep, -⟩ := mem_endings hmem
  have hsettled := ending_of_call (attended_of_ending hsound hinitial hmem) hfound hcalls hstep
  refine ⟨hsettled, fun shader hreply => ?_⟩
  cases hsettled with
  | stored hreply' hstored =>
      obtain rfl := Except.ok.inj (Reply.materialized.inj (hreply'.symm.trans hreply))
      exact stored_of_ending hsound hinitial hmem hstored
  | failed hreply' => cases Reply.materialized.inj (hreply'.symm.trans hreply)

end FromFree

/-- **Calls for the shader of an entry share its load.** Nobody is at the entry at the
beginning; then anything may happen, and calls may be dropped. The engine loads for one task
at a time, and delivers once at most; what it delivers is stored, and what is stored stays.
Every call ends with the shader that is stored, or because its own attempt failed, and then
the entry is empty and the next in line makes an attempt. -/
theorem shares_of_replay (engine : Engine σ β) {world : World σ β}
    (hfree : world.repository.Free id) (moves : List Move) :
    let session := replay engine moves (fresh world)
    session.Shares engine id ∧
    (deliveries engine id moves (fresh world)).length ≤ 1 ∧
    (∀ shader ∈ deliveries engine id moves (fresh world),
      (session.world.repository.cell id).stored = some shader) ∧
    (∀ ending ∈ endings engine moves (fresh world), ending.running.activity.Calls id →
      ending.Settled engine id ∧
        ∀ shader, ending.reply = .materialized (.ok shader) →
          (session.world.repository.cell id).stored = some shader) ∧
    ∀ shader, (session.world.repository.cell id).stored = some shader → ∀ later,
      ((replay engine later session).world.repository.cell id).stored = some shader := by
  intro session
  obtain ⟨hlength, hdelivered⟩ :=
    deliveries_spec engine (sound_fresh world) (attended_fresh hfree) moves
  refine ⟨shares_replay engine hfree moves, hlength, hdelivered, fun ending hmem hcalls => ?_,
    fun shader hstored later => ?_⟩
  · exact settled_of_call hfree hmem hcalls
  · exact stored_replay engine hfree hstored later

/-! ### Two calls, of which one is dropped -/

/-- A world with an archive that is loaded. -/
def loadedWorld : World Engine.Tally Engine.MemoryBundle :=
  { sampleWorld with repository := sampleRepository }

/-- The shader that the engine creates as the one of a number. -/
def createdShader (index : Nat) : Shader :=
  ⟨.created index, "S", [], some true, none⟩

theorem free_loaded : loadedWorld.repository.Free ⟨0, "x"⟩ :=
  ⟨rfl, rfl, rfl⟩

/-- Two calls, of which the first is dropped while the engine loads for it. -/
def sharingMoves : List Move :=
  [.plan 0 .main (.materializeSuspending (.manifest 0) ⟨0, "x"⟩),
   .plan 0 .main (.materializeSuspending (.manifest 0) ⟨0, "x"⟩),
   .resume 0, .resume 1, .drop 0, .resume 1, .resume 1]

theorem shares_of_sample :
    loadedWorld.repository.Free ⟨0, "x"⟩ ∧
    deliveries sampleEngine ⟨0, "x"⟩ sharingMoves (fresh loadedWorld) = [createdShader 0] ∧
    ((replay sampleEngine sharingMoves (fresh loadedWorld)).world.repository.cell
      ⟨0, "x"⟩).stored = some (createdShader 0) := by
  have hdeliveries : deliveries sampleEngine ⟨0, "x"⟩ sharingMoves (fresh loadedWorld)
      = [createdShader 0] := rfl
  obtain ⟨-, -, hstored, -⟩ := shares_of_replay sampleEngine free_loaded sharingMoves
  refine ⟨free_loaded, hdeliveries, hstored _ ?_⟩
  rw [hdeliveries]
  exact List.mem_cons_self

end Session

end ShaderMend
