import ShaderMend.Proofs.Session.Attendance
import ShaderMend.Proofs.Session.History

/-!
# Shaders that the engine delivers

Calls, lookups, repairs and the web phase all load shaders in the same way: a task that needs
the shader of an entry takes the next step of its load first, and then goes on.

* `Task.acts_of_materialization` — what comes after the step is a row of acts.
* `Session.stored_of_delivery` — what the engine delivers is stored.
* `Session.deliveries_spec` — of one entry, it delivers one shader at most.
-/

namespace ShaderMend

variable {σ β : Type}

/-! ### Loads of shaders -/

/-- What a task is in the middle of that needs the shader of an entry. -/
def Task.materialization? : Task β → Option (Materialization β)
  | .webLoad _ (.caching state ..) => some state
  | .lookup ⟨_, state⟩ => some state
  | .materialization state => some state
  | .repair (.lookingUp _ _ _ _ ⟨_, state⟩) => some state
  | _ => none

/-- What an activity is in the middle of that needs the shader of an entry. -/
def Activity.materialization? : Activity β → Option (Materialization β)
  | .planned .. => none
  | .begun state => state.materialization?

/-- Whether the engine is loading the shader of an entry for a task. -/
def Running.LoadsShader (running : Running β) (id : EntryId) : Prop :=
  ∃ archive bundle, running.activity.materialization? = some (.loading archive bundle id)

theorem Task.hold_of_materialization? {task : Task β} {state : Materialization β}
    (h : task.materialization? = some state) : task.hold = state.hold := by
  cases task with
  | webLoad directory load => cases load <;> cases h; rfl
  | webWait wait => cases h
  | lookup lookup => cases h; rfl
  | materialization materialization => cases h; rfl
  | repair run => cases run <;> cases h; rfl

theorem Task.materialization?_of_isAt {task : Task β} {id : EntryId} (h : task.hold.IsAt id) :
    ∃ state, task.materialization? = some state ∧ state.entry = id := by
  have hentry : ∀ state : Materialization β, state.hold.IsAt id → state.entry = id := by
    rintro (⟨source, entry⟩ | ⟨archive, bundle, entry⟩) (h | h) <;> cases h <;> rfl
  cases task with
  | webLoad directory load =>
      cases load with
      | caching state rest loads => exact ⟨state, rfl, hentry state h⟩
      | _ => rcases h with h | h <;> cases h
  | webWait wait => exact absurd h (Hold.not_isAt_nothing id)
  | lookup lookup => exact ⟨_, rfl, hentry _ h⟩
  | materialization state => exact ⟨state, rfl, hentry state h⟩
  | repair run =>
      cases run with
      | waiting job shaders wait => exact absurd h (Hold.not_isAt_nothing id)
      | lookingUp job shader rest missing lookup => exact ⟨_, rfl, hentry _ h⟩

/-- A task that needs a shader takes the next step of the load first. -/
theorem Task.acts_of_materialization (engine : Engine σ β) (task : TaskId) (now : Nat)
    {world : World σ β} {state : Task β} (hsound : state.Sound world.repository)
    {materialization : Materialization β}
    (h : state.materialization? = some materialization) :
    Acts engine task
      ⟨(materialization.resume engine task now world.repository).1,
       (materialization.resume engine task now world.repository).2.hold Materialization.hold,
       state.added⟩
      (footing (state.resume engine task now world)) := by
  cases state with
  | webLoad directory load =>
      cases load with
      | caching state rest loads =>
          obtain rfl := Option.some.inj h
          unfold resume
          rw [footing_webLoad]
          exact (WebLoad.caching_piece engine task now world hsound rest loads).acts
      | _ => cases h
  | webWait wait => cases h
  | lookup lookup =>
      obtain rfl := Option.some.inj h
      unfold resume
      rw [footing_step (fun _ => rfl) (fun _ => rfl)]
      show Acts engine task _
        ⟨_, (lookup.resume engine task now world.repository).2.hold Lookup.hold, 0⟩
      rw [Lookup.resume, Lookup.hold_ofMaterialization]
      exact .refl
  | materialization state =>
      obtain rfl := Option.some.inj h
      unfold resume
      rw [footing_step (fun _ => rfl) (fun _ => rfl)]
      exact .refl
  | repair run =>
      cases run with
      | waiting job shaders wait => cases h
      | lookingUp job shader rest missing lookup =>
          obtain rfl := Option.some.inj h
          unfold resume
          rw [footing_step (fun _ => rfl) (fun _ => rfl)]
          have hacts := Repair.Run.lookingUp_acts engine task now world job shader rest missing
            lookup 0
          rw [Lookup.resume, Lookup.hold_ofMaterialization] at hacts
          exact hacts

/-! ### Steps of a load -/

section Steps

variable {engine : Engine σ β} {repository : Repository σ β} {archive : Path} {bundle : β}
  {id : EntryId}

theorem Repository.loadShader_of_delivered {assetPath : String} {shader : Shader}
    (h : (engine.loadShader repository.engine bundle assetPath).2 = some shader) :
    repository.loadShader engine archive bundle assetPath
      = ({ repository with engine := (engine.loadShader repository.engine bundle assetPath).1 },
         .ok shader) := by
  unfold loadShader
  cases hload : engine.loadShader repository.engine bundle assetPath with
  | mk state delivered =>
      rw [hload] at h
      obtain rfl : delivered = some shader := h
      rfl

theorem Repository.loadShader_of_undelivered {assetPath : String}
    (h : (engine.loadShader repository.engine bundle assetPath).2 = none) :
    repository.loadShader engine archive bundle assetPath
      = ({ repository with engine := (engine.loadShader repository.engine bundle assetPath).1 },
         .error (.assetNotFound archive assetPath)) := by
  unfold loadShader
  cases hload : engine.loadShader repository.engine bundle assetPath with
  | mk state delivered =>
      rw [hload] at h
      obtain rfl : delivered = none := h
      rfl

/-- A load that succeeds fills the cell. -/
theorem Materialization.resume_of_delivered (task : TaskId) (now : Nat) (archive : Path)
    (hpresent : (repository.lookup? id).isSome) {shader : Shader}
    (h : (engine.loadShader repository.engine bundle id.assetPath).2 = some shader) :
    ((loading archive bundle id).resume engine task now repository).2 = .done (.ok shader) ∧
      ((loading archive bundle id).resume engine task now repository).1.cell id
        = (repository.cell id).fill shader := by
  simp only [resume, Repository.loadShader_of_delivered h, true_and]
  exact Repository.cell_modifyCell_of_engine hpresent _ _

/-- One that fails hands over to the next in line. -/
theorem Materialization.resume_of_undelivered (task : TaskId) (now : Nat) (archive : Path)
    (hpresent : (repository.lookup? id).isSome)
    (h : (engine.loadShader repository.engine bundle id.assetPath).2 = none) :
    ((loading archive bundle id).resume engine task now repository).2
        = .done (.error (.assetNotFound archive id.assetPath)) ∧
      ((loading archive bundle id).resume engine task now repository).1.cell id
        = (repository.cell id).fail := by
  simp only [resume, Repository.loadShader_of_undelivered h, true_and]
  exact Repository.cell_modifyCell_of_engine hpresent _ _

end Steps

namespace Session

variable {engine : Engine σ β} {session : Session σ β} {id : EntryId}

/-! ### What the engine delivers -/

/-- The shader of an entry that the engine delivers with a move to the task that it loads
for. -/
def deliveriesOf (engine : Engine σ β) (id : EntryId) (session : Session σ β) :
    Move → List Shader
  | .resume task =>
      match (session.activity? task).bind fun running => running.activity.materialization? with
      | some (.loading _ bundle entry) =>
          if entry = id then
            (engine.loadShader session.world.repository.engine bundle id.assetPath).2.toList
          else []
      | _ => []
  | _ => []

/-- The shaders of an entry that the engine delivers to tasks in the course of a row of
moves. -/
def deliveries (engine : Engine σ β) (id : EntryId) : List Move → Session σ β → List Shader :=
  collect engine (deliveriesOf engine id)

theorem mem_deliveriesOf {next : Move} {shader : Shader}
    (h : shader ∈ session.deliveriesOf engine id next) :
    ∃ running archive bundle, next = .resume running.task ∧
      session.activity? running.task = some running ∧
      running.activity.materialization? = some (.loading archive bundle id) ∧
      (engine.loadShader session.world.repository.engine bundle id.assetPath).2 = some shader := by
  cases next with
  | resume task =>
      simp only [deliveriesOf] at h
      split at h
      · rename_i archive bundle entry hstate
        obtain ⟨running, hfound, hloading⟩ := Option.bind_eq_some_iff.mp hstate
        obtain rfl := task_of_activity? hfound
        split at h
        · rename_i hentry
          subst hentry
          exact ⟨running, archive, bundle, rfl, hfound, hloading, Option.mem_toList.mp h⟩
        · cases h
      · cases h
  | _ => cases h

theorem length_deliveriesOf_le (engine : Engine σ β) (id : EntryId) (session : Session σ β)
    (next : Move) : (session.deliveriesOf engine id next).length ≤ 1 := by
  cases next with
  | resume task =>
      simp only [deliveriesOf]
      split
      · split
        · exact Option.length_toList_le
        · exact Nat.zero_le 1
      · exact Nat.zero_le 1
  | _ => exact Nat.zero_le 1

theorem begun_of_materialization? {activity : Activity β} {materialization : Materialization β}
    (h : activity.materialization? = some materialization) :
    ∃ state, activity = .begun state ∧ state.materialization? = some materialization := by
  cases activity with
  | planned thread request => cases h
  | begun state => exact ⟨state, rfl, h⟩

/-- **What the engine delivers is stored.** -/
theorem stored_of_delivery (hsound : session.Sound)
    (hattended : Attended id session.world.repository session.holds) {next : Move}
    {shader : Shader} (h : shader ∈ session.deliveriesOf engine id next) :
    ((session.move engine next).world.repository.cell id).stored = some shader := by
  obtain ⟨running, archive, bundle, rfl, hfound, hstate, hload⟩ := mem_deliveriesOf h
  obtain ⟨state, hactivity, hstate⟩ := begun_of_materialization? hstate
  have hkeeps := hsound running (mem_of_activity? hfound)
  rw [hactivity] at hkeeps
  have hholds : session.holds running.task = .loading id := by
    rw [holds_of_activity? hfound, hactivity]
    exact Task.hold_of_materialization? hstate
  -- First the load takes its last step, then the task goes on.
  have hload' := Materialization.resume_acts engine running.task session.clock
    session.world.repository (.loading archive bundle id) state.added
  have hrest := Task.acts_of_materialization engine running.task session.clock hkeeps hstate
  obtain ⟨hdone, hcell⟩ := Materialization.resume_of_delivered running.task session.clock archive
    hattended.present hload
  rw [hdone] at hload' hrest
  have hfilled := hload'.keeps (Act.keeps_attended engine id) hholds hattended
  have hstored : (((Materialization.loading archive bundle id).resume engine running.task
      session.clock session.world.repository).1.cell id).stored = some shader := by
    rw [hcell]
    rfl
  have hafter := hrest.keeps (Act.keeps_stored engine id shader)
    (Function.update_self _ _ _) ⟨hfilled, hstored⟩
  rw [move_resume hfound, repository_resume]
  simp only [advance, hactivity]
  exact hafter.2

theorem attended_move (engine : Engine σ β) (hsound : session.Sound)
    (h : Attended id session.world.repository session.holds) (next : Move) :
    Attended id (session.move engine next).world.repository (session.move engine next).holds :=
  move_keeps (Act.keeps_attended engine id) hsound h next

/-- At the end of a task, the entry is as well attended as it was at the beginning. -/
theorem attended_of_ending (hsound : session.Sound)
    (hattended : Attended id session.world.repository session.holds) {moves : List Move}
    {ending : Ending σ β} (hmem : ending ∈ endings engine moves session) :
    Attended id ending.before.world.repository ending.before.holds := by
  obtain ⟨earlier, later, rfl, hbefore, -⟩ := mem_endings hmem
  rw [hbefore]
  exact replay_keeps (Act.keeps_attended engine id) earlier hsound hattended

/-- What is stored when a task has ended stays. -/
theorem stored_of_ending (hsound : session.Sound)
    (hattended : Attended id session.world.repository session.holds) {moves : List Move}
    {ending : Ending σ β} (hmem : ending ∈ endings engine moves session)
    {shader : Shader}
    (hstored : ((ending.before.resume engine ending.running).world.repository.cell id).stored
      = some shader) :
    ((replay engine moves session).world.repository.cell id).stored = some shader := by
  obtain ⟨earlier, later, -, -, hfound, -, hreplay⟩ := mem_endings hmem
  obtain ⟨hbeforeSound, hafterSound⟩ := sound_of_ending hsound hmem
  have hafter := attended_move engine hbeforeSound (attended_of_ending hsound hattended hmem)
    (.resume ending.running.task)
  rw [move_resume hfound] at hafter
  rw [hreplay]
  exact (replay_keeps (Act.keeps_stored engine id shader) later hafterSound
    ⟨hafter, hstored⟩).2

/-- Once a shader is stored, the engine delivers no other. -/
theorem deliveries_of_stored (engine : Engine σ β) (hsound : session.Sound)
    (hattended : Attended id session.world.repository session.holds) {shader : Shader}
    (hstored : (session.world.repository.cell id).stored = some shader)
    (moves : List Move) : deliveries engine id moves session = [] := by
  refine List.eq_nil_iff_forall_not_mem.mpr fun other hmem => ?_
  obtain ⟨earlier, next, later, rfl, hseen⟩ := mem_collect_iff.mp hmem
  obtain ⟨running, archive, bundle, rfl, hfound, hstate, -⟩ := mem_deliveriesOf hseen
  obtain ⟨hkept, hfilled⟩ := replay_keeps (Act.keeps_stored engine id shader) earlier
    hsound ⟨hattended, hstored⟩
  obtain ⟨state, hactivity, hstate⟩ := begun_of_materialization? hstate
  have hloading : (replay engine earlier session).holds running.task = .loading id := by
    rw [holds_of_activity? hfound, hactivity]
    exact Task.hold_of_materialization? hstate
  exact hkept.cell.not_loading hfilled hloading

/-- **The engine delivers one shader at most, and it is stored.** -/
theorem deliveries_spec (engine : Engine σ β) (hsound : session.Sound)
    (hattended : Attended id session.world.repository session.holds) (moves : List Move) :
    (deliveries engine id moves session).length ≤ 1 ∧
      ∀ shader ∈ deliveries engine id moves session,
        ((replay engine moves session).world.repository.cell id).stored = some shader := by
  induction moves generalizing session with
  | nil => exact ⟨Nat.zero_le 1, fun _ hmem => by cases hmem⟩
  | cons next rest ih =>
      have hafter := attended_move engine hsound hattended next
      cases hseen : session.deliveriesOf engine id next with
      | nil =>
          have heq : deliveries engine id (next :: rest) session
              = deliveries engine id rest (session.move engine next) := by
            rw [deliveries, collect, hseen, List.nil_append]
          rw [heq]
          exact ih (hsound.move next) hafter
      | cons shader others =>
          have hstored := stored_of_delivery hsound hattended (hseen ▸ List.mem_cons_self)
          have hlength := length_deliveriesOf_le engine id session next
          rw [hseen, List.length_cons] at hlength
          obtain rfl : others = [] := List.length_eq_zero_iff.mp (by omega)
          have heq : deliveries engine id (next :: rest) session = [shader] := by
            have hrest := deliveries_of_stored engine (hsound.move next) hafter hstored rest
            rw [deliveries] at hrest ⊢
            rw [collect, hseen, hrest, List.append_nil]
          rw [heq]
          refine ⟨Nat.le_refl 1, fun other hmem => ?_⟩
          rw [List.mem_singleton.mp hmem]
          exact (replay_keeps (Act.keeps_stored engine id shader) rest (hsound.move next)
            ⟨hafter, hstored⟩).2

end Session

end ShaderMend
