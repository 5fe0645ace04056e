import ShaderMend.Proofs.Repair.Pieces
import ShaderMend.Proofs.Session.Attendance
import ShaderMend.Proofs.Session.Downloads
import ShaderMend.Proofs.Session.Scenes

/-!
# Repairs in the course of a session

A repair begins on the main thread, at a moment that fixes what it is to do. Its rounds follow
in pieces of work, among which other tasks take theirs.

* `Session.Began` — where a repair began, and its rounds since then.
* `Session.mending_replay` — the invariant: the rounds of a repair and the shaders that are
  left make up what it planned at its beginning.
* `Session.exists_piece` — so every piece of work of a repair goes on with that plan.
-/

namespace ShaderMend

variable {σ β : Type}

open Repair (Round Piece planned namesAfter)

/-! ### Rounds of a task -/

namespace Task

/-- The rounds of the first piece of work on a request. -/
def roundsOfStart (engine : Engine σ β) (task : TaskId) (now : Nat) (thread : Thread)
    (request : Request) (world : World σ β) : List (Round σ β) :=
  match request with
  | .repair target => Repair.roundsOfFix engine thread (target.materials world) world
  | .repairSuspending target =>
      Repair.Run.roundsOfStart engine task now thread (target.materials world) world
  | _ => []

/-- The rounds of a piece of work after a pause. -/
def roundsOfResume (engine : Engine σ β) (task : TaskId) (now : Nat) (world : World σ β) :
    Task β → List (Round σ β)
  | .repair run => run.roundsOfResume engine task now world
  | _ => []

end Task

/-- **Every act keeps an entry.** -/
theorem Act.keeps_present (engine : Engine σ β) (id : EntryId) :
    Act.Keeps engine fun (repository : Repository σ β) _ => (repository.lookup? id).isSome := by
  intro task before after holds hact hhold hpresent
  exact (hact.atCell hpresent).1

namespace Session

variable {engine : Engine σ β} {session : Session σ β}

/-- The rounds of the next piece of work of an activity. -/
def roundsOf (engine : Engine σ β) (session : Session σ β) (running : Running β) :
    List (Round σ β) :=
  match running.activity with
  | .planned thread request =>
      Task.roundsOfStart engine running.task session.clock thread request session.world
  | .begun state => Task.roundsOfResume engine running.task session.clock session.world state

/-- The rounds of a task in a move. -/
def roundsIn (engine : Engine σ β) (task : TaskId) (session : Session σ β) :
    Move → List (Round σ β)
  | .resume other =>
      if other = task then ((session.activity? task).map (session.roundsOf engine)).getD [] else []
  | _ => []

/-- The rounds of a task in the course of a row of moves. -/
def rounds (engine : Engine σ β) (task : TaskId) : List Move → Session σ β → List (Round σ β) :=
  collect engine (roundsIn engine task)

theorem roundsIn_resume {running : Running β}
    (hfound : session.activity? running.task = some running) :
    session.roundsIn engine running.task (.resume running.task)
      = session.roundsOf engine running := by
  simp [roundsIn, hfound]

/-! ### Activities after a move -/

theorem activity?_drop_self (running : Running β) :
    (session.drop running).activity? running.task = none := by
  have hremoved := find?_removed session.running running.task running.task
  simp only [drop, activity?]
  rw [hremoved, if_pos rfl]

/-- The activity of a task after a move: it was there and is not concerned, it is planned by
the move, or it is what the move leaves of a former one. -/
theorem activity?_move {next : Move} {task : TaskId} {running : Running β}
    (h : (session.move engine next).activity? task = some running) :
    (session.activity? task = some running ∧ next ≠ .resume task ∧ next ≠ .drop task) ∨
    (∃ thread request, running.activity = .planned thread request) ∨
    ∃ former state, session.activity? task = some former ∧ next = .resume task ∧
      running.activity = .begun state ∧
      (session.advance engine former).2 = .paused state running.pause := by
  cases next with
  | plan instant thread request =>
      simp only [move, activity?, plan, List.find?_append, Option.or_eq_some_iff] at h
      rcases h with h | ⟨-, h⟩
      · exact Or.inl ⟨h, by simp, by simp⟩
      · refine Or.inr (Or.inl ⟨thread, request, ?_⟩)
        rw [List.mem_singleton.mp (List.mem_of_find?_eq_some h)]
  | resume other =>
      cases hfound : session.activity? other with
      | none =>
          simp only [move, hfound] at h
          refine Or.inl ⟨h, ?_, by simp⟩
          intro heq
          rw [Move.resume.inj heq, h] at hfound
          cases hfound
      | some former =>
          obtain rfl := task_of_activity? hfound
          rw [move_resume hfound] at h
          by_cases hself : task = former.task
          · subst hself
            rw [activity?_resume_self hfound] at h
            cases hstep : (session.advance engine former).2 with
            | paused state pause =>
                rw [hstep] at h
                obtain rfl := Option.some.inj h
                exact Or.inr (Or.inr ⟨former, state, hfound, rfl, rfl, hstep⟩)
            | done reply =>
                rw [hstep] at h
                cases h
          · rw [activity?_resume_of_ne engine session hself] at h
            exact Or.inl ⟨h, fun heq => hself (Move.resume.inj heq).symm, by simp⟩
  | drop other =>
      cases hfound : session.activity? other with
      | none =>
          simp only [move, hfound] at h
          refine Or.inl ⟨h, by simp, ?_⟩
          intro heq
          rw [Move.drop.inj heq, h] at hfound
          cases hfound
      | some former =>
          obtain rfl := task_of_activity? hfound
          simp only [move, hfound] at h
          by_cases hself : task = former.task
          · subst hself
            rw [activity?_drop_self] at h
            cases h
          · rw [activity?_drop_of_ne session hself] at h
            exact Or.inl ⟨h, by simp, fun heq => hself (Move.drop.inj heq).symm⟩
  | wait duration => exact Or.inl ⟨h, by simp, by simp⟩

/-! ### Where repairs began -/

/-- A repair of materials began in a row of moves, and has come through rounds since. -/
def Began (engine : Engine σ β) (start : Session σ β) (moves : List Move) (task : TaskId)
    (beginning : Session σ β) (materials : List MaterialId) (passed : List (Round σ β)) : Prop :=
  ∃ earlier later running target,
    moves = earlier ++ .resume task :: later ∧ beginning = replay engine earlier start ∧
    beginning.activity? task = some running ∧
    (running.activity = .planned .main (.repair target) ∨
      running.activity = .planned .main (.repairSuspending target)) ∧
    materials = target.materials beginning.world ∧
    passed = beginning.rounds engine task (.resume task :: later)

variable {start : Session σ β} {moves : List Move} {task : TaskId}

theorem Began.snoc {beginning : Session σ β} {materials : List MaterialId}
    {passed : List (Round σ β)} (h : Began engine start moves task beginning materials passed)
    (next : Move) :
    Began engine start (moves ++ [next]) task beginning materials
      (passed ++ (replay engine moves start).roundsIn engine task next) := by
  obtain ⟨earlier, later, running, target, rfl, rfl, hfound, hactivity, hmaterials, rfl⟩ := h
  refine ⟨earlier, later ++ [next], running, target, by simp, rfl, hfound, hactivity,
    hmaterials, ?_⟩
  rw [rounds, ← List.cons_append, collect_append, replay_append]
  simp [collect]

/-- How a repair stands that is under way: it began with a plan, and its rounds since then and
the shaders that are left make up this plan. -/
structure Stands (engine : Engine σ β) (start : Session σ β) (moves : List Move) (task : TaskId)
    (run : Repair.Run β) (beginning : Session σ β) (materials : List MaterialId)
    (passed : List (Round σ β)) : Prop where
  began : Began engine start moves task beginning materials passed
  job : run.job = ⟨beginning.world.config, materials⟩
  shaders : passed.map Round.shader ++ run.shaders = planned beginning.world materials
  missing : run.missing = namesAfter passed []

/-- Whether all repairs under way go on with what they planned, and can have the loads that
they wait for. -/
def Mending (engine : Engine σ β) (start : Session σ β) (moves : List Move) : Prop :=
  ∀ task running run, (replay engine moves start).activity? task = some running →
    running.activity = .begun (.repair run) →
      run.Fit (replay engine moves start).world.repository ∧
        ∃ beginning materials passed,
          Stands engine start moves task run beginning materials passed

/-- A repair that begins with a move has come through the rounds of this move. -/
theorem Began.of_planned {running : Running β} {target : Target}
    (hfound : (replay engine moves start).activity? running.task = some running)
    (hactivity : running.activity = .planned .main (.repair target) ∨
      running.activity = .planned .main (.repairSuspending target)) :
    Began engine start (moves ++ [.resume running.task]) running.task (replay engine moves start)
      (target.materials (replay engine moves start).world)
      ([] ++ (replay engine moves start).roundsOf engine running) := by
  refine ⟨moves, [], running, target, rfl, rfl, hfound, hactivity, rfl, ?_⟩
  simp only [rounds, collect, roundsIn_resume hfound, List.append_nil, List.nil_append]

/-- **Every piece of work of a repair goes on with the plan of its beginning.** -/
theorem exists_piece
    (htidy : Tidy engine (replay engine moves start).world.repository
      (replay engine moves start).holds)
    (hmending : Mending engine start moves) {running : Running β}
    (hfound : (replay engine moves start).activity? running.task = some running)
    (hrepairs : running.activity.Repairs) :
    ∃ beginning materials passed shaders step,
      Began engine start (moves ++ [.resume running.task]) running.task beginning materials
        (passed ++ (replay engine moves start).roundsOf engine running) ∧
      passed.map Round.shader ++ shaders = planned beginning.world materials ∧
      Piece engine ⟨beginning.world.config, materials⟩ shaders (namesAfter passed [])
        (replay engine moves start).world ((replay engine moves start).roundsOf engine running)
        step ∧
      (replay engine moves start).advance engine running
        = Task.step .repair .repaired step := by
  have hhold := holds_of_activity? hfound
  obtain ⟨task, activity, pause⟩ := running
  cases hrepairs with
  | atOnce target =>
      exact ⟨_, _, [], _, _, .of_planned hfound (Or.inl rfl), rfl,
        Repair.fix_piece htidy ⟨task, hhold⟩, rfl⟩
  | planned target =>
      exact ⟨_, _, [], _, _, .of_planned hfound (Or.inr rfl), rfl,
        Repair.Run.start_piece task _ htidy hhold, rfl⟩
  | begun run =>
      obtain ⟨hfit, beginning, materials, passed, hstands⟩ :=
        hmending task _ run hfound rfl
      refine ⟨beginning, materials, passed, run.shaders, _, ?_, hstands.shaders, ?_, rfl⟩
      · have hnext := hstands.began.snoc (.resume task)
        rwa [roundsIn_resume hfound] at hnext
      · have hpiece := Repair.Run.resume_piece task (replay engine moves start).clock htidy hhold
          hfit
        rwa [hstands.job, hstands.missing] at hpiece

/-! ### The invariant -/

/-- A repair that is under way was one before its last piece of work, or began with it. -/
theorem repairs_of_paused {former : Running β} {run : Repair.Run β} {pause : Pause}
    (h : (session.advance engine former).2 = .paused (.repair run) pause) :
    former.activity.Repairs := by
  unfold advance at h
  cases hactivity : former.activity with
  | planned thread request =>
      simp only [hactivity] at h
      have hstarted := Task.started engine former.task h
      generalize (Task.start engine former.task session.clock thread request session.world).1
        = after at hstarted
      cases hstarted with
      | repair =>
          cases thread with
          | main => exact .planned _
          | other => cases h
  | begun state =>
      simp only [hactivity] at h
      cases state with
      | repair former => exact .begun former
      | _ =>
          obtain ⟨part, -, hpart⟩ := Task.paused_of_step h
          cases hpart

/-- What a repair waits for stays possible, whatever happens. -/
theorem fit_move (hsound : session.Sound) (next : Move) {run : Repair.Run β}
    (h : run.Fit session.world.repository) :
    run.Fit (session.move engine next).world.repository := by
  cases run with
  | waiting job shaders wait => trivial
  | lookingUp job shader rest missing lookup =>
      exact ⟨h.bound, move_keeps (Act.keeps_present engine _) hsound h.present next⟩

/-- **A move keeps all repairs under way to what they planned.** -/
theorem Mending.move (hsound : (replay engine moves start).Sound)
    (htidy : Tidy engine (replay engine moves start).world.repository
      (replay engine moves start).holds)
    (hmending : Mending engine start moves) (next : Move) :
    Mending engine start (moves ++ [next]) := by
  intro task running run hfound hactivity
  rw [replay_append] at hfound ⊢
  rcases activity?_move hfound with ⟨hkept, hresume, -⟩ | ⟨thread, request, hplanned⟩
    | ⟨former, state, hformer, rfl, hbegun, hpaused⟩
  · obtain ⟨hfit, beginning, materials, passed, hstands⟩ :=
      hmending task running run hkept hactivity
    refine ⟨fit_move hsound next hfit, beginning, materials, passed, ?_⟩
    have hidle : (replay engine moves start).roundsIn engine task next = [] := by
      cases next with
      | resume other => exact if_neg fun heq => hresume (congrArg Move.resume heq)
      | _ => rfl
    have hbegan := hstands.began.snoc next
    rw [hidle, List.append_nil] at hbegan
    exact ⟨hbegan, hstands.job, hstands.shaders, hstands.missing⟩
  · rw [hactivity] at hplanned
    cases hplanned
  · rw [hactivity] at hbegun
    obtain rfl := Activity.begun.inj hbegun
    obtain rfl := task_of_activity? hformer
    obtain ⟨beginning, materials, passed, shaders, step, hbegan, hshaders, hpiece, hadvance⟩ :=
      exists_piece htidy hmending hformer (repairs_of_paused hpaused)
    have hworld :
        ((replay engine moves start).move engine (.resume former.task)).world = step.1 := by
      rw [move_resume hformer, world_resume, hadvance]
      rfl
    rw [hadvance] at hpaused
    obtain ⟨part, hpart, heq⟩ := Task.paused_of_step hpaused
    obtain rfl := Task.repair.inj heq
    obtain ⟨hleft, hjob, hmissing, hfit⟩ := hpiece.pauses run running.pause hpart
    refine ⟨?_, beginning, materials, _, hbegan, hjob, ?_, ?_⟩
    · rwa [← hworld] at hfit
    · rw [List.map_append, List.append_assoc, hleft, hshaders]
    · rw [hmissing, Repair.namesAfter_append]

theorem tidy_replay (engine : Engine σ β) {world : World σ β} {state : σ}
    (hfresh : world.repository = .fresh state) (moves : List Move) :
    Tidy engine (replay engine moves (fresh world)).world.repository
      (replay engine moves (fresh world)).holds := by
  apply replay_keeps (Act.keeps_tidy engine) moves (sound_fresh world)
  have hinitial : Tidy engine (.fresh state) (fresh world).holds :=
    Tidy.initial engine state fun _ => rfl
  rwa [← hfresh] at hinitial

/-- **All repairs under way go on with what they planned**, whatever happens. -/
theorem mending_replay (engine : Engine σ β) {world : World σ β} {state : σ}
    (hfresh : world.repository = .fresh state) (moves : List Move) :
    Mending engine (fresh world) moves := by
  induction moves using List.reverseRecOn with
  | nil =>
      intro task running run hfound
      cases hfound
  | append_singleton moves next ih =>
      exact ih.move ((sound_fresh world).replay moves) (tidy_replay engine hfresh moves) next

end Session

end ShaderMend
