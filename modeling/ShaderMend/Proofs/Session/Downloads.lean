import ShaderMend.Proofs.Session.Stages

/-!
# Downloads and the end of the web phase

* `Session.isDoneWith_or_pending` — a piece of work is done with a path, or leaves it to a
  later one.
* `Session.onCourse_replay` — the invariant: as long as nobody but a single web phase raises
  the flag, every path that was downloaded is done with, or the phase still has to deal with
  it.
* `Session.stages_of_replay` — the stages only go up, every exit of a web phase raises the
  flag, and when an undisturbed one has raised it all that was downloaded is done with.
-/

namespace ShaderMend

variable {σ β : Type}

/-- The paths that an activity still has to deal with. -/
def Activity.pending : Activity β → List Path
  | .begun (.webLoad _ state) => state.pending
  | _ => []

theorem Activity.role_of_pending {activity : Activity β} {path : Path}
    (h : path ∈ activity.pending) :
    ∃ directory state, activity = .begun (.webLoad directory state) := by
  unfold pending at h
  split at h
  · exact ⟨_, _, rfl⟩
  · cases h

namespace Session

variable {engine : Engine σ β} {session : Session σ β}

/-! ### What is running -/

theorem activity?_plan {running : Running β} (h : session.activity? running.task = some running)
    (instant : Nat) (thread : Thread) (request : Request) :
    (session.plan instant thread request).activity? running.task = some running := by
  rw [activity?] at h
  simp only [activity?, plan, List.find?_append, h, Option.some_or]

theorem activity?_resume_of_ne (engine : Engine σ β) (session : Session σ β)
    {running : Running β} {task : TaskId} (h : task ≠ running.task) :
    (session.resume engine running).activity? task = session.activity? task := by
  unfold resume
  cases session.advance engine running with
  | mk world progress =>
      cases progress with
      | paused state pause =>
          have hreplaced := find?_replaced session.running running.task task
            ⟨running.task, .begun state, pause⟩ rfl
          simp only [activity?]
          rw [hreplaced, if_neg h]
      | done reply =>
          have hremoved := find?_removed session.running running.task task
          simp only [activity?]
          rw [hremoved, if_neg h]

theorem activity?_resume_self {running : Running β}
    (hfound : session.activity? running.task = some running) :
    (session.resume engine running).activity? running.task
      = match (session.advance engine running).2 with
        | .paused state pause => some ⟨running.task, .begun state, pause⟩
        | .done _ => none := by
  unfold resume
  cases session.advance engine running with
  | mk world progress =>
      cases progress with
      | paused state pause =>
          have hreplaced := find?_replaced session.running running.task running.task
            ⟨running.task, .begun state, pause⟩ rfl
          rw [activity?] at hfound
          simp only [activity?]
          rw [hreplaced, if_pos rfl, hfound]
          rfl
      | done reply =>
          have hremoved := find?_removed session.running running.task running.task
          simp only [activity?]
          rw [hremoved, if_pos rfl]

theorem activity?_drop_of_ne (session : Session σ β) {running : Running β} {task : TaskId}
    (h : task ≠ running.task) : (session.drop running).activity? task = session.activity? task := by
  have hremoved := find?_removed session.running running.task task
  simp only [drop, activity?]
  rw [hremoved, if_neg h]

/-! ### Paths that are done with -/

/-- The paths that a task still has to deal with. -/
def pending (session : Session σ β) (task : TaskId) : List Path :=
  ((session.activity? task).map fun running => running.activity.pending).getD []

theorem pending_of_activity? {running : Running β}
    (h : session.activity? running.task = some running) :
    session.pending running.task = running.activity.pending := by
  simp [pending, h]

/-- Whether a web phase is done with a path in a move, in which it leaves the paths before it
behind: the archive is registered, or it cannot be read, or the engine refuses what it
holds. -/
def IsDoneWith (engine : Engine σ β) (session : Session σ β) (next : Move) (path : Path) : Prop :=
  ∃ task passed, next = .resume task ∧
    session.pending task = passed ++ (session.move engine next).pending task ∧ path ∈ passed ∧
    ((session.move engine next).world.repository.isLoaded path = true ∨
      (∃ error, Bundle.read (session.move engine next).world.files path = .error error) ∨
      ∃ running directory state, session.activity? task = some running ∧
        running.activity = .begun (.webLoad directory state) ∧
        state.Refuses engine session.world.repository path)

/-- **A piece of work is done with a path, or leaves it to a later one.** -/
theorem isDoneWith_or_pending (engine : Engine σ β) {running : Running β}
    (hfound : session.activity? running.task = some running) {path : Path}
    (h : path ∈ running.activity.pending) :
    session.IsDoneWith engine (.resume running.task) path ∨
      path ∈ (session.move engine (.resume running.task)).pending running.task := by
  obtain ⟨directory, state, hactivity⟩ := Activity.role_of_pending h
  obtain ⟨-, passed, hpaths, hpassed⟩ := WebLoad.passes_resume engine running.task session.clock
    session.world state
  have hadvance : session.advance engine running
      = Task.step (.webLoad directory) (.webLoaded · (some directory))
          (state.resume engine running.task session.clock session.world) := by
    simp only [advance, hactivity]
    rfl
  have hleft : (session.move engine (.resume running.task)).pending running.task
      = WebLoad.left (state.resume engine running.task session.clock session.world).2 := by
    rw [move_resume hfound, pending, activity?_resume_self hfound, hadvance]
    cases state.resume engine running.task session.clock session.world with
    | mk world progress => cases progress <;> rfl
  have hworld : (session.move engine (.resume running.task)).world
      = (state.resume engine running.task session.clock session.world).1 := by
    rw [move_resume hfound, world_resume, hadvance]
    rfl
  rw [hactivity] at h
  change path ∈ state.pending at h
  rw [hpaths] at h
  rcases List.mem_append.mp h with hmem | hmem
  · refine Or.inl ⟨running.task, passed, rfl, ?_, hmem, ?_⟩
    · rw [pending_of_activity? hfound, hactivity, hleft]
      exact hpaths
    · rw [hworld]
      rcases hpassed path hmem with hloaded | hread | hrefused
      · exact Or.inl hloaded
      · exact Or.inr (Or.inl hread)
      · exact Or.inr (Or.inr ⟨running, directory, state, hfound, hactivity, hrefused⟩)
  · exact Or.inr (hleft ▸ hmem)

/-- The paths that a download returns with a move, if it comes to its end and does not fail. -/
def downloadsOf (session : Session σ β) : Move → List Path
  | .resume task =>
      match (session.activity? task).map Running.activity with
      | some (.begun (.webLoad _ (.downloading downloader))) =>
          if downloader.fails then [] else downloader.paths
      | _ => []
  | _ => []

/-- The paths that downloads return in the course of a row of moves. -/
def downloads (engine : Engine σ β) : List Move → Session σ β → List Path :=
  collect engine downloadsOf

theorem mem_downloadsOf {next : Move} {path : Path} (h : path ∈ session.downloadsOf next) :
    ∃ running, next = .resume running.task ∧ session.activity? running.task = some running ∧
      path ∈ running.activity.pending := by
  cases next with
  | resume task =>
      simp only [downloadsOf] at h
      split at h
      · rename_i directory downloader hseen
        obtain ⟨running, hfound, hactivity⟩ := Option.map_eq_some_iff.mp hseen
        obtain rfl := task_of_activity? hfound
        refine ⟨running, rfl, hfound, ?_⟩
        rw [hactivity]
        exact h
      · cases h
  | _ => cases h

/-- Whether a web phase is done with a path in the course of a row of moves. -/
def WasDoneWith (engine : Engine σ β) (moves : List Move) (session : Session σ β) (path : Path) :
    Prop :=
  ∃ earlier next later, moves = earlier ++ next :: later ∧
    (replay engine earlier session).IsDoneWith engine next path

theorem WasDoneWith.append {moves : List Move} {path : Path}
    (h : WasDoneWith engine moves session path) (more : List Move) :
    WasDoneWith engine (moves ++ more) session path := by
  obtain ⟨earlier, next, later, rfl, hdone⟩ := h
  exact ⟨earlier, next, later ++ more, by simp, hdone⟩

/-! ### Undisturbed web phases -/

/-- Whether a move plans a web phase. -/
def Move.plansWebPhase : Move → Bool
  | .plan _ _ (.loadWeb ..) => true
  | _ => false

/-- Whether a web phase is left alone in the course of a row of moves: there is no other, it is
not dropped once it has begun, nobody marks its end, and nobody waits for it too long. -/
structure Undisturbed (engine : Engine σ β) (moves : List Move) (session : Session σ β) :
    Prop where
  single : moves.countP Move.plansWebPhase ≤ 1
  undropped : ∀ directory state, .begun (.webLoad directory state) ∉ drops engine moves session
  unmarked : ∀ instant thread, .plan instant thread .completeWeb ∉ moves
  /-- A repair that does not block waits for the web phase as well. -/
  unrepaired : ∀ instant thread target, .plan instant thread (.repairSuspending target) ∉ moves
  inTime : ∀ answer ∈ (replay engine moves session).answers, answer.reply ≠ .awaited false

theorem Undisturbed.of_append {earlier later : List Move}
    (h : Undisturbed engine (earlier ++ later) session) : Undisturbed engine earlier session where
  single := by
    have hsingle := h.single
    rw [List.countP_append] at hsingle
    omega
  undropped directory state hmem := by
    refine h.undropped directory state ?_
    rw [drops, collect_append]
    exact List.mem_append_left _ hmem
  unmarked instant thread hmem := h.unmarked instant thread (List.mem_append_left _ hmem)
  unrepaired instant thread target hmem :=
    h.unrepaired instant thread target (List.mem_append_left _ hmem)
  inTime answer hmem := by
    refine h.inTime answer ?_
    rw [replay_append, answers_replay engine later]
    exact List.mem_append_left _ hmem

/-! ### On course -/

/-- How many web phases are running. -/
def phases (session : Session σ β) : Nat :=
  session.running.countP fun running => running.activity.role = .webPhase

theorem phases_plan (session : Session σ β) (instant : Nat) (thread : Thread)
    (request : Request) :
    (session.plan instant thread request).phases
      = session.phases + if (Move.plan instant thread request).plansWebPhase then 1 else 0 := by
  unfold phases plan
  rw [List.countP_append]
  cases request <;> rfl

/-- A task that goes on stays a web phase, or none, until it ends. -/
theorem phases_resume (engine : Engine σ β) (hnumbered : session.Numbered) {running : Running β}
    (hfound : session.activity? running.task = some running) :
    (session.resume engine running).phases
        + (if running.activity.role = .webPhase ∧ (session.advance engine running).2.isDone
            then 1 else 0)
      = session.phases := by
  obtain ⟨before, after, hsplit, hremoved, hreplaced⟩ :=
    hnumbered.split (mem_of_activity? hfound)
  have hcount : session.phases
      = (before.countP fun running => running.activity.role = .webPhase)
        + ((after.countP fun running => running.activity.role = .webPhase)
          + if running.activity.role = .webPhase then 1 else 0) := by
    simp only [phases, hsplit, List.countP_append, List.countP_cons, decide_eq_true_eq]
  rw [hcount]
  unfold resume
  cases hstep : session.advance engine running with
  | mk world progress =>
      cases progress with
      | paused state pause =>
          have hkept := role_of_paused (congrArg Prod.snd hstep)
          simp only [phases, hreplaced, List.countP_append, List.countP_cons, hkept,
            decide_eq_true_eq, Progress.isDone, Bool.false_eq_true, and_false, if_false]
          rfl
      | done reply =>
          simp only [phases, hremoved, List.countP_append, Progress.isDone, and_true]
          omega

theorem phases_drop_le (session : Session σ β) (running : Running β) :
    (session.drop running).phases ≤ session.phases :=
  List.filter_sublist.countP_le

/-- A move at which nobody waits too long and no web phase that has begun is dropped. -/
structure Calm (engine : Engine σ β) (session : Session σ β) (next : Move) : Prop where
  inTime : ∀ ending ∈ session.endingsOf engine next, ending.reply ≠ .awaited false
  undropped : ∀ directory state, .begun (.webLoad directory state) ∉ session.dropsOf next

theorem Undisturbed.calm {moves : List Move} {next : Move}
    (h : Undisturbed engine (moves ++ [next]) session) :
    Calm engine (replay engine moves session) next where
  inTime ending hmem := by
    refine h.inTime ending.answer ?_
    rw [replay_append]
    change _ ∈ ((replay engine moves session).move engine next).answers
    rw [answers_move]
    exact List.mem_append_right _ (List.mem_map_of_mem hmem)
  undropped directory state hmem := by
    refine h.undropped directory state ?_
    rw [drops, collect_append]
    exact List.mem_append_right _ (List.mem_append_left _ hmem)

/-- A web phase that ends makes room for the flag that it raises. -/
theorem phases_resume_le (hnumbered : session.Numbered) {running : Running β}
    (hfound : session.activity? running.task = some running)
    (hinTime : (session.advance engine running).2 ≠ .done (.awaited false))
    (hunmarked : running.activity.role ≠ .marking) :
    (session.resume engine running).phases
        + (session.advance engine running).1.repository.webDone.toNat
      ≤ session.phases + session.world.repository.webDone.toNat := by
  have hphases := phases_resume engine hnumbered hfound
  cases hrole : running.activity.role with
  | marking => exact absurd hrole hunmarked
  | webPhase =>
      rw [webDone_of_webPhase engine session hrole]
      simp only [hrole, true_and] at hphases
      cases hdone : (session.advance engine running).2.isDone with
      | false =>
          simp only [hdone, Bool.false_eq_true, if_false, Nat.add_zero] at hphases
          rw [hphases, Bool.false_or]
      | true =>
          simp only [hdone, if_true] at hphases
          rw [Bool.true_or, Bool.toNat_true]
          omega
  | other =>
      simp only [hrole, reduceCtorEq, false_and, if_false, Nat.add_zero] at hphases
      rcases webDone_of_other engine session hrole with hsame | hlate
      · rw [hsame, hphases]
      · exact absurd hlate hinTime

/-- **A web phase makes room for the flag that it raises.** -/
theorem phases_move_le (hnumbered : session.Numbered) {next : Move}
    (hcalm : Calm engine session next)
    (hunmarked : ∀ running ∈ session.running, running.activity.role ≠ .marking) :
    (session.move engine next).phases + (session.move engine next).world.repository.webDone.toNat
      ≤ session.phases + session.world.repository.webDone.toNat
        + if next.plansWebPhase then 1 else 0 := by
  have hmoved := session.moved engine next
  generalize session.move engine next = after at hmoved
  cases hmoved with
  | plan instant thread request =>
      have hphases := phases_plan session instant thread request
      have hflag : (session.plan instant thread request).world = session.world := rfl
      rw [hflag]
      omega
  | @resume running hfound =>
      have hinTime : (session.advance engine running).2 ≠ .done (.awaited false) := by
        intro hlate
        refine hcalm.inTime ⟨session, running, .awaited false⟩ ?_ rfl
        rw [endingsOf_resume hfound, hlate]
        exact List.mem_singleton_self _
      have hresumed := phases_resume_le hnumbered hfound hinTime
        (hunmarked running (mem_of_activity? hfound))
      rw [world_resume]
      exact hresumed.trans (Nat.le_add_right _ _)
  | @drop running hfound =>
      have hphases := phases_drop_le session running
      have hflag := session.webDone_drop_of_other running <| by
        intro directory state hactivity
        refine hcalm.undropped directory state ?_
        simp [dropsOf, hfound, hactivity]
      rw [hflag]
      omega
  | wait duration => exact Nat.le_add_right _ _
  | idle next => exact Nat.le_add_right _ _

/-- Nobody comes to raise the flag but a web phase. -/
theorem unmarked_move {next : Move}
    (hcomplete : ∀ instant thread, next ≠ .plan instant thread .completeWeb)
    (hrepair : ∀ instant thread target, next ≠ .plan instant thread (.repairSuspending target))
    (h : ∀ running ∈ session.running, running.activity.role ≠ .marking) :
    ∀ running ∈ (session.move engine next).running, running.activity.role ≠ .marking := by
  intro running hmem
  rcases mem_running_move hmem with hmem | ⟨instant, thread, request, rfl, hplanned⟩
    | ⟨former, state, hfound, -, hbegun, hpaused⟩
  · exact h running hmem
  · rw [hplanned]
    cases request with
    | completeWeb => exact absurd rfl (hcomplete instant thread)
    | repairSuspending target => exact absurd rfl (hrepair instant thread target)
    | _ => simp [Activity.role]
  · rw [hbegun, role_of_paused hpaused]
    exact h former (mem_of_activity? hfound)

/-- A path that somebody still has to deal with is dealt with in a move, or stays to be. -/
theorem isDoneWith_or_pending_move {next : Move} (hcalm : Calm engine session next) {path : Path}
    (h : ∃ task, path ∈ session.pending task) :
    session.IsDoneWith engine next path ∨
      ∃ task, path ∈ (session.move engine next).pending task := by
  obtain ⟨task, hmem⟩ := h
  cases hfound : session.activity? task with
  | none =>
      rw [pending, hfound] at hmem
      cases hmem
  | some running =>
      obtain rfl := task_of_activity? hfound
      rw [pending_of_activity? hfound] at hmem
      have hkept : ∀ {after : Session σ β}, after.activity? running.task = some running →
          ∃ task, path ∈ after.pending task := by
        intro after hafter
        refine ⟨running.task, ?_⟩
        rw [pending_of_activity? hafter]
        exact hmem
      have hmoved := session.moved engine next
      generalize hmove : session.move engine next = after at hmoved
      cases hmoved with
      | plan instant thread request =>
          exact Or.inr (hkept (activity?_plan hfound instant thread request))
      | @resume other hother =>
          by_cases hsame : running.task = other.task
          · obtain rfl := Option.some.inj (hfound.symm.trans (hsame ▸ hother))
            rcases isDoneWith_or_pending engine hfound hmem with hdone | hleft
            · exact Or.inl hdone
            · exact Or.inr ⟨running.task, hmove ▸ hleft⟩
          · exact Or.inr (hkept ((activity?_resume_of_ne engine session hsame).trans hfound))
      | @drop other hother =>
          by_cases hsame : running.task = other.task
          · obtain rfl := Option.some.inj (hfound.symm.trans (hsame ▸ hother))
            obtain ⟨directory, state, hactivity⟩ := Activity.role_of_pending hmem
            refine absurd ?_ (hcalm.undropped directory state)
            simp [dropsOf, hfound, hactivity]
          · exact Or.inr (hkept ((activity?_drop_of_ne session hsame).trans hfound))
      | wait duration => exact Or.inr (hkept hfound)
      | idle next => exact Or.inr (hkept hfound)

/-- How things stand with the downloads after a row of moves in which the web phase was left
alone: nobody else comes to raise the flag, no more web phases run or have raised it than were
planned, and every path that was downloaded is dealt with, or somebody has to. -/
structure OnCourse (engine : Engine σ β) (moves : List Move) (session : Session σ β) :
    Prop where
  unmarked : ∀ running ∈ (replay engine moves session).running, running.activity.role ≠ .marking
  counted : (replay engine moves session).phases
      + (replay engine moves session).world.repository.webDone.toNat
    ≤ moves.countP Move.plansWebPhase
  settled : ∀ path ∈ downloads engine moves session, WasDoneWith engine moves session path ∨
    ∃ task, path ∈ (replay engine moves session).pending task

theorem onCourse_nil {world : World σ β} (hflag : world.repository.webDone = false) :
    OnCourse engine [] (fresh world) where
  unmarked _ hmem := by cases hmem
  counted := by
    simp [replay, fresh, phases, hflag]
  settled _ hmem := by cases hmem

theorem OnCourse.snoc {moves : List Move} {next : Move} (hnumbered : session.Numbered)
    (hundisturbed : Undisturbed engine (moves ++ [next]) session)
    (h : OnCourse engine moves session) : OnCourse engine (moves ++ [next]) session := by
  have hcalm := hundisturbed.calm
  have hmove : replay engine (moves ++ [next]) session
      = (replay engine moves session).move engine next := by
    rw [replay_append]
    rfl
  have hdone : ∀ {path : Path}, (replay engine moves session).IsDoneWith engine next path →
      WasDoneWith engine (moves ++ [next]) session path :=
    fun hdone => ⟨moves, next, [], rfl, hdone⟩
  constructor
  case unmarked =>
    rw [hmove]
    refine unmarked_move ?_ ?_ h.unmarked
    · rintro instant thread rfl
      exact hundisturbed.unmarked instant thread (by simp)
    · rintro instant thread target rfl
      exact hundisturbed.unrepaired instant thread target (by simp)
  case counted =>
    have hle := phases_move_le (numbered_replay engine moves hnumbered) hcalm h.unmarked
    have hcounted := h.counted
    rw [hmove, List.countP_append, List.countP_singleton]
    omega
  case settled =>
    intro path hmem
    rw [downloads, collect_append] at hmem
    rw [hmove]
    rcases List.mem_append.mp hmem with hmem | hmem
    · rcases h.settled path hmem with hbefore | hpending
      · exact Or.inl (hbefore.append [next])
      · rcases isDoneWith_or_pending_move hcalm hpending with hnow | hleft
        · exact Or.inl (hdone hnow)
        · exact Or.inr hleft
    · rw [collect, collect, List.append_nil] at hmem
      obtain ⟨running, rfl, hfound, hpending⟩ := mem_downloadsOf hmem
      rcases isDoneWith_or_pending engine hfound hpending with hnow | hleft
      · exact Or.inl (hdone hnow)
      · exact Or.inr ⟨running.task, hleft⟩

/-- **An undisturbed web phase stays on course.** -/
theorem onCourse_replay (engine : Engine σ β) {moves : List Move} {world : World σ β}
    (hflag : world.repository.webDone = false)
    (h : Undisturbed engine moves (fresh world)) : OnCourse engine moves (fresh world) := by
  induction moves using List.reverseRecOn with
  | nil => exact onCourse_nil hflag
  | append_singleton earlier next ih =>
      exact (ih h.of_append).snoc (numbered_fresh world) h

/-- Where no web phase is running, no path is left to deal with. -/
theorem pending_of_phases (h : session.phases = 0) (task : TaskId) : session.pending task = [] := by
  cases hfound : session.activity? task with
  | none => rw [pending, hfound]; rfl
  | some running =>
      obtain rfl := task_of_activity? hfound
      rw [pending_of_activity? hfound]
      refine List.eq_nil_iff_forall_not_mem.mpr fun path hmem => ?_
      obtain ⟨directory, state, hactivity⟩ := Activity.role_of_pending hmem
      have hrole := List.countP_eq_zero.mp h running (mem_of_activity? hfound)
      simp [hactivity, Activity.role] at hrole

/-- **The stages of a repository only go up.** Whatever happens in a session over a new
repository: no later stage is an earlier one, the flag that the web phase is over stays up once
it is, and it is up at the last stage alone. Every way out of a web phase raises it: the end of
its work, whatever it comes to, and its being dropped once it has begun. When a web phase that
is left alone has raised it, every path that was downloaded was registered, or its archive
could not be used. -/
theorem stages_of_replay (engine : Engine σ β) (world : World σ β) (start : σ)
    (moves : List Move) :
    let origin := fresh { world with repository := .fresh start }
    let session := replay engine moves origin
    let repository := session.world.repository
    (∀ later, repository.stage.rank
      ≤ (replay engine later session).world.repository.stage.rank) ∧
    (repository.webDone = true →
      ∀ later, (replay engine later session).world.repository.webDone = true) ∧
    (repository.webDone = true ↔ repository.stage = .ready) ∧
    (∀ ending ∈ endings engine moves origin, ending.running.activity.role = .webPhase →
      repository.webDone = true) ∧
    (∀ directory state, .begun (.webLoad directory state) ∈ drops engine moves origin →
      repository.webDone = true) ∧
    (Undisturbed engine moves origin → repository.webDone = true →
      ∀ path ∈ downloads engine moves origin, WasDoneWith engine moves origin path) := by
  intro origin session repository
  have hsound : origin.Sound := sound_fresh _
  refine ⟨fun later => ?rank, fun hflag later => ?flag, ?ready, fun ending hmem hrole => ?ended,
    fun directory state hmem => ?dropped, fun hundisturbed hflag path hmem => ?done⟩
  case rank =>
    exact replay_keeps (Act.keeps_rank engine repository.stage.rank) later (hsound.replay moves)
      (Nat.le_refl _)
  case flag =>
    exact replay_keeps (Act.keeps_webDone engine) later (hsound.replay moves) hflag
  case ready =>
    exact replay_keeps (Act.keeps_ready engine) moves hsound
      (iff_of_false Bool.false_ne_true Stage.noConfusion)
  case ended => exact webDone_of_ending hsound hmem hrole
  case dropped => exact webDone_of_drop hsound hmem
  case done =>
    have hcourse := onCourse_replay engine rfl hundisturbed
    have hphases : session.phases = 0 := by
      have hcounted := hcourse.counted
      have hsingle := hundisturbed.single
      change session.phases + repository.webDone.toNat ≤ _ at hcounted
      rw [hflag, Bool.toNat_true] at hcounted
      omega
    rcases hcourse.settled path hmem with hdone | ⟨task, hpending⟩
    · exact hdone
    · change path ∈ session.pending task at hpending
      rw [pending_of_phases hphases] at hpending
      cases hpending

/-! ### A web phase that is left alone, and one that is dropped -/

/-- A task begins to load the archive, and is dropped. -/
def droppedMoves : List Move :=
  [.plan 0 .main (.loadWeb (some ⟨"d"⟩) sampleDownloader), .resume 0, .drop 0]

/-- The session in which the task waits for its download. -/
def startedSession : Session Engine.Tally Engine.MemoryBundle :=
  ⟨sampleWorld, 0, [⟨0, .begun (.webLoad ⟨"d"⟩ (.downloading sampleDownloader)), .until 0⟩], [], 1⟩

/-- The session in which the engine loads the archive for it. -/
def loadingSession : Session Engine.Tally Engine.MemoryBundle :=
  ⟨{ sampleWorld with repository := sampleWorld.repository.reserve Bundle.sampleContents.path }, 0,
    [⟨0, .begun (.webLoad ⟨"d"⟩ (.loading Bundle.sampleContents [] [])), .until 0⟩], [], 1⟩

theorem move_started : startedSession.move sampleEngine (.resume 0) = loadingSession := by
  simp [startedSession, loadingSession, move, activity?, resume, advance, Task.resume,
    arrive_sample, Task.step, Progress.within]

theorem collect_sample {α : Type}
    (see : Session Engine.Tally Engine.MemoryBundle → Move → List α) :
    collect sampleEngine see sampleMoves (fresh sampleWorld)
      = see (fresh sampleWorld) (.plan 0 .main (.loadWeb (some ⟨"d"⟩) sampleDownloader))
        ++ see ((fresh sampleWorld).plan 0 .main (.loadWeb (some ⟨"d"⟩) sampleDownloader))
          (.resume 0)
        ++ see startedSession (.resume 0) ++ see loadingSession (.resume 0) := by
  have hstarted : move sampleEngine (move sampleEngine (fresh sampleWorld)
      (.plan 0 .main (.loadWeb (some ⟨"d"⟩) sampleDownloader))) (.resume 0) = startedSession := rfl
  simp only [sampleMoves, collect, hstarted, move_started, List.append_nil, List.append_assoc]
  rfl

theorem undisturbed_sample : Undisturbed sampleEngine sampleMoves (fresh sampleWorld) where
  single := by decide
  undropped directory state hmem := by
    rw [drops, collect_sample] at hmem
    cases hmem
  unmarked instant thread hmem := by simp [sampleMoves] at hmem
  unrepaired instant thread target hmem := by simp [sampleMoves] at hmem
  inTime answer hmem := by
    rw [replay_sample] at hmem
    obtain rfl := List.mem_singleton.mp hmem
    simp

theorem stages_of_sample :
    (Undisturbed sampleEngine sampleMoves (fresh sampleWorld) ∧
      downloads sampleEngine sampleMoves (fresh sampleWorld) = [Bundle.sampleContents.path] ∧
      WasDoneWith sampleEngine sampleMoves (fresh sampleWorld) Bundle.sampleContents.path) ∧
    drops sampleEngine droppedMoves (fresh sampleWorld)
      = [.begun (.webLoad ⟨"d"⟩ (.downloading sampleDownloader))] ∧
    (replay sampleEngine droppedMoves (fresh sampleWorld)).world.repository.webDone = true := by
  have hdownloads : downloads sampleEngine sampleMoves (fresh sampleWorld)
      = [Bundle.sampleContents.path] := by
    rw [downloads, collect_sample]
    rfl
  have hdrops : drops sampleEngine droppedMoves (fresh sampleWorld)
      = [.begun (.webLoad ⟨"d"⟩ (.downloading sampleDownloader))] := rfl
  obtain ⟨-, -, -, -, -, hdone⟩ := stages_of_replay sampleEngine sampleWorld ⟨0, 0⟩ sampleMoves
  obtain ⟨-, -, -, -, hdropped, -⟩ := stages_of_replay sampleEngine sampleWorld ⟨0, 0⟩ droppedMoves
  rw [show fresh { sampleWorld with repository := .fresh ⟨0, 0⟩ } = fresh sampleWorld from rfl]
    at hdone hdropped
  rw [replay_sample] at hdone
  refine ⟨⟨undisturbed_sample, hdownloads, hdone undisturbed_sample rfl _ ?_⟩, hdrops,
    hdropped ⟨"d"⟩ (.downloading sampleDownloader) ?_⟩
  · rw [hdownloads]
    exact List.mem_cons_self
  · rw [hdrops]
    exact List.mem_cons_self

end Session

end ShaderMend
