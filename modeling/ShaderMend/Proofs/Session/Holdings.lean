import ShaderMend.Proofs.Session.Tasks

/-!
# What the tasks of a session hold on to

* `Session.replay_keeps` — what every act keeps of a repository and of what the tasks hold
  on to is kept by every row of moves.
* `Session.numbered_replay` — no two tasks of a session have one number.
* `Repository.Occurs.invariant` — what every act keeps holds of the repositories of sessions.
-/

namespace ShaderMend

variable {σ β : Type}

open Relation (ReflTransGen)

/-! ### Holdings -/

/-- What an activity holds on to. A request that is only planned holds nothing. -/
def Activity.hold : Activity β → Hold
  | .planned .. => .nothing
  | .begun state => state.hold

/-- How many archives an activity has added so far. -/
def Activity.added : Activity β → Nat
  | .planned .. => 0
  | .begun state => state.added

/-- Whether the entry that an activity loads the shader of for its own sake, if it does, is a
marker. -/
def Activity.Sound (repository : Repository σ β) : Activity β → Prop
  | .planned .. => True
  | .begun state => state.Sound repository

namespace Session

/-- What each task holds on to. -/
def holds (session : Session σ β) (task : TaskId) : Hold :=
  ((session.activity? task).map fun running => running.activity.hold).getD .nothing

theorem task_of_activity? {session : Session σ β} {task : TaskId} {running : Running β}
    (h : session.activity? task = some running) : running.task = task := by
  have hfound := List.find?_some h
  simpa using hfound

theorem mem_of_activity? {session : Session σ β} {task : TaskId} {running : Running β}
    (h : session.activity? task = some running) : running ∈ session.running :=
  List.mem_of_find?_eq_some h

theorem holds_of_activity? {session : Session σ β} {task : TaskId} {running : Running β}
    (h : session.activity? task = some running) : session.holds task = running.activity.hold := by
  simp [holds, h]

theorem exists_running_of_holds {session : Session σ β} {task : TaskId} {hold : Hold}
    (h : session.holds task = hold) (hne : hold ≠ .nothing) :
    ∃ running ∈ session.running, running.task = task ∧ running.activity.hold = hold := by
  cases hfound : session.activity? task with
  | none => exact absurd (by simpa [holds, hfound] using h.symm) hne
  | some running =>
      exact ⟨running, mem_of_activity? hfound, task_of_activity? hfound,
        (holds_of_activity? hfound).symm.trans h⟩

/-! ### What moves change -/

/-- What a move comes to: a task that does not exist neither goes on nor is dropped. -/
inductive Moved (engine : Engine σ β) (session : Session σ β) : Move → Session σ β → Prop where
  | plan (instant : Nat) (thread : Thread) (request : Request) :
      Moved engine session (.plan instant thread request) (session.plan instant thread request)
  | resume {running : Running β} (hfound : session.activity? running.task = some running) :
      Moved engine session (.resume running.task) (session.resume engine running)
  | drop {running : Running β} (hfound : session.activity? running.task = some running) :
      Moved engine session (.drop running.task) (session.drop running)
  | wait (duration : Nat) :
      Moved engine session (.wait duration) { session with clock := session.clock + duration }
  | idle (next : Move) : Moved engine session next session

theorem moved (engine : Engine σ β) (session : Session σ β) (next : Move) :
    Moved engine session next (session.move engine next) := by
  cases next with
  | plan instant thread request => exact .plan instant thread request
  | resume task =>
      simp only [move]
      cases hfound : session.activity? task with
      | none => exact .idle _
      | some running =>
          obtain rfl := task_of_activity? hfound
          exact .resume hfound
  | drop task =>
      simp only [move]
      cases hfound : session.activity? task with
      | none => exact .idle _
      | some running =>
          obtain rfl := task_of_activity? hfound
          exact .drop hfound
  | wait duration => exact .wait duration

/-- What is running after a move: what was, what is planned by the move, or what it leaves
of an activity that pauses again. -/
theorem mem_running_move {engine : Engine σ β} {session : Session σ β} {next : Move}
    {running : Running β}
    (h : running ∈ (session.move engine next).running) :
    running ∈ session.running ∨
    (∃ instant thread request, next = .plan instant thread request ∧
      running.activity = .planned thread request) ∨
    ∃ former state, session.activity? former.task = some former ∧ next = .resume former.task ∧
      running.activity = .begun state ∧
      (session.advance engine former).2 = .paused state running.pause := by
  have hmoved := session.moved engine next
  generalize session.move engine next = after at hmoved h
  cases hmoved with
  | plan instant thread request =>
      rcases List.mem_append.mp h with h | h
      · exact Or.inl h
      · rw [List.mem_singleton.mp h]
        exact Or.inr (Or.inl ⟨instant, thread, request, rfl, rfl⟩)
  | @resume former hfound =>
      unfold resume at h
      cases hstep : session.advance engine former with
      | mk world progress =>
          rw [hstep] at h
          cases progress with
          | paused state pause =>
              obtain ⟨other, hother, heq⟩ := List.mem_map.mp h
              split at heq
              · subst heq
                exact Or.inr (Or.inr ⟨former, state, hfound, rfl, rfl, congrArg Prod.snd hstep⟩)
              · exact Or.inl (heq ▸ hother)
          | done reply => exact Or.inl (List.mem_filter.mp h).1
  | drop hfound => exact Or.inl (List.mem_filter.mp h).1
  | wait duration => exact Or.inl h
  | idle next => exact Or.inl h

theorem holds_plan (session : Session σ β) (instant : Nat) (thread : Thread)
    (request : Request) : (session.plan instant thread request).holds = session.holds := by
  funext task
  simp only [holds, activity?, plan, List.find?_append]
  cases session.running.find? fun running => running.task = task with
  | some running => rfl
  | none =>
      by_cases h : session.nextTask = task
      · simp [h, Activity.hold]
      · simp [h]

theorem find?_replaced (running : List (Running β)) (task wanted : TaskId)
    (other : Running β) (hother : other.task = task) :
    (running.map fun r => if r.task = task then other else r).find? (·.task = wanted)
      = if wanted = task then (running.find? (·.task = task)).map fun _ => other
        else running.find? (·.task = wanted) := by
  induction running with
  | nil => simp
  | cons first rest ih =>
      by_cases hfirst : first.task = task
      · by_cases hwanted : wanted = task
        · subst hwanted
          simp [hfirst, hother]
        · have hne : ¬ task = wanted := fun h => hwanted h.symm
          simpa [hfirst, hother, hwanted, hne] using ih
      · by_cases hwanted : wanted = task
        · subst hwanted
          simpa [hfirst] using ih
        · by_cases hfound : first.task = wanted
          · simp [hfound, hwanted]
          · simpa [hfirst, hwanted, hfound] using ih

theorem find?_removed (running : List (Running β)) (task wanted : TaskId) :
    (running.filter (·.task ≠ task)).find? (·.task = wanted)
      = if wanted = task then none else running.find? (·.task = wanted) := by
  rw [List.find?_filter]
  by_cases hwanted : wanted = task
  · subst hwanted
    simp
  · simp only [hwanted, ↓reduceIte]
    congr 1
    funext r
    by_cases hr : r.task = wanted
    · simp [hr, hwanted]
    · simp [hr]

/-- Where the activity of a task is replaced, what the task holds is. -/
theorem holds_replaced {session after : Session σ β} {running : Running β} (other : Running β)
    (hfound : session.activity? running.task = some running) (hother : other.task = running.task)
    (h : after.running
      = session.running.map fun r => if r.task = running.task then other else r) :
    after.holds = Function.update session.holds running.task other.activity.hold := by
  funext task
  have hreplaced := find?_replaced session.running running.task task other hother
  simp only [holds, activity?, h, hreplaced]
  by_cases htask : task = running.task
  · subst htask
    simp only [activity?] at hfound
    simp [hfound]
  · simp [htask, holds, activity?]

/-- Where it is removed, the task holds nothing. -/
theorem holds_removed {session after : Session σ β} {task : TaskId}
    (h : after.running = session.running.filter (·.task ≠ task)) :
    after.holds = Function.update session.holds task .nothing := by
  funext other
  have hremoved := find?_removed session.running task other
  simp only [holds, activity?, h, hremoved]
  by_cases htask : other = task
  · simp [htask]
  · simp [htask, holds, activity?]

theorem holds_resume (engine : Engine σ β) {session : Session σ β} {running : Running β}
    (h : session.activity? running.task = some running) :
    (session.resume engine running).holds
      = Function.update session.holds running.task
          ((session.advance engine running).2.hold Task.hold) := by
  unfold resume
  cases session.advance engine running with
  | mk world progress =>
      cases progress with
      | paused state pause => exact holds_replaced ⟨_, .begun state, pause⟩ h rfl rfl
      | done reply => exact holds_removed rfl

theorem holds_drop (session : Session σ β) (running : Running β) :
    (session.drop running).holds = Function.update session.holds running.task .nothing :=
  holds_removed rfl

theorem advance_acts (engine : Engine σ β) {session : Session σ β} {running : Running β}
    (hsound : running.activity.Sound session.world.repository) :
    Acts engine running.task
      ⟨session.world.repository, running.activity.hold, running.activity.added⟩
      (Task.footing (session.advance engine running)) := by
  unfold advance
  cases hactivity : running.activity with
  | planned thread request =>
      exact Task.start_acts engine running.task session.clock thread request session.world
  | begun state =>
      rw [hactivity] at hsound
      exact Task.resume_acts engine running.task session.clock hsound

theorem drop_acts (engine : Engine σ β) (session : Session σ β) (running : Running β) :
    Acts engine running.task
      ⟨session.world.repository, running.activity.hold, running.activity.added⟩
      ⟨(session.drop running).world.repository, .nothing, running.activity.added⟩ := by
  unfold drop
  cases running.activity with
  | planned thread request => exact .refl
  | begun state => exact Task.drop_acts engine running.task session.world state

theorem repository_resume (engine : Engine σ β) (session : Session σ β) (running : Running β) :
    (session.resume engine running).world.repository
      = (session.advance engine running).1.repository := by
  unfold resume
  cases session.advance engine running with
  | mk world progress => cases progress <;> rfl

end Session

/-! ### Sound sessions -/

theorem Activity.Sound.mono {before after : Repository σ β} {activity : Activity β}
    (h : activity.Sound before) (hdeclared : before.declared <+: after.declared) :
    activity.Sound after := by
  cases activity with
  | planned thread request => exact trivial
  | begun state =>
      cases state with
      | webLoad directory load =>
          cases load with
          | caching materialization rest loads =>
              exact Repository.IsMarker.mono h hdeclared
          | _ => exact trivial
      | _ => exact trivial

namespace Session

/-- Whether the web phases of a session load the shaders of markers alone. -/
def Sound (session : Session σ β) : Prop :=
  ∀ running ∈ session.running, running.activity.Sound session.world.repository

variable {engine : Engine σ β} {session : Session σ β}

theorem sound_fresh (world : World σ β) : (fresh world).Sound :=
  fun _ hmem => by cases hmem

theorem Sound.declared_move (engine : Engine σ β) (h : session.Sound) (next : Move) :
    session.world.repository.declared
      <+: (session.move engine next).world.repository.declared := by
  have hmoved := session.moved engine next
  generalize session.move engine next = after at hmoved
  cases hmoved with
  | @resume running hfound =>
      rw [repository_resume]
      exact (advance_acts engine (h running (mem_of_activity? hfound))).grows_declared
  | @drop running hfound => exact (session.drop_acts engine running).grows_declared
  | _ => exact List.prefix_rfl

theorem Sound.move (h : session.Sound) (next : Move) : (session.move engine next).Sound := by
  intro running hmem
  have hdeclared := h.declared_move engine next
  rcases mem_running_move hmem with hmem | ⟨instant, thread, request, -, hplanned⟩
    | ⟨former, state, hfound, rfl, hbegun, hpaused⟩
  · exact (h running hmem).mono hdeclared
  · rw [hplanned]
    exact trivial
  · have hformer := h former (mem_of_activity? hfound)
    have hworld : (session.move engine (.resume former.task)).world.repository
        = (session.advance engine former).1.repository := by
      simp only [Session.move, hfound, repository_resume]
    rw [hbegun, hworld]
    unfold advance at hpaused ⊢
    cases hactivity : former.activity with
    | planned thread request =>
        simp only [hactivity] at hpaused ⊢
        exact Task.sound_of_start engine former.task hpaused
    | begun task =>
        simp only [hactivity] at hpaused hformer ⊢
        exact Task.sound_of_resume engine former.task hformer hpaused

/-- **Web phases load the shaders of markers alone**, whatever happens. -/
theorem Sound.replay (h : session.Sound) (moves : List Move) :
    (replay engine moves session).Sound := by
  induction moves generalizing session with
  | nil => exact h
  | cons next rest ih => exact ih (h.move next)

end Session

/-! ### What is kept -/

/-- Whether every act of every task keeps a property of a repository and of what the tasks
hold on to. -/
def Act.Keeps (engine : Engine σ β) (P : Repository σ β → (TaskId → Hold) → Prop) : Prop :=
  ∀ ⦃task : TaskId⦄ ⦃before after : Footing σ β⦄ ⦃holds : TaskId → Hold⦄,
    Act engine task before after → holds task = before.hold → P before.repository holds →
      P after.repository (Function.update holds task after.hold)

section Kept

variable {engine : Engine σ β} {P : Repository σ β → (TaskId → Hold) → Prop}

theorem Acts.keeps (hkeeps : Act.Keeps engine P) {task : TaskId} {before after : Footing σ β}
    (hacts : Acts engine task before after) {holds : TaskId → Hold}
    (hhold : holds task = before.hold) (h : P before.repository holds) :
    P after.repository (Function.update holds task after.hold) := by
  induction hacts with
  | refl =>
      rw [← hhold, Function.update_eq_self]
      exact h
  | tail _ hact ih =>
      have hnext := hkeeps hact (Function.update_self task _ holds) ih
      rwa [Function.update_idem] at hnext

namespace Session

theorem move_keeps (hkeeps : Act.Keeps engine P) {session : Session σ β} (hsound : session.Sound)
    (h : P session.world.repository session.holds) (next : Move) :
    P (session.move engine next).world.repository (session.move engine next).holds := by
  have hmoved := session.moved engine next
  generalize session.move engine next = after at hmoved
  cases hmoved with
  | plan instant thread request =>
      rw [holds_plan]
      exact h
  | @resume running hfound =>
      have hacts := advance_acts engine (hsound running (mem_of_activity? hfound))
      have hafter := hacts.keeps hkeeps (holds_of_activity? hfound) h
      rw [repository_resume, holds_resume engine hfound]
      exact hafter
  | @drop running hfound =>
      have hacts := session.drop_acts engine running
      have hafter := hacts.keeps hkeeps (holds_of_activity? hfound) h
      rw [holds_drop]
      exact hafter
  | wait duration => exact h
  | idle next => exact h

/-- **What every act keeps, every row of moves keeps.** -/
theorem replay_keeps (hkeeps : Act.Keeps engine P) (moves : List Move) {session : Session σ β}
    (hsound : session.Sound) (h : P session.world.repository session.holds) :
    P (replay engine moves session).world.repository (replay engine moves session).holds := by
  induction moves generalizing session with
  | nil => exact h
  | cons next rest ih => exact ih (hsound.move next) (move_keeps hkeeps hsound h next)

end Session

end Kept

/-! ### Numbers of tasks -/

namespace Session

/-- No two tasks have one number, and the next number is free. -/
structure Numbered (session : Session σ β) : Prop where
  distinct : (session.running.map Running.task).Nodup
  below : ∀ running ∈ session.running, running.task < session.nextTask

variable {engine : Engine σ β} {session : Session σ β}

theorem numbered_fresh (world : World σ β) : (fresh world).Numbered :=
  ⟨List.nodup_nil, fun _ hmem => by cases hmem⟩

theorem Numbered.activity?_of_mem (h : session.Numbered) {running : Running β}
    (hmem : running ∈ session.running) : session.activity? running.task = some running := by
  have hunique : ∀ other ∈ session.running, other.task = running.task → other = running := by
    intro other hother htask
    exact List.inj_on_of_nodup_map h.distinct hother hmem htask
  cases hfound : session.activity? running.task with
  | none =>
      have hnone := List.find?_eq_none.mp hfound running hmem
      simp at hnone
  | some other => rw [hunique other (mem_of_activity? hfound) (task_of_activity? hfound)]

theorem Numbered.holds_of_mem (h : session.Numbered) {running : Running β}
    (hmem : running ∈ session.running) : session.holds running.task = running.activity.hold :=
  holds_of_activity? (h.activity?_of_mem hmem)

/-- A task stands at one place among those that are running; to replace or remove it
changes that place alone. -/
theorem Numbered.split (h : session.Numbered) {running : Running β}
    (hmem : running ∈ session.running) :
    ∃ before after, session.running = before ++ running :: after ∧
      session.running.filter (·.task ≠ running.task) = before ++ after ∧
      ∀ other, (session.running.map fun r => if r.task = running.task then other else r)
        = before ++ other :: after := by
  obtain ⟨before, after, hsplit⟩ := List.append_of_mem hmem
  have hdistinct := h.distinct
  rw [hsplit, List.map_append, List.map_cons, List.nodup_append] at hdistinct
  obtain ⟨-, hafter, hapart⟩ := hdistinct
  have hbefore : ∀ r ∈ before, r.task ≠ running.task := fun r hr =>
    hapart r.task (List.mem_map_of_mem hr) running.task List.mem_cons_self
  have hrest : ∀ r ∈ after, r.task ≠ running.task := fun r hr heq =>
    (List.nodup_cons.mp hafter).1 (heq ▸ List.mem_map_of_mem hr)
  refine ⟨before, after, hsplit, ?_, fun other => ?_⟩
  · rw [hsplit, List.filter_append, List.filter_cons_of_neg (by simp),
      List.filter_eq_self.mpr (by simpa using hbefore),
      List.filter_eq_self.mpr (by simpa using hrest)]
  · have hkept : ∀ {part : List (Running β)}, (∀ r ∈ part, r.task ≠ running.task) →
        (part.map fun r => if r.task = running.task then other else r) = part := by
      intro part hpart
      calc _ = part.map id := List.map_congr_left fun r hr => if_neg (hpart r hr)
        _ = part := List.map_id part
    rw [hsplit, List.map_append, List.map_cons, hkept hbefore, hkept hrest, if_pos rfl]

theorem Numbered.plan (h : session.Numbered) (instant : Nat) (thread : Thread)
    (request : Request) : (session.plan instant thread request).Numbered := by
  have hfree : ∀ task ∈ session.running.map Running.task, task ≠ session.nextTask := by
    intro task hmem
    obtain ⟨running, hrunning, rfl⟩ := List.mem_map.mp hmem
    exact Nat.ne_of_lt (h.below running hrunning)
  constructor
  · simp only [Session.plan, List.map_append, List.map_cons, List.map_nil]
    refine List.nodup_append.mpr ⟨h.distinct, by simp, ?_⟩
    intro task hmem other hother
    rw [List.mem_singleton.mp hother]
    exact hfree task hmem
  · intro running hmem
    rcases List.mem_append.mp hmem with hmem | hmem
    · exact Nat.lt_succ_of_lt (h.below running hmem)
    · rw [List.mem_singleton.mp hmem]
      exact Nat.lt_succ_self _

theorem Numbered.removed (h : session.Numbered) {after : Session σ β} {task : TaskId}
    (hrunning : after.running = session.running.filter (·.task ≠ task))
    (hnext : after.nextTask = session.nextTask) : after.Numbered := by
  constructor
  · rw [hrunning]
    exact h.distinct.sublist (List.filter_sublist.map _)
  · intro running hmem
    rw [hrunning] at hmem
    rw [hnext]
    exact h.below running (List.mem_filter.mp hmem).1

theorem Numbered.replaced (h : session.Numbered) {after : Session σ β} {running : Running β}
    (other : Running β)
    (hother : other.task = running.task)
    (hrunning : after.running
      = session.running.map fun r => if r.task = running.task then other else r)
    (hnext : after.nextTask = session.nextTask) : after.Numbered := by
  have htask : ∀ r : Running β,
      (if r.task = running.task then other else r).task = r.task := by
    intro r
    by_cases heq : r.task = running.task
    · rw [if_pos heq, hother, heq]
    · rw [if_neg heq]
  constructor
  · simp only [hrunning, List.map_map, Function.comp_def, htask]
    exact h.distinct
  · intro r hr
    rw [hrunning] at hr
    obtain ⟨former, hformer, rfl⟩ := List.mem_map.mp hr
    rw [htask, hnext]
    exact h.below former hformer

theorem Numbered.move (h : session.Numbered) (next : Move) :
    (session.move engine next).Numbered := by
  have hmoved := session.moved engine next
  generalize session.move engine next = after at hmoved
  cases hmoved with
  | plan instant thread request => exact h.plan instant thread request
  | @resume running hfound =>
      unfold resume
      cases session.advance engine running with
      | mk world progress =>
          cases progress with
          | paused state pause =>
              exact h.replaced ⟨running.task, .begun state, pause⟩ rfl rfl rfl
          | done reply => exact h.removed rfl rfl
  | @drop running hfound => exact h.removed rfl rfl
  | wait duration => exact ⟨h.distinct, h.below⟩
  | idle next => exact h

/-- **No two tasks have one number**, whatever happens. -/
theorem numbered_replay (engine : Engine σ β) (moves : List Move) (h : session.Numbered) :
    (replay engine moves session).Numbered := by
  induction moves generalizing session with
  | nil => exact h
  | cons next rest ih => exact ih (h.move next)

/-- The next task holds on to nothing yet. -/
theorem Numbered.holds_nextTask (h : session.Numbered) :
    session.holds session.nextTask = .nothing := by
  have hnone : session.activity? session.nextTask = none := by
    apply List.find?_eq_none.mpr
    intro running hmem
    simpa using Nat.ne_of_lt (h.below running hmem)
  rw [holds, hnone]
  rfl

end Session

/-! ### Repositories of sessions -/

/-- Whether a session over a new repository can come to have the repository, whatever its
tasks are at. -/
def Repository.Occurs (engine : Engine σ β) (repository : Repository σ β) : Prop :=
  ∃ (world : World σ β) (moves : List Session.Move),
    (∃ start, world.repository = .fresh start) ∧
    (Session.replay engine moves (.fresh world)).world.repository = repository

/-- **What every act keeps holds of the repository of a session**, and some task holds on to
nothing, such as one that comes next. -/
theorem Repository.Occurs.invariant {engine : Engine σ β}
    {P : Repository σ β → (TaskId → Hold) → Prop} (hkeeps : Act.Keeps engine P)
    (hinitial : ∀ start, P (.fresh start) fun _ => .nothing) {repository : Repository σ β}
    (h : repository.Occurs engine) :
    ∃ holds task, holds task = .nothing ∧ P repository holds := by
  obtain ⟨world, moves, ⟨start, hstart⟩, rfl⟩ := h
  have hnumbered := Session.numbered_replay engine moves (Session.numbered_fresh world)
  refine ⟨_, _, hnumbered.holds_nextTask, Session.replay_keeps hkeeps moves
    (Session.sound_fresh world) ?_⟩
  show P world.repository fun _ => .nothing
  rw [hstart]
  exact hinitial start

end ShaderMend
