import ShaderMend.Proofs.Session.Regularity

/-!
# Nobody waits at a cell for ever

A task that waits at the cell of an entry is in line there. Whatever others do brings it nearer
to its turn, or leaves it where it is.

* `Cell.wait` — how far a task in line is from its turn.
* `Session.nearer_move`, `Session.closer_turn` — no move of another task takes it farther away,
  and a turn of the holder brings it nearer.
* `Session.Fair.turn_of_waiting` — so under a fair schedule its turn comes.
-/

namespace ShaderMend

variable {σ β : Type}

/-! ### In line -/

/-- How much longer the holder of a cell takes if it has not begun to load. -/
def Hold.delay : Hold → Nat
  | .asked _ => 1
  | _ => 0

theorem Hold.delay_le_one (hold : Hold) : hold.delay ≤ 1 := by
  cases hold <;> simp [delay]

namespace Cell

/-- Whether a task that waits at a cell can go on: there is a shader, or it holds the cell. -/
def Serves (cell : Cell) (task : TaskId) : Prop :=
  cell.stored.isSome ∨ cell.holder = some task

/-- How far a task in line is from its turn: two steps for each task before it, and one less
if the holder loads already. -/
def wait (holds : TaskId → Hold) (cell : Cell) (task : TaskId) : Nat :=
  2 * cell.queue.idxOf task + ((cell.holder.map fun holder => (holds holder).delay).getD 0)

/-- Whether a task at a cell is served afterwards, or in line and not farther from its turn; if
it is as far, the holder is the same. -/
def Nearer (task : TaskId) (holds : TaskId → Hold) (cell : Cell) (holds' : TaskId → Hold)
    (after : Cell) : Prop :=
  after.Serves task ∨
    task ∈ after.queue ∧ (after.wait holds' task < cell.wait holds task ∨
      after.wait holds' task = cell.wait holds task ∧ after.holder = cell.holder)

theorem idxOf_filter_le {tasks : List TaskId} {task other : TaskId} (h : task ≠ other) :
    (tasks.filter (· ≠ other)).idxOf task ≤ tasks.idxOf task := by
  induction tasks with
  | nil => exact Nat.le_refl _
  | cons first rest ih =>
      by_cases hother : first = other
      · subst hother
        simp only [ne_eq, not_true_eq_false, decide_false, List.filter_cons_of_neg,
          Bool.false_eq_true, not_false_eq_true]
        rw [List.idxOf_cons_ne _ (Ne.symm h)]
        exact ih.trans (Nat.le_succ _)
      · rw [List.filter_cons_of_pos (by simpa using hother)]
        by_cases hfirst : first = task
        · subst hfirst
          simp
        · rw [List.idxOf_cons_ne _ hfirst, List.idxOf_cons_ne _ hfirst]
          exact Nat.succ_le_succ ih

namespace Attended

variable {holds : TaskId → Hold} {id : EntryId} {cell : Cell} {task : TaskId}

/-- Where a task is in line, another holds the cell, which is empty. -/
theorem of_mem_queue (h : Attended holds id cell) (hmem : task ∈ cell.queue) :
    cell.stored = none ∧ ∃ holder, cell.holder = some holder ∧ holder ≠ task := by
  cases hholder : cell.holder with
  | none =>
      rw [h.idle hholder] at hmem
      cases hmem
  | some holder =>
      refine ⟨h.empty_of_holder hholder, holder, rfl, ?_⟩
      rintro rfl
      exact h.apart hholder hmem

/-- **The next in line moves up** when the holder hands over. -/
theorem nearer_fail (holds holds' : TaskId → Hold) {cell : Cell} {task : TaskId}
    (hmem : task ∈ cell.queue) :
    cell.fail.Serves task ∨
      task ∈ cell.fail.queue ∧ cell.fail.wait holds' task < cell.wait holds task := by
  cases hqueue : cell.queue with
  | nil =>
      rw [hqueue] at hmem
      cases hmem
  | cons next rest =>
      have hfail : cell.fail = { cell with holder := some next, queue := rest } := by
        simp only [Cell.fail, hqueue]
      rw [hfail]
      by_cases hnext : next = task
      · exact Or.inl (Or.inr (congrArg some hnext))
      · right
        rw [hqueue] at hmem
        refine ⟨(List.mem_cons.mp hmem).resolve_left (Ne.symm hnext), ?_⟩
        have hdelay := (holds' next).delay_le_one
        simp only [wait, hqueue, List.idxOf_cons_ne _ hnext, Option.map_some, Option.getD_some]
        omega

end Attended

variable {holds : TaskId → Hold} {id : EntryId} {cell after : Cell} {task other : TaskId}
  {before hold : Hold}

/-- A task that is served stays so until it takes its turn. -/
theorem Act.serves (hact : Cell.Act other id cell before after hold) (hhold : holds other = before)
    (h : cell.Attended holds id) (hne : other ≠ task) (hserves : cell.Serves task) :
    after.Serves task := by
  rcases hserves with hstored | hholder
  · obtain ⟨shader, hshader⟩ := Option.isSome_iff_exists.mp hstored
    exact Or.inl (by rw [hact.stored hhold h hshader]; rfl)
  · have hempty := h.empty_of_holder hholder
    have hother : cell.holder ≠ some other := by
      rw [hholder]
      exact fun heq => hne (Option.some.inj heq).symm
    cases hact with
    | stay => exact Or.inr hholder
    | elsewhere hbefore hafter => exact Or.inr hholder
    | ask =>
        right
        simp only [Cell.request, hempty, hholder]
    | take => exact Or.inr hholder
    | fail => exact absurd (h.loading hhold) hother
    | fill shader => exact Or.inl rfl
    | leave hleft =>
        right
        rw [Cell.leave, if_neg hother]
        exact hholder
    | store shader =>
        right
        simp only [Cell.store, hempty, hholder]

/-- **What another task does at a cell** does not take a task in line farther from its turn. -/
theorem Act.nearer (hact : Cell.Act other id cell before after hold) (hhold : holds other = before)
    (h : cell.Attended holds id) (hne : other ≠ task) (hmem : task ∈ cell.queue) :
    cell.Nearer task holds (Function.update holds other hold) after := by
  obtain ⟨hempty, holder, hholder, hapart⟩ := h.of_mem_queue hmem
  have hsame : ∀ given, other ≠ holder →
      cell.wait (Function.update holds other given) task = cell.wait holds task := by
    intro given hother
    simp only [wait, hholder, Option.map_some, Function.update_of_ne (Ne.symm hother)]
  cases hact with
  | stay =>
      rw [← hhold, Function.update_eq_self]
      exact Or.inr ⟨hmem, Or.inr ⟨rfl, rfl⟩⟩
  | elsewhere hbefore hafter =>
      have hother : other ≠ holder := by
        rintro rfl
        exact hbefore (hhold ▸ h.holder hholder)
      exact Or.inr ⟨hmem, Or.inr ⟨hsame _ hother, rfl⟩⟩
  | ask =>
      have hother : other ≠ holder := by
        rintro rfl
        exact Hold.not_isAt_nothing id (hhold ▸ h.holder hholder)
      simp only [Cell.request, hempty, hholder, Hold.ofTurn]
      refine Or.inr ⟨List.mem_append_left _ hmem, Or.inr ⟨?_, hholder.symm⟩⟩
      rw [← hsame (.asked id) hother]
      simp only [wait, hholder, List.idxOf_append_of_mem hmem]
  | take =>
      by_cases hother : other = holder
      · subst hother
        simp only [Cell.turn, hempty, hholder, ↓reduceIte, Hold.ofTurn]
        refine Or.inr ⟨hmem, Or.inl ?_⟩
        simp only [wait, hholder, Option.map_some, Option.getD_some, Function.update_self, hhold,
          Hold.delay]
        omega
      · exact Or.inr ⟨hmem, Or.inr ⟨hsame _ hother, rfl⟩⟩
  | fail =>
      rcases Attended.nearer_fail holds (Function.update holds other .nothing) hmem with
        hserves | ⟨hmem', hlt⟩
      · exact Or.inl hserves
      · exact Or.inr ⟨hmem', Or.inl hlt⟩
  | fill shader => exact Or.inl (Or.inl rfl)
  | leave hleft =>
      by_cases hother : other = holder
      · subst hother
        simp only [Cell.leave, hholder, ↓reduceIte]
        rcases Attended.nearer_fail holds (Function.update holds other .nothing) hmem with
          hserves | ⟨hmem', hlt⟩
        · exact Or.inl hserves
        · exact Or.inr ⟨hmem', Or.inl hlt⟩
      · have hheld : cell.holder ≠ some other := by
          rw [hholder]
          exact fun heq => hother (Option.some.inj heq).symm
        simp only [Cell.leave, if_neg hheld]
        refine Or.inr ⟨List.mem_filter.mpr ⟨hmem, by simpa using hne.symm⟩, ?_⟩
        have hle : (cell.queue.filter (· ≠ other)).idxOf task ≤ cell.queue.idxOf task :=
          idxOf_filter_le (Ne.symm hne)
        rw [← hsame .nothing hother]
        simp only [wait]
        rcases Nat.lt_or_eq_of_le hle with hlt | heq
        · left
          omega
        · right
          rw [heq]
          exact ⟨rfl, trivial⟩
  | store shader =>
      rw [← hhold, Function.update_eq_self]
      simp only [Cell.store, hempty, hholder]
      exact Or.inr ⟨hmem, Or.inr ⟨rfl, rfl⟩⟩

theorem Nearer.trans {holds' holds'' : TaskId → Hold} {middle : Cell}
    (h : cell.Nearer task holds holds' middle) (hserves : middle.Serves task → after.Serves task)
    (hnearer : task ∈ middle.queue → middle.Nearer task holds' holds'' after) :
    cell.Nearer task holds holds'' after := by
  rcases h with hserved | ⟨hmem, hwait⟩
  · exact Or.inl (hserves hserved)
  · rcases hnearer hmem with hserved | ⟨hmem', hwait'⟩
    · exact Or.inl hserved
    · refine Or.inr ⟨hmem', ?_⟩
      rcases hwait with hlt | ⟨heq, hholder⟩
      · rcases hwait' with hlt' | ⟨heq', -⟩
        · exact Or.inl (hlt'.trans hlt)
        · exact Or.inl (heq' ▸ hlt)
      · rcases hwait' with hlt' | ⟨heq', hholder'⟩
        · exact Or.inl (heq ▸ hlt')
        · exact Or.inr ⟨heq'.trans heq, hholder'.trans hholder⟩

end Cell

/-! ### Rows of acts -/

section Rows

variable {engine : Engine σ β} {task other : TaskId} {before after : Footing σ β}
  {holds : TaskId → Hold} {id : EntryId}

/-- A task that is served stays so whatever another task does. -/
theorem Acts.serves (hacts : Acts engine other before after) (hhold : holds other = before.hold)
    (h : Attended id before.repository holds) (hne : other ≠ task)
    (hserves : (before.repository.cell id).Serves task) :
    (after.repository.cell id).Serves task := by
  induction hacts with
  | refl => exact hserves
  | @tail middle after hacts hact ih =>
      have hmiddle := Acts.keeps (Act.keeps_attended engine id) hacts hhold h
      obtain ⟨-, hcell⟩ := hact.atCell hmiddle.present
      exact hcell.serves (Function.update_self other middle.hold holds) hmiddle.cell hne ih

/-- **A row of acts of another task** does not take a task in line farther from its turn. -/
theorem Acts.nearer (hacts : Acts engine other before after) (hhold : holds other = before.hold)
    (h : Attended id before.repository holds) (hne : other ≠ task)
    (hmem : task ∈ (before.repository.cell id).queue) :
    (before.repository.cell id).Nearer task holds (Function.update holds other after.hold)
      (after.repository.cell id) := by
  induction hacts with
  | refl =>
      rw [← hhold, Function.update_eq_self]
      exact Or.inr ⟨hmem, Or.inr ⟨rfl, rfl⟩⟩
  | @tail middle after hacts hact ih =>
      have hmiddle := Acts.keeps (Act.keeps_attended engine id) hacts hhold h
      have hself : Function.update holds other middle.hold other = middle.hold :=
        Function.update_self other middle.hold holds
      obtain ⟨-, hcell⟩ := hact.atCell hmiddle.present
      apply ih.trans
      · exact hcell.serves hself hmiddle.cell hne
      · intro hmem'
        have hnext := hcell.nearer hself hmiddle.cell hne hmem'
        rwa [Function.update_idem] at hnext

end Rows

/-- **A step of the holder's load** brings a task in line nearer to its turn. -/
theorem Materialization.nearer_resume (engine : Engine σ β) (now : Nat)
    {repository : Repository σ β} {holds : TaskId → Hold} {id : EntryId}
    (h : Attended id repository holds) {holder task : TaskId} {state : Materialization β}
    (hentry : state.entry = id) (hhold : holds holder = state.hold)
    (hholder : (repository.cell id).holder = some holder)
    (hmem : task ∈ (repository.cell id).queue) :
    ((state.resume engine holder now repository).1.cell id).Serves task ∨
      task ∈ ((state.resume engine holder now repository).1.cell id).queue ∧
        ((state.resume engine holder now repository).1.cell id).wait
            (Function.update holds holder
              ((state.resume engine holder now repository).2.hold hold)) task
          < (repository.cell id).wait holds task := by
  have hempty := h.cell.empty_of_holder hholder
  cases state with
  | waiting source entry =>
      obtain rfl : entry = id := hentry
      have hturn : (repository.cell entry).turn holder = .hold := by
        simp [Cell.turn, hempty, hholder]
      simp only [resume, hturn, proceed]
      cases source.bundle with
      | none =>
          dsimp only
          rw [Repository.cell_modifyCell h.present]
          exact Cell.Attended.nearer_fail _ _ hmem
      | some bundle =>
          refine Or.inr ⟨hmem, ?_⟩
          have hasked : holds holder = .asked entry := hhold
          simp only [Cell.wait, hholder, Option.map_some, Option.getD_some, Progress.hold, hold,
            Function.update_self, hasked, Hold.delay]
          omega
  | loading archive bundle entry =>
      obtain rfl : entry = id := hentry
      cases hload : (engine.loadShader repository.engine bundle entry.assetPath).2 with
      | some shader =>
          have hcell := (resume_of_delivered holder now archive h.present hload).2
          rw [hcell]
          exact Or.inl (Or.inl rfl)
      | none =>
          have hcell := (resume_of_undelivered holder now archive h.present hload).2
          rw [hcell]
          exact Cell.Attended.nearer_fail _ _ hmem

/-! ### Turns that are not due -/

theorem Cell.turn_eq_wait_iff {cell : Cell} {task : TaskId} :
    cell.turn task = .wait ↔ ¬ cell.Serves task := by
  unfold turn Serves
  cases cell.stored with
  | some shader => simp
  | none => by_cases hholder : cell.holder = some task <;> simp [hholder]

/-- A task whose turn at a cell has not come pauses again and changes nothing. -/
theorem Task.resume_of_wait (engine : Engine σ β) {task : TaskId} (now : Nat) {state : Task β}
    {source : Source β} {id : EntryId} {world : World σ β}
    (hload : state.materialization? = some (.waiting source id))
    (hturn : (world.repository.cell id).turn task = .wait) :
    state.resume engine task now world = (world, .paused state (.turn id)) := by
  have hresume : (Materialization.waiting source id).resume engine task now world.repository
      = (world.repository, .paused (.waiting source id) (.turn id)) := by
    simp only [Materialization.resume, hturn, Materialization.proceed]
  cases state with
  | webLoad directory load =>
      cases load with
      | caching state rest loads =>
          obtain rfl := Option.some.inj hload
          simp only [resume, WebLoad.resume, hresume]
          rfl
      | _ => cases hload
  | webWait wait => cases hload
  | lookup lookup =>
      obtain ⟨candidate, load⟩ := lookup
      obtain rfl := Option.some.inj hload
      simp only [resume, Lookup.resume, hresume]
      rfl
  | materialization load =>
      obtain rfl := Option.some.inj hload
      simp only [resume, hresume]
      rfl
  | repair run =>
      cases run with
      | waiting job shaders wait => cases hload
      | lookingUp job shader rest missing lookup =>
          obtain ⟨candidate, load⟩ := lookup
          obtain rfl := Option.some.inj hload
          simp only [resume, Repair.Run.resume, Lookup.resume, hresume]
          rfl

/-! ### Moves -/

namespace Session

variable {engine : Engine σ β} {session : Session σ β} {task : TaskId} {id : EntryId}

/-- What another task does with a move, as a row of acts; or nothing happens to the cells. -/
theorem move_cases (engine : Engine σ β) (hsound : session.Sound) {next : Move}
    (hnext : ¬ next.Concerns task) :
    ((session.move engine next).world.repository = session.world.repository ∧
      (session.move engine next).holds = session.holds) ∨
    ∃ other added after, other ≠ task ∧
      Acts engine other ⟨session.world.repository, session.holds other, added⟩ after ∧
      (session.move engine next).world.repository = after.repository ∧
      (session.move engine next).holds = Function.update session.holds other after.hold := by
  have hmoved := session.moved engine next
  generalize session.move engine next = after at hmoved ⊢
  cases hmoved with
  | plan instant thread request => exact Or.inl ⟨rfl, holds_plan session instant thread request⟩
  | @resume running hfound =>
      have hne : running.task ≠ task := fun heq => hnext (Or.inl (congrArg Move.resume heq))
      have hacts := advance_acts engine (hsound running (mem_of_activity? hfound))
      rw [← holds_of_activity? hfound] at hacts
      exact Or.inr ⟨_, _, _, hne, hacts, repository_resume engine session running,
        holds_resume engine hfound⟩
  | @drop running hfound =>
      have hne : running.task ≠ task := fun heq => hnext (Or.inr (congrArg Move.drop heq))
      have hacts := session.drop_acts engine running
      rw [← holds_of_activity? hfound] at hacts
      exact Or.inr ⟨_, _, _, hne, hacts, rfl, holds_drop session running⟩
  | wait duration => exact Or.inl ⟨rfl, rfl⟩
  | idle next => exact Or.inl ⟨rfl, rfl⟩

/-- A task that is served stays so until it takes its turn. -/
theorem serves_move (engine : Engine σ β) (hsound : session.Sound)
    (h : Attended id session.world.repository session.holds)
    (hserves : (session.world.repository.cell id).Serves task) {next : Move}
    (hnext : ¬ next.Concerns task) :
    ((session.move engine next).world.repository.cell id).Serves task := by
  rcases move_cases engine hsound hnext with
    ⟨hrepository, -⟩ | ⟨other, added, after, hne, hacts, hrepository, -⟩
  · rwa [hrepository]
  · rw [hrepository]
    exact hacts.serves rfl h hne hserves

/-- **A move of another task** does not take a task in line farther from its turn. -/
theorem nearer_move (engine : Engine σ β) (hsound : session.Sound)
    (h : Attended id session.world.repository session.holds)
    (hmem : task ∈ (session.world.repository.cell id).queue) {next : Move}
    (hnext : ¬ next.Concerns task) :
    (session.world.repository.cell id).Nearer task session.holds (session.move engine next).holds
      ((session.move engine next).world.repository.cell id) := by
  rcases move_cases engine hsound hnext with
    ⟨hrepository, hholds⟩ | ⟨other, added, after, hne, hacts, hrepository, hholds⟩
  · rw [hrepository, hholds]
    exact Or.inr ⟨hmem, Or.inr ⟨rfl, rfl⟩⟩
  · rw [hrepository, hholds]
    exact hacts.nearer rfl h hne hmem

/-- Whether a task is served, or in line and nearer to its turn than a bound. -/
def Closer (session : Session σ β) (task : TaskId) (id : EntryId) (bound : Nat) : Prop :=
  (session.world.repository.cell id).Serves task ∨
    task ∈ (session.world.repository.cell id).queue ∧
      (session.world.repository.cell id).wait session.holds task < bound

/-- Whether a task is in line at a cell that another holds, as far from its turn as given. -/
structure InLine (session : Session σ β) (task : TaskId) (id : EntryId) (bound : Nat)
    (holder : TaskId) : Prop where
  mem : task ∈ (session.world.repository.cell id).queue
  wait : (session.world.repository.cell id).wait session.holds task = bound
  holder : (session.world.repository.cell id).holder = some holder

/-- What a task does with its turn. -/
theorem advance_of_begun (engine : Engine σ β) {running : Running β} {state : Task β}
    (hactivity : running.activity = .begun state) :
    session.advance engine running
      = state.resume engine running.task session.clock session.world := by
  simp only [advance, hactivity]

section Holder

variable {running : Running β} {state : Task β} {load : Materialization β}

/-- The holder goes on: first its load takes the next step, then the task what follows. -/
theorem closer_resume (engine : Engine σ β) (hsound : session.Sound)
    (hfound : session.activity? running.task = some running)
    (hactivity : running.activity = .begun state) (hload : state.materialization? = some load)
    (h : Attended load.entry session.world.repository session.holds)
    (hholder : (session.world.repository.cell load.entry).holder = some running.task)
    (hmem : task ∈ (session.world.repository.cell load.entry).queue) :
    (session.move engine (.resume running.task)).Closer task load.entry
      ((session.world.repository.cell load.entry).wait session.holds task) := by
  have hne : running.task ≠ task := by
    rintro rfl
    exact h.cell.apart hholder hmem
  have hhold : session.holds running.task = load.hold := by
    rw [holds_of_activity? hfound, hactivity]
    exact Task.hold_of_materialization? hload
  have hkeeps := hsound running (mem_of_activity? hfound)
  rw [hactivity] at hkeeps
  have hfirst := load.nearer_resume engine session.clock h rfl hhold hholder hmem
  have hmiddle := (load.resume_acts engine running.task session.clock
    session.world.repository 0).keeps (Act.keeps_attended engine load.entry) hhold h
  have hself := Function.update_self running.task (Progress.hold Materialization.hold
    (load.resume engine running.task session.clock session.world.repository).2) session.holds
  have hrest := Task.acts_of_materialization engine running.task session.clock hkeeps hload
  unfold Closer
  rw [move_resume hfound, repository_resume, holds_resume engine hfound,
    advance_of_begun engine hactivity]
  rcases hfirst with hserves | ⟨hmiddleMem, hlt⟩
  · exact Or.inl (hrest.serves hself hmiddle hne hserves)
  · have hnearer := hrest.nearer hself hmiddle hne hmiddleMem
    rw [Function.update_idem] at hnearer
    rcases hnearer with hserves | ⟨hafterMem, hless | ⟨heq, -⟩⟩
    · exact Or.inl hserves
    · exact Or.inr ⟨hafterMem, hless.trans hlt⟩
    · exact Or.inr ⟨hafterMem, heq ▸ hlt⟩

/-- The holder is dropped. -/
theorem closer_drop (engine : Engine σ β)
    (hfound : session.activity? running.task = some running)
    (hload : running.activity.materialization? = some load)
    (h : Attended load.entry session.world.repository session.holds)
    (hholder : (session.world.repository.cell load.entry).holder = some running.task)
    (hmem : task ∈ (session.world.repository.cell load.entry).queue) :
    (session.move engine (.drop running.task)).Closer task load.entry
      ((session.world.repository.cell load.entry).wait session.holds task) := by
  unfold Closer
  rw [cell_drop hfound hload, Materialization.drop, Repository.cell_modifyCell h.present,
    Cell.leave, if_pos hholder]
  exact Cell.Attended.nearer_fail _ _ hmem

end Holder

/-- **A turn of the holder** brings a task in line nearer to its own. -/
theorem closer_turn (engine : Engine σ β) (hsound : session.Sound)
    (h : Attended id session.world.repository session.holds) {running : Running β}
    (hfound : session.activity? running.task = some running)
    (hholder : (session.world.repository.cell id).holder = some running.task)
    (hmem : task ∈ (session.world.repository.cell id).queue) {next : Move}
    (hnext : next.Concerns running.task) :
    (session.move engine next).Closer task id
      ((session.world.repository.cell id).wait session.holds task) := by
  have hat := h.cell.holder hholder
  rw [holds_of_activity? hfound] at hat
  cases hactivity : running.activity with
  | planned thread request =>
      rw [hactivity] at hat
      exact absurd hat (Hold.not_isAt_nothing id)
  | begun state =>
      rw [hactivity] at hat
      obtain ⟨load, hload, rfl⟩ := Task.materialization?_of_isAt hat
      rcases hnext with rfl | rfl
      · exact closer_resume engine hsound hfound hactivity hload h hholder hmem
      · apply closer_drop engine hfound _ h hholder hmem
        rw [hactivity]
        exact hload

/-! ### Tasks that wait -/

/-- Whether a task is in the middle of its work, in a state. -/
def Working (session : Session σ β) (task : TaskId) (state : Task β) : Prop :=
  ∃ running, session.activity? running.task = some running ∧ running.task = task ∧
    running.activity = .begun state

variable {state : Task β} {source : Source β}

theorem Working.holds_eq (h : session.Working task state) : session.holds task = state.hold := by
  obtain ⟨running, hfound, rfl, hactivity⟩ := h
  rw [holds_of_activity? hfound, hactivity]
  rfl

/-- A task stays as it is with a move in which it takes no turn. -/
theorem Working.move_of_not_concerns (h : session.Working task state) {next : Move}
    (hnext : ¬ next.Concerns task) : (session.move engine next).Working task state := by
  obtain ⟨running, hfound, rfl, hactivity⟩ := h
  exact ⟨running, activity?_move_of_not_concerns hfound hnext, rfl, hactivity⟩

/-- A task that pauses again in the same state and leaves the world alone changes nothing. -/
theorem Working.move_of_idle (h : session.Working task state) {pause : Pause}
    (hidle : state.resume engine task session.clock session.world
      = (session.world, .paused state pause)) :
    (session.move engine (.resume task)).Working task state ∧
      (session.move engine (.resume task)).world = session.world ∧
      (session.move engine (.resume task)).holds = session.holds := by
  have hheld := h.holds_eq
  obtain ⟨running, hfound, rfl, hactivity⟩ := h
  have hadvance : session.advance engine running = (session.world, .paused state pause) :=
    (advance_of_begun engine hactivity).trans hidle
  have hworld := world_resume engine session running
  have hholds := holds_resume engine hfound
  have hself : (session.resume engine running).activity? running.task
      = some ⟨running.task, .begun state, pause⟩ := by
    rw [activity?_resume_self hfound, hadvance]
  rw [hadvance] at hworld hholds
  rw [move_resume hfound]
  refine ⟨⟨⟨running.task, .begun state, pause⟩, hself, rfl, rfl⟩, hworld, hholds.trans ?_⟩
  rw [Progress.hold, ← hheld, Function.update_eq_self]

/-- A task that takes a turn before it is served changes nothing. -/
theorem Working.move_of_wait (engine : Engine σ β) (h : session.Working task state)
    (hload : state.materialization? = some (.waiting source id))
    (hwait : ¬ (session.world.repository.cell id).Serves task) :
    (session.move engine (.resume task)).Working task state ∧
      (session.move engine (.resume task)).world = session.world ∧
      (session.move engine (.resume task)).holds = session.holds := by
  apply h.move_of_idle
  exact Task.resume_of_wait engine session.clock hload (Cell.turn_eq_wait_iff.mpr hwait)

/-- **No move takes a task in line farther from its turn**, except that it is dropped. -/
theorem Working.nearer (engine : Engine σ β) (h : session.Working task state)
    (hload : state.materialization? = some (.waiting source id)) (hsound : session.Sound)
    (hattended : Attended id session.world.repository session.holds)
    (hmem : task ∈ (session.world.repository.cell id).queue) {next : Move}
    (hkept : next ≠ .drop task) :
    (session.move engine next).Working task state ∧
      (session.world.repository.cell id).Nearer task session.holds
        (session.move engine next).holds
        ((session.move engine next).world.repository.cell id) := by
  by_cases hnext : next = .resume task
  · subst hnext
    by_cases hserves : (session.world.repository.cell id).Serves task
    · obtain ⟨hempty, holder, hholder, hne⟩ := hattended.cell.of_mem_queue hmem
      rcases hserves with hstored | hheld
      · rw [hempty] at hstored
        cases hstored
      · rw [hholder] at hheld
        exact absurd (Option.some.inj hheld) hne
    · obtain ⟨hworking, hworld, hholds⟩ := h.move_of_wait engine hload hserves
      rw [hworld, hholds]
      exact ⟨hworking, Or.inr ⟨hmem, Or.inr ⟨rfl, rfl⟩⟩⟩
  · have hother : ¬ next.Concerns task := fun hconcerns => hconcerns.elim hnext hkept
    exact ⟨h.move_of_not_concerns hother, nearer_move engine hsound hattended hmem hother⟩

/-- A task that waits at a cell is served, or in line. -/
theorem Orderly.served_or_mem (h : session.Orderly engine) (hworking : session.Working task state)
    (hload : state.materialization? = some (.waiting source id)) :
    Attended id session.world.repository session.holds ∧
      ((session.world.repository.cell id).Serves task ∨
        task ∈ (session.world.repository.cell id).queue) := by
  have hasked : session.holds task = .asked id :=
    hworking.holds_eq.trans (Task.hold_of_materialization? hload)
  have hpresent := h.regular.placed (show (session.holds task).IsAt id from Or.inl hasked)
  have hattended := h.regular.attended hpresent
  exact ⟨⟨hpresent, hattended⟩, or_assoc.mpr (hattended.waiting hasked)⟩

/-! ### Turns come -/

section Fairness

variable {schedule : Nat → Move} {start : Session σ β} {count : Nat}

/-- **Under a fair schedule the holder of a cell takes a turn.** -/
theorem Fair.turn_of_holder (hfair : Fair engine schedule start)
    (h : (upTo engine schedule start count).Orderly engine) {holder : TaskId}
    (hpresent : ((upTo engine schedule start count).world.repository.lookup? id).isSome)
    (hholder : ((upTo engine schedule start count).world.repository.cell id).holder
      = some holder) :
    ∃ running later, running.task = holder ∧
      NextTurn engine schedule start count running later := by
  have hcell := h.regular.attended hpresent
  obtain ⟨running, hmem, rfl, state, hstate, rfl⟩ :=
    exists_running_of_isAt h.numbered (hcell.holder hholder)
  have hfound := h.numbered.activity?_of_mem hmem
  refine ⟨running, ?_⟩
  rcases h.patient running hmem with ⟨instant, hpause⟩ | ⟨source, id, hwaiting, hpause⟩
  · obtain ⟨later, hlater⟩ := hfair.turn_of_until hfound hpause
    exact ⟨later, rfl, hlater⟩
  · have hready : (upTo engine schedule start count).isReady running = true := by
      rw [hstate] at hwaiting
      obtain rfl := Option.some.inj hwaiting
      have hempty := hcell.empty_of_holder hholder
      change ((upTo engine schedule start count).world.repository.cell id).stored = none at hempty
      change ((upTo engine schedule start count).world.repository.cell id).holder = _ at hholder
      simp [isReady, hpause, Pause.isOver, Cell.turn, hempty, hholder]
    obtain ⟨later, hlater⟩ := hfair.turn_of_ready hfound hready
    exact ⟨later, rfl, hlater⟩

variable (horderly : ∀ count, (upTo engine schedule start count).Orderly engine)
include horderly

/-- While the holder stays, a task in line comes nearer to its turn or stays where it is, unless
it is dropped. -/
theorem closer_or_inLine
    (hworking : (upTo engine schedule start count).Working task state)
    (hload : state.materialization? = some (.waiting source id))
    (hkept : ∀ later, count ≤ later → schedule later ≠ .drop task) {bound : Nat}
    {holder : TaskId} (h : (upTo engine schedule start count).InLine task id bound holder)
    {last : Nat} (hle : count ≤ last) :
    (∃ later, count ≤ later ∧ (upTo engine schedule start later).Working task state ∧
      (upTo engine schedule start later).Closer task id bound) ∨
    (upTo engine schedule start last).Working task state ∧
      (upTo engine schedule start last).InLine task id bound holder := by
  induction last, hle using Nat.le_induction with
  | base => exact Or.inr ⟨hworking, h⟩
  | succ last hle ih =>
      rcases ih with hcloser | ⟨hlast, hline⟩
      · exact Or.inl hcloser
      · obtain ⟨hattended, -⟩ := (horderly last).served_or_mem hlast hload
        obtain ⟨hnext, hnearer⟩ := hlast.nearer engine hload (horderly last).sound hattended
          hline.mem (hkept last hle)
        rw [← upTo_succ] at hnext hnearer
        have hlater : count ≤ last + 1 := Nat.le_succ_of_le hle
        rcases hnearer with hserves | ⟨hmem, hlt | ⟨heq, hsame⟩⟩
        · exact Or.inl ⟨last + 1, hlater, hnext, Or.inl hserves⟩
        · exact Or.inl ⟨last + 1, hlater, hnext, Or.inr ⟨hmem, hline.wait ▸ hlt⟩⟩
        · exact Or.inr ⟨hnext, hmem, heq.trans hline.wait, hsame.trans hline.holder⟩

/-- **Under a fair schedule a task in line comes nearer to its turn**, unless it is dropped. -/
theorem Fair.closer (hfair : Fair engine schedule start)
    (hworking : (upTo engine schedule start count).Working task state)
    (hload : state.materialization? = some (.waiting source id))
    (hkept : ∀ later, count ≤ later → schedule later ≠ .drop task)
    (hmem : task ∈ ((upTo engine schedule start count).world.repository.cell id).queue) :
    ∃ later, count ≤ later ∧ (upTo engine schedule start later).Working task state ∧
      (upTo engine schedule start later).Closer task id
        (((upTo engine schedule start count).world.repository.cell id).wait
          (upTo engine schedule start count).holds task) := by
  obtain ⟨hattended, -⟩ := (horderly count).served_or_mem hworking hload
  obtain ⟨-, holder, hholder, hne⟩ := hattended.cell.of_mem_queue hmem
  obtain ⟨running, turn, rfl, hturn⟩ :=
    hfair.turn_of_holder (horderly count) hattended.present hholder
  rcases closer_or_inLine horderly hworking hload hkept ⟨hmem, rfl, hholder⟩ hturn.le with
    hcloser | ⟨hlast, hline⟩
  · exact hcloser
  · -- Nothing has happened until the holder takes its turn.
    obtain ⟨hattended, -⟩ := (horderly turn).served_or_mem hlast hload
    have hcloser := closer_turn engine (horderly turn).sound hattended hturn.found hline.holder
      hline.mem hturn.concerns
    have hother : ¬ (schedule turn).Concerns task := by
      intro hconcerns
      rcases hconcerns with heq | heq
      · rcases hturn.concerns with hresume | hdrop
        · exact hne (Move.resume.inj (hresume.symm.trans heq))
        · cases hdrop.symm.trans heq
      · exact hkept turn hturn.le heq
    rw [← upTo_succ, hline.wait] at hcloser
    refine ⟨turn + 1, Nat.le_succ_of_le hturn.le, ?_, hcloser⟩
    rw [upTo_succ]
    exact hlast.move_of_not_concerns hother

/-- **Under a fair schedule a task that waits at a cell is served**, unless it is dropped. -/
theorem Fair.served (hfair : Fair engine schedule start)
    (hworking : (upTo engine schedule start count).Working task state)
    (hload : state.materialization? = some (.waiting source id))
    (hkept : ∀ later, count ≤ later → schedule later ≠ .drop task) :
    ∃ later, count ≤ later ∧ (upTo engine schedule start later).Working task state ∧
      ((upTo engine schedule start later).world.repository.cell id).Serves task := by
  suffices hbound : ∀ bound count, (upTo engine schedule start count).Working task state →
      (∀ later, count ≤ later → schedule later ≠ .drop task) →
      (upTo engine schedule start count).Closer task id bound →
        ∃ later, count ≤ later ∧ (upTo engine schedule start later).Working task state ∧
          ((upTo engine schedule start later).world.repository.cell id).Serves task by
    obtain ⟨-, hplace⟩ := (horderly count).served_or_mem hworking hload
    exact hbound _ count hworking hkept (hplace.imp_right fun hmem => ⟨hmem, Nat.lt_succ_self _⟩)
  intro bound
  induction bound using Nat.strong_induction_on with
  | _ bound ih =>
      intro count hworking hkept hcloser
      rcases hcloser with hserves | ⟨hmem, hlt⟩
      · exact ⟨count, Nat.le_refl _, hworking, hserves⟩
      · obtain ⟨middle, hmiddle, hworking', hcloser'⟩ :=
          hfair.closer horderly hworking hload hkept hmem
        obtain ⟨later, hlater, hdone⟩ := ih _ hlt middle hworking'
          (fun later hlater => hkept later (hmiddle.trans hlater)) hcloser'
        exact ⟨later, hmiddle.trans hlater, hdone⟩

/-- A task that is served stays so until it takes a turn. -/
theorem serves_upTo (hworking : (upTo engine schedule start count).Working task state)
    (hload : state.materialization? = some (.waiting source id))
    (hserves : ((upTo engine schedule start count).world.repository.cell id).Serves task)
    {last : Nat} (hle : count ≤ last)
    (h : ∀ middle, count ≤ middle → middle < last → ¬ (schedule middle).Concerns task) :
    (upTo engine schedule start last).Working task state ∧
      ((upTo engine schedule start last).world.repository.cell id).Serves task := by
  induction last, hle using Nat.le_induction with
  | base => exact ⟨hworking, hserves⟩
  | succ last hle ih =>
      obtain ⟨hlast, hserved⟩ :=
        ih fun middle hmiddle hlt => h middle hmiddle (Nat.lt_succ_of_lt hlt)
      obtain ⟨hattended, -⟩ := (horderly last).served_or_mem hlast hload
      have hother := h last hle (Nat.lt_succ_self last)
      rw [upTo_succ]
      exact ⟨hlast.move_of_not_concerns hother,
        serves_move engine (horderly last).sound hattended hserved hother⟩

/-- **Under a fair schedule a task that waits at a cell takes a turn when it is served**, unless
it is dropped. -/
theorem Fair.turn_of_waiting (hfair : Fair engine schedule start)
    (hworking : (upTo engine schedule start count).Working task state)
    (hload : state.materialization? = some (.waiting source id))
    (hkept : ∀ later, count ≤ later → schedule later ≠ .drop task) :
    ∃ later, count ≤ later ∧ schedule later = .resume task ∧
      (upTo engine schedule start later).Working task state ∧
      ((upTo engine schedule start later).world.repository.cell id).Serves task := by
  obtain ⟨middle, hmiddle, hworking', hserves⟩ := hfair.served horderly hworking hload hkept
  obtain ⟨running, hfound, rfl, hactivity⟩ := hworking'
  have hturn : ∃ later, NextTurn engine schedule start middle running later := by
    rcases (horderly middle).patient _ (mem_of_activity? hfound) with
      ⟨instant, hpause⟩ | ⟨source', id', hwaiting, hpause⟩
    · exact hfair.turn_of_until hfound hpause
    · apply hfair.turn_of_ready hfound
      rw [hactivity] at hwaiting
      obtain ⟨rfl, rfl⟩ := Materialization.waiting.inj (Option.some.inj (hload.symm.trans hwaiting))
      rw [isReady, hpause, Pause.isOver]
      cases hat : ((upTo engine schedule start middle).world.repository.cell id).turn
          running.task with
      | wait => exact absurd hserves (Cell.turn_eq_wait_iff.mp hat)
      | hold => rfl
      | ready shader => rfl
  obtain ⟨later, hlater⟩ := hturn
  have hle := hmiddle.trans hlater.le
  exact ⟨later, hle, hlater.concerns.resolve_right (hkept later hle),
    serves_upTo horderly ⟨running, hfound, rfl, hactivity⟩ hload hserves hlater.le
      hlater.between⟩

end Fairness

end Session

end ShaderMend
