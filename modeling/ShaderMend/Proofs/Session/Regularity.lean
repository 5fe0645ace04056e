import ShaderMend.Proofs.Session.Mending
import ShaderMend.Proofs.Session.Schedules
import ShaderMend.Proofs.Session.Sharing

/-!
# All entries and the tasks at them

Entries come with their archives, and tasks that need a shader go to the cell of its entry.

* `Acts.regularBut` — in a piece of work, a row of acts keeps all cells attended, and all other
  tasks at entries that are there.
* `Session.placed_move` — the task that takes the turn is at such an entry in the end.
* `Session.orderly_upTo` — so all tasks are, and all cells are attended, if whoever asks for the
  shader of an entry names one that is there.
-/

namespace ShaderMend

variable {σ β : Type}

/-! ### Rows of acts -/

/-- Whether all cells of entries are attended, and tasks are at entries that are there. -/
structure Regular (repository : Repository σ β) (holds : TaskId → Hold) : Prop where
  attended : ∀ {id}, (repository.lookup? id).isSome → (repository.cell id).Attended holds id
  placed : ∀ {task id}, (holds task).IsAt id → (repository.lookup? id).isSome

/-- The same in the middle of a piece of work, in which its task may be elsewhere. -/
structure RegularBut (task : TaskId) (repository : Repository σ β) (holds : TaskId → Hold) :
    Prop where
  attended : ∀ {id}, (repository.lookup? id).isSome → (repository.cell id).Attended holds id
  placed : ∀ {other id}, other ≠ task → (holds other).IsAt id → (repository.lookup? id).isSome

theorem Repository.cell_of_missing {repository : Repository σ β} {id : EntryId}
    (h : ¬ (repository.lookup? id).isSome) : repository.cell id = .empty := by
  have hnone : repository.lookup? id = none := by simpa using h
  simp [cell, hnone]

section Acting

variable {engine : Engine σ β} {task : TaskId}

/-- An entry that an act brings is empty, and its task is nowhere then. -/
theorem Act.new_entry {before after : Footing σ β} (hact : Act engine task before after)
    (hparsed : ∀ contents, before.hold = .read contents ∨ before.hold = .reserved contents →
      Entry.Parsed contents.entries)
    {id : EntryId} (hmissing : ¬ (before.repository.lookup? id).isSome)
    (hpresent : (after.repository.lookup? id).isSome) :
    after.hold = .nothing ∧ after.repository.cell id = .empty := by
  have hcell : ∀ (state : σ) (entry : EntryId) (change : Cell → Cell),
      ((Repository.modifyCell { before.repository with engine := state } entry
        change).lookup? id).isSome = (before.repository.lookup? id).isSome :=
    fun state entry change => Repository.isSome_lookup?_modifyCell
      { before.repository with engine := state } entry id change
  cases hact with
  | @add repository contents added bundle hloaded hreserved =>
      refine ⟨rfl, ?_⟩
      rw [Repository.cell_append (hparsed contents (Or.inl rfl))]
      exact Repository.cell_of_missing hmissing
  | @addReserved repository contents added bundle =>
      refine ⟨rfl, ?_⟩
      have hkept : (repository.append contents bundle).cell id = repository.cell id :=
        Repository.cell_append (hparsed contents (Or.inr rfl)) bundle id
      exact hkept.trans (Repository.cell_of_missing hmissing)
  | ask entry => exact absurd ((hcell _ _ _).symm.trans hpresent) hmissing
  | fail => exact absurd ((hcell _ _ _).symm.trans hpresent) hmissing
  | fill hdelivers => exact absurd ((hcell _ _ _).symm.trans hpresent) hmissing
  | leave hhold => exact absurd ((hcell _ _ _).symm.trans hpresent) hmissing
  | store entry hdelivers => exact absurd ((hcell _ _ _).symm.trans hpresent) hmissing
  | @keepLoaded repository hold entry added shader state hmarker hempty hdelivers =>
      exact absurd ((hcell state entry fun cell => (cell.store shader).1).symm.trans hpresent)
        hmissing
  | _ => exact absurd hpresent hmissing

/-- **An act keeps all cells attended**, and all other tasks at entries that are there. -/
theorem Act.regularBut {before after : Footing σ β} (hact : Act engine task before after)
    {holds : TaskId → Hold} (hhold : holds task = before.hold)
    (htidy : Tidy engine before.repository holds)
    (h : RegularBut task before.repository holds) :
    RegularBut task after.repository (Function.update holds task after.hold) := by
  constructor
  case attended =>
    intro id hpresent
    by_cases hbefore : (before.repository.lookup? id).isSome
    · exact (hact.atCell hbefore).2.attended hhold (h.attended hbefore)
    · obtain ⟨hnothing, hempty⟩ := hact.new_entry
        (fun contents hread => htidy.parsed (hhold ▸ hread)) hbefore hpresent
      rw [hempty, hnothing]
      apply Cell.Attended.of_idle rfl rfl
      intro other hat
      by_cases hother : other = task
      · rw [hother, Function.update_self] at hat
        exact Hold.not_isAt_nothing id hat
      · rw [Function.update_of_ne hother] at hat
        exact hbefore (h.placed hother hat)
  case placed =>
    intro other id hother hat
    rw [Function.update_of_ne hother] at hat
    exact (hact.atCell (h.placed hother hat)).1

theorem Acts.regularBut {before after : Footing σ β} (hacts : Acts engine task before after)
    {holds : TaskId → Hold} (hhold : holds task = before.hold)
    (htidy : Tidy engine before.repository holds)
    (h : RegularBut task before.repository holds) :
    RegularBut task after.repository (Function.update holds task after.hold) := by
  induction hacts with
  | refl =>
      rw [← hhold, Function.update_eq_self]
      exact h
  | tail hacts hact ih =>
      have hmiddle := Acts.keeps (Act.keeps_tidy engine) hacts hhold htidy
      have hnext := hact.regularBut (Function.update_self task _ holds) hmiddle ih
      rwa [Function.update_idem] at hnext

end Acting

/-! ### Where tasks are -/

namespace Session

variable {engine : Engine σ β} {session : Session σ β}

/-- Whether the tasks that need the shader of an entry need one of an entry that is there. -/
def Placed (session : Session σ β) : Prop :=
  ∀ running ∈ session.running, ∀ state, running.activity.materialization? = some state →
    (session.world.repository.lookup? state.entry).isSome

/-- Whether a call for the shader of an entry that begins with a move, if one does, names an
entry that is there. -/
def Named (session : Session σ β) (next : Move) : Prop :=
  ∀ running provider entry, next = .resume running.task →
    session.activity? running.task = some running →
    running.activity = .planned .main (.materializeSuspending provider entry) →
      (session.world.repository.lookup? entry).isSome

/-- If such calls are not planned, none begins. -/
theorem named_upTo {schedule : Nat → Move} (world : World σ β)
    (hschedule : ∀ count instant provider entry,
      schedule count ≠ .plan instant .main (.materializeSuspending provider entry))
    (count : Nat) : (upTo engine schedule (fresh world) count).Named (schedule count) := by
  have hplanned : ∀ count, ∀ running ∈ (upTo engine schedule (fresh world) count).running,
      ∀ provider entry,
        running.activity ≠ .planned .main (.materializeSuspending provider entry) := by
    intro count
    induction count with
    | zero => exact fun running hmem => (List.not_mem_nil hmem).elim
    | succ count ih =>
        intro running hmem provider entry hactivity
        rw [upTo_succ] at hmem
        rcases mem_running_move hmem with hold | ⟨instant, thread, request, hnext, hplan⟩
          | ⟨former, state, -, -, hbegun, -⟩
        · exact ih running hold provider entry hactivity
        · rw [hplan] at hactivity
          obtain ⟨rfl, rfl⟩ := Activity.planned.inj hactivity
          exact hschedule count instant provider entry hnext
        · rw [hbegun] at hactivity
          cases hactivity
  intro running provider entry hnext hfound hactivity
  exact absurd hactivity (hplanned count running (mem_of_activity? hfound) provider entry)

theorem present_move (engine : Engine σ β) (hsound : session.Sound) {id : EntryId}
    (h : (session.world.repository.lookup? id).isSome) (next : Move) :
    ((session.move engine next).world.repository.lookup? id).isSome :=
  move_keeps (Act.keeps_present engine id) hsound h next

theorem present_advance (engine : Engine σ β) (hsound : session.Sound) {running : Running β}
    (hfound : session.activity? running.task = some running) {id : EntryId}
    (h : (session.world.repository.lookup? id).isSome) :
    ((session.advance engine running).1.repository.lookup? id).isSome := by
  have hafter := present_move engine hsound h (.resume running.task)
  rwa [move_resume hfound, repository_resume] at hafter

/-- Where a lookup pauses, it needs the shader of an entry that is there. -/
theorem present_of_lookup (hsound : session.Sound)
    (htidy : Tidy engine session.world.repository session.holds) (hplaced : session.Placed)
    {former : Running β} (hfound : session.activity? former.task = some former)
    {lookup : Lookup β} {pause : Pause}
    (h : (session.advance engine former).2 = .paused (.lookup lookup) pause) :
    ((session.advance engine former).1.repository.lookup? lookup.materialization.entry).isSome := by
  have hkept {id : EntryId} (h : (session.world.repository.lookup? id).isSome) :=
    present_advance engine hsound hfound h
  unfold advance at h hkept ⊢
  cases hactivity : former.activity with
  | planned thread request =>
      simp only [hactivity] at h hkept ⊢
      have hrequest : ∃ query, thread = .main ∧ request = .findSuspending query := by
        have hstarted := Task.started engine former.task h
        generalize (Task.start engine former.task session.clock thread request session.world).1
          = after at hstarted
        cases hstarted with
        | lookup => exact ⟨_, rfl, rfl⟩
      obtain ⟨query, rfl, rfl⟩ := hrequest
      obtain ⟨part, hpart, hstate⟩ := Task.paused_of_step h
      obtain rfl := Task.lookup.inj hstate
      have hled := Lookup.led_start former.task session.clock htidy query
      change (Lookup.start engine former.task session.clock query
        session.world.repository).2 = .paused lookup pause at hpart
      rw [hpart] at hled
      cases hled with
      | paused hfit => exact hfit.present
  | begun state =>
      simp only [hactivity] at h hkept ⊢
      cases state with
      | lookup before =>
          obtain ⟨part, hpart, hstate⟩ := Task.paused_of_step h
          obtain rfl := Task.lookup.inj hstate
          have hentry := Materialization.entry_of_resume engine former.task
            (Lookup.paused_of_ofMaterialization hpart)
          rw [hentry]
          apply hkept
          apply hplaced former (mem_of_activity? hfound) before.materialization
          rw [hactivity]
          rfl
      | _ =>
          obtain ⟨part, -, hstate⟩ := Task.paused_of_step h
          cases hstate

/-- Where a call pauses, it needs the shader of the entry that it named. -/
theorem present_of_materialization (hsound : session.Sound) (hplaced : session.Placed)
    {former : Running β} (hnamed : session.Named (.resume former.task))
    (hfound : session.activity? former.task = some former) {state : Materialization β}
    {pause : Pause}
    (h : (session.advance engine former).2 = .paused (.materialization state) pause) :
    ((session.advance engine former).1.repository.lookup? state.entry).isSome := by
  apply present_advance engine hsound hfound
  unfold advance at h
  cases hactivity : former.activity with
  | planned thread request =>
      simp only [hactivity] at h
      have hstarted := Task.started engine former.task h
      generalize (Task.start engine former.task session.clock thread request session.world).1
        = after at hstarted
      cases hstarted with
      | @materialization provider entry _ _ _ hpart =>
          rw [Materialization.entry_of_start engine former.task hpart]
          exact hnamed former provider entry rfl hfound hactivity
  | begun before =>
      simp only [hactivity] at h
      cases before with
      | materialization before =>
          obtain ⟨part, hpart, hstate⟩ := Task.paused_of_step h
          obtain rfl := Task.materialization.inj hstate
          rw [Materialization.entry_of_resume engine former.task hpart]
          apply hplaced former (mem_of_activity? hfound) before
          rw [hactivity]
          rfl
      | _ =>
          obtain ⟨part, -, hstate⟩ := Task.paused_of_step h
          cases hstate

/-- **A move leaves all tasks at entries that are there.** -/
theorem placed_move (hsound : session.Sound)
    (htidy : Tidy engine session.world.repository session.holds) (hplaced : session.Placed)
    {next : Move} (hnamed : session.Named next)
    (hrepairs : ∀ running ∈ (session.move engine next).running, ∀ run,
      running.activity = .begun (.repair run) →
        run.Fit (session.move engine next).world.repository) :
    (session.move engine next).Placed := by
  intro running hmem state hstate
  rcases mem_running_move hmem with hold | ⟨instant, thread, request, -, hplanned⟩
    | ⟨former, task, hfound, rfl, hbegun, hpaused⟩
  · exact present_move engine hsound (hplaced running hold state hstate) next
  · rw [hplanned] at hstate
    cases hstate
  · have hworld : (session.move engine (.resume former.task)).world.repository
        = (session.advance engine former).1.repository := by
      rw [move_resume hfound, repository_resume]
    rw [hbegun] at hstate
    cases task with
    | webLoad directory load =>
        have hmarker : running.activity.Sound
            (session.move engine (.resume former.task)).world.repository :=
          hsound.move _ running hmem
        rw [hbegun] at hmarker
        cases load with
        | caching materialization rest loads =>
            obtain rfl := Option.some.inj hstate
            exact Repository.IsMarker.isSome_lookup? hmarker
        | _ => cases hstate
    | webWait wait => cases hstate
    | lookup lookup =>
        obtain rfl := Option.some.inj hstate
        rw [hworld]
        exact present_of_lookup hsound htidy hplaced hfound hpaused
    | materialization materialization =>
        obtain rfl := Option.some.inj hstate
        rw [hworld]
        exact present_of_materialization hsound hplaced hnamed hfound hpaused
    | repair run =>
        have hfit := hrepairs running hmem run hbegun
        cases run with
        | waiting job shaders wait => cases hstate
        | lookingUp job shader rest missing lookup =>
            obtain rfl := Option.some.inj hstate
            exact hfit.present

/-- Tasks that are at the cell of an entry need its shader. -/
theorem Placed.present (hplaced : session.Placed) (hnumbered : session.Numbered) {task : TaskId}
    {id : EntryId} (hat : (session.holds task).IsAt id) :
    (session.world.repository.lookup? id).isSome := by
  obtain ⟨running, hmem, -, state, hstate, rfl⟩ := exists_running_of_isAt hnumbered hat
  exact hplaced running hmem state hstate

/-- **A move keeps all cells attended.** -/
theorem regular_move (hsound : session.Sound) (hnumbered : session.Numbered)
    (htidy : Tidy engine session.world.repository session.holds)
    (hregular : Regular session.world.repository session.holds) {next : Move}
    (hplaced : (session.move engine next).Placed) :
    Regular (session.move engine next).world.repository (session.move engine next).holds := by
  constructor
  case placed =>
    intro task id hat
    exact hplaced.present (hnumbered.move next) hat
  intro id hpresent
  have hmoved := session.moved engine next
  generalize session.move engine next = after at hmoved hpresent ⊢
  cases hmoved with
  | plan instant thread request =>
      rw [holds_plan]
      exact hregular.attended hpresent
  | @resume running hfound =>
      have hacts := advance_acts engine (hsound running (mem_of_activity? hfound))
      have hafter := hacts.regularBut (holds_of_activity? hfound) htidy
        ⟨hregular.attended, fun _ => hregular.placed⟩
      rw [repository_resume] at hpresent ⊢
      rw [holds_resume engine hfound]
      exact hafter.attended hpresent
  | @drop running hfound =>
      have hacts := session.drop_acts engine running
      have hafter := hacts.regularBut (holds_of_activity? hfound) htidy
        ⟨hregular.attended, fun _ => hregular.placed⟩
      rw [holds_drop]
      exact hafter.attended hpresent
  | wait duration => exact hregular.attended hpresent
  | idle next => exact hregular.attended hpresent

/-! ### All the time -/

/-- What holds of a session at any time. -/
structure Orderly (engine : Engine σ β) (session : Session σ β) : Prop where
  sound : session.Sound
  numbered : session.Numbered
  patient : session.Patient
  tidy : Tidy engine session.world.repository session.holds
  placed : session.Placed
  regular : Regular session.world.repository session.holds

/-- **A session is orderly all the time**, if whoever asks for the shader of an entry names one
that is there. -/
theorem orderly_upTo (engine : Engine σ β) {world : World σ β} {state : σ}
    (hfresh : world.repository = .fresh state) {schedule : Nat → Move}
    (hnamed : ∀ count, (upTo engine schedule (fresh world) count).Named (schedule count))
    (count : Nat) : (upTo engine schedule (fresh world) count).Orderly engine := by
  induction count with
  | zero =>
      have hnowhere : ∀ task id, ¬ ((fresh world).holds task).IsAt id :=
        fun task id => Hold.not_isAt_nothing id
      refine ⟨sound_fresh world, numbered_fresh world, patient_fresh world,
        tidy_replay engine hfresh [], ?_, ?_, ?_⟩
      · intro running hmem
        exact (List.not_mem_nil hmem).elim
      · intro id hpresent
        change (world.repository.lookup? id).isSome at hpresent
        rw [hfresh] at hpresent
        cases hpresent
      · intro task id hat
        exact absurd hat (hnowhere task id)
  | succ count ih =>
      have hnumbered : (upTo engine schedule (fresh world) (count + 1)).Numbered :=
        numbered_replay engine _ (numbered_fresh world)
      have htidy := tidy_replay engine hfresh ((List.range (count + 1)).map schedule)
      have hmending := mending_replay engine hfresh ((List.range (count + 1)).map schedule)
      change Tidy engine (upTo engine schedule (fresh world) (count + 1)).world.repository
        (upTo engine schedule (fresh world) (count + 1)).holds at htidy
      have hfit : ∀ running ∈ (upTo engine schedule (fresh world) (count + 1)).running, ∀ run,
          running.activity = .begun (.repair run) →
            run.Fit (upTo engine schedule (fresh world) (count + 1)).world.repository :=
        fun running hmem run hactivity =>
          (hmending running.task running run (hnumbered.activity?_of_mem hmem) hactivity).1
      rw [upTo_succ] at hnumbered htidy hfit ⊢
      have hplaced := placed_move ih.sound ih.tidy ih.placed (hnamed count) hfit
      exact ⟨ih.sound.move _, hnumbered, patient_move ih.patient _, htidy, hplaced,
        regular_move ih.sound ih.numbered ih.tidy ih.regular hplaced⟩

end Session

end ShaderMend
