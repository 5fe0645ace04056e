import ShaderMend.Proofs.Session.AtRest

/-!
# The tasks at one cell

At the cell of an entry one task at most loads; it is the holder. Who waits is in line,
unless it is already its turn.

* `Act.atCell` — what an act of a task comes to at the cell of one entry.
* `Act.keeps_attended` — the invariant of that cell: `Cell.Attended`.
* `Act.keeps_stored` — a shader that it stores stays.
-/

namespace ShaderMend

variable {σ β : Type}

/-! ### Cells that tasks attend -/

/-- A cell that is owned by its tasks, and every task that says that it is at the cell is: one
that loads is the holder, and one that waits is in line, unless it is its turn or the cell is
filled. -/
structure Cell.Attended (holds : TaskId → Hold) (entry : EntryId) (cell : Cell) : Prop
    extends Cell.Owned holds entry cell where
  loading : ∀ {task}, holds task = .loading entry → cell.holder = some task
  waiting : ∀ {task}, holds task = .asked entry →
    cell.stored.isSome ∨ cell.holder = some task ∨ task ∈ cell.queue

/-- What a task holds that does not come from the last change was held before. -/
theorem Hold.of_update {holds : TaskId → Hold} {task other : TaskId} {hold wanted : Hold}
    (h : Function.update holds task hold other = wanted) (hnew : hold ≠ wanted) :
    other ≠ task ∧ holds other = wanted := by
  by_cases hother : other = task
  · subst hother
    rw [Function.update_self] at h
    exact absurd h hnew
  · rw [Function.update_of_ne hother] at h
    exact ⟨hother, h⟩

namespace Cell.Attended

variable {holds : TaskId → Hold} {entry : EntryId} {cell : Cell} {task : TaskId}

/-- A filled cell has no holder, so nobody loads for it. -/
theorem not_loading (h : Attended holds entry cell) {shader : Shader}
    (hstored : cell.stored = some shader) : holds task ≠ .loading entry := by
  intro hloading
  have hholder := h.loading hloading
  rw [h.filled hstored] at hholder
  cases hholder

/-- Besides the holder nobody loads. -/
theorem not_loading_of_ne (h : Attended holds entry cell) (hmine : cell.holder = some task)
    {other : TaskId} (hother : other ≠ task) : holds other ≠ .loading entry := by
  intro hloading
  have hheld := h.loading hloading
  rw [hmine] at hheld
  exact hother (Option.some.inj hheld).symm

/-- A task that is not at the cell may come to hold what is not at it either. -/
theorem update (h : Attended holds entry cell)
    (haway : cell.holder ≠ some task ∧ task ∉ cell.queue) {hold : Hold}
    (hnew : ¬ hold.IsAt entry) : Attended (Function.update holds task hold) entry cell where
  toOwned := h.toOwned.update haway hold
  loading hother :=
    h.loading (Hold.of_update hother fun heq => hnew (Or.inr heq)).2
  waiting hother :=
    h.waiting (Hold.of_update hother fun heq => hnew (Or.inl heq)).2

theorem request (h : Attended holds entry cell) (hhold : holds task = .nothing) :
    Attended (Function.update holds task (.ofTurn entry (cell.request task).2)) entry
      (cell.request task).1 := by
  have howned := h.toOwned.request hhold
  cases hstored : cell.stored with
  | some shader =>
      have hnowhere : ¬ (holds task).IsAt entry := hhold ▸ Hold.not_isAt_nothing entry
      have haway := h.not_mem hnowhere
      simp only [Cell.request, hstored]
      exact h.update haway (Hold.not_isAt_nothing entry)
  | none =>
      cases hholder : cell.holder with
      | none =>
          simp only [Cell.request, hstored, hholder, Hold.ofTurn] at howned ⊢
          refine ⟨howned, fun {other} hother => ?_, fun hother => ?_⟩
          · by_cases hmine : other = task
            · rw [hmine]
            · rw [Function.update_of_ne hmine] at hother
              have hheld := h.loading hother
              rw [hholder] at hheld
              cases hheld
          · obtain ⟨-, hother⟩ := Hold.of_update hother (by simp)
            have hplace := h.waiting hother
            simp [hstored, hholder, h.idle hholder] at hplace
      | some owner =>
          simp only [Cell.request, hstored, hholder, Hold.ofTurn] at howned ⊢
          refine ⟨howned, fun hother => ?_, fun {other} hother => ?_⟩
          · obtain ⟨-, hother⟩ := Hold.of_update hother (by simp)
            exact hholder ▸ h.loading hother
          · by_cases hmine : other = task
            · exact Or.inr (Or.inr (by simp [hmine]))
            · rw [Function.update_of_ne hmine] at hother
              rcases h.waiting hother with hplace | hplace | hplace
              · simp [hstored] at hplace
              · exact Or.inr (Or.inl (hholder ▸ hplace))
              · exact Or.inr (Or.inr (List.mem_append_left _ hplace))

theorem turn (h : Attended holds entry cell) (hhold : holds task = .asked entry) :
    Attended (Function.update holds task (.ofTurn entry (cell.turn task))) entry cell := by
  have howned := h.toOwned.turn hhold
  cases hstored : cell.stored with
  | some shader =>
      have hholder := h.filled hstored
      have haway : cell.holder ≠ some task ∧ task ∉ cell.queue := by
        simp [hholder, h.idle hholder]
      simp only [Cell.turn, hstored]
      exact h.update haway (Hold.not_isAt_nothing entry)
  | none =>
      by_cases hmine : cell.holder = some task
      · simp only [Cell.turn, hstored, hmine, ↓reduceIte, Hold.ofTurn] at howned ⊢
        refine ⟨howned, fun {other} hother => ?_, fun hother => ?_⟩
        · by_cases heq : other = task
          · rw [heq, hmine]
          · rw [Function.update_of_ne heq] at hother
            exact h.loading hother
        · exact h.waiting (Hold.of_update hother (by simp)).2
      · simp only [Cell.turn, hstored, hmine, ↓reduceIte, Hold.ofTurn]
        rw [← hhold, Function.update_eq_self]
        exact h

/-- The holder fails or leaves: the next in line holds. -/
theorem fail (h : Attended holds entry cell) (hmine : cell.holder = some task) :
    Attended (Function.update holds task .nothing) entry cell.fail := by
  refine ⟨h.toOwned.fail (h.apart hmine), fun hother => ?_, fun hother => ?_⟩
  · obtain ⟨hne, hother⟩ := Hold.of_update hother (by simp)
    exact absurd hother (h.not_loading_of_ne hmine hne)
  · obtain ⟨hne, hother⟩ := Hold.of_update hother (by simp)
    rcases h.waiting hother with hplace | hplace | hplace
    · exact Or.inl (by rwa [Cell.stored_fail])
    · rw [hmine] at hplace
      exact absurd (Option.some.inj hplace).symm hne
    · right
      cases hqueue : cell.queue with
      | nil => simp [hqueue] at hplace
      | cons next rest =>
          rw [hqueue] at hplace
          simp only [Cell.fail, hqueue]
          rcases List.mem_cons.mp hplace with rfl | hplace
          · exact Or.inl rfl
          · exact Or.inr hplace

theorem fill (h : Attended holds entry cell) (hhold : holds task = .loading entry)
    (shader : Shader) :
    Attended (Function.update holds task .nothing) entry (cell.fill shader) where
  toOwned := Cell.Owned.fill _ entry cell shader
  loading hother := by
    obtain ⟨hne, hother⟩ := Hold.of_update hother (by simp)
    exact absurd hother (h.not_loading_of_ne (h.loading hhold) hne)
  waiting _ := Or.inl rfl

theorem leave (h : Attended holds entry cell) :
    Attended (Function.update holds task .nothing) entry (cell.leave task) := by
  by_cases hmine : cell.holder = some task
  · simp only [Cell.leave, hmine, ↓reduceIte]
    exact h.fail hmine
  · have howned : (cell.leave task).Owned (Function.update holds task .nothing) entry :=
      h.toOwned.leave
    simp only [Cell.leave, hmine, ↓reduceIte] at howned ⊢
    refine ⟨howned, fun hother => ?_, fun hother => ?_⟩
    · exact h.loading (Hold.of_update hother (by simp)).2
    · obtain ⟨hne, hother⟩ := Hold.of_update hother (by simp)
      rcases h.waiting hother with hplace | hplace | hplace
      · exact Or.inl hplace
      · exact Or.inr (Or.inl hplace)
      · exact Or.inr (Or.inr (List.mem_filter.mpr ⟨hplace, by simpa using hne⟩))

theorem store (h : Attended holds entry cell) (shader : Shader) :
    Attended holds entry (cell.store shader).1 := by
  have howned := h.toOwned.store shader
  unfold Cell.store at howned ⊢
  split at howned
  · exact h
  · exact h
  · exact ⟨howned, h.loading, fun _ => Or.inl rfl⟩

end Cell.Attended

/-! ### Acts at a cell -/

/-- What an act of a task comes to at the cell of one entry, and for what the task holds on
to. -/
inductive Cell.Act (task : TaskId) (entry : EntryId) : Cell → Hold → Cell → Hold → Prop where
  | stay {cell hold} : Act task entry cell hold cell hold
  | elsewhere {cell before after} (hbefore : ¬ before.IsAt entry) (hafter : ¬ after.IsAt entry) :
      Act task entry cell before cell after
  | ask {cell} : Act task entry cell .nothing (cell.request task).1
      (.ofTurn entry (cell.request task).2)
  | take {cell} : Act task entry cell (.asked entry) cell (.ofTurn entry (cell.turn task))
  | fail {cell} : Act task entry cell (.loading entry) cell.fail .nothing
  | fill {cell} (shader : Shader) :
      Act task entry cell (.loading entry) (cell.fill shader) .nothing
  | leave {cell hold} (hhold : hold.IsAt entry) :
      Act task entry cell hold (cell.leave task) .nothing
  | store {cell hold} (shader : Shader) : Act task entry cell hold (cell.store shader).1 hold

namespace Repository

/-- An entry stays as it is when an archive is added. -/
theorem lookup?_append {repository : Repository σ β} {id : EntryId}
    (h : (repository.lookup? id).isSome) (contents : Bundle.Contents) (bundle : β) :
    (repository.append contents bundle).lookup? id = repository.lookup? id := by
  obtain ⟨entry, hentry⟩ := Option.isSome_iff_exists.mp h
  obtain ⟨manifest, hmanifest, -⟩ := Option.bind_eq_some_iff.mp hentry
  have hlt := (List.getElem?_eq_some_iff.mp hmanifest).1
  simp only [lookup?, append, List.getElem?_append_left hlt]

end Repository

theorem Hold.not_isAt_ofTurn {entry id : EntryId} (h : id ≠ entry) (turn : Cell.Turn) :
    ¬ (Hold.ofTurn entry turn).IsAt id := by
  cases turn with
  | ready shader => exact Hold.not_isAt_nothing id
  | hold => exact Hold.IsAt.eq_of_ne (Or.inr rfl) h
  | wait => exact Hold.IsAt.eq_of_ne (Or.inl rfl) h

/-- What a change of one cell comes to at the cell of one entry, whatever the engine's state. -/
theorem Cell.Act.of_modifyCell {task : TaskId} {repository : Repository σ β} {id entry : EntryId}
    {change : Cell → Cell} {before after : Hold} (state : σ)
    (h : (repository.lookup? id).isSome)
    (hself : id = entry →
      Cell.Act task id (repository.cell id) before (change (repository.cell id)) after)
    (hother : id ≠ entry →
      Cell.Act task id (repository.cell id) before (repository.cell id) after) :
    ((Repository.modifyCell { repository with engine := state } entry change).lookup? id).isSome ∧
      Cell.Act task id (repository.cell id) before
        ((Repository.modifyCell { repository with engine := state } entry change).cell id)
        after := by
  constructor
  · rwa [Repository.isSome_lookup?_modifyCell]
  · by_cases hid : id = entry
    · subst hid
      rw [Repository.cell_modifyCell_of_engine h state change]
      exact hself rfl
    · rw [Repository.cell_modifyCell_of_ne _ hid]
      exact hother hid

theorem Cell.Act.of_store {task : TaskId} {repository : Repository σ β} {id : EntryId} (state : σ)
    (h : (repository.lookup? id).isSome) (entry : EntryId) (shader : Shader) (hold : Hold) :
    ((Repository.modifyCell { repository with engine := state } entry
        fun cell => (cell.store shader).1).lookup? id).isSome ∧
      Cell.Act task id (repository.cell id) hold
        ((Repository.modifyCell { repository with engine := state } entry
          fun cell => (cell.store shader).1).cell id) hold := by
  apply Cell.Act.of_modifyCell state h
  · intro _
    exact .store shader
  · intro _
    exact .stay

/-- **What an act comes to at the cell of one entry**, which stays an entry. -/
theorem Act.atCell {engine : Engine σ β} {task : TaskId} {before after : Footing σ β}
    (hact : ShaderMend.Act engine task before after) {id : EntryId}
    (h : (before.repository.lookup? id).isSome) :
    (after.repository.lookup? id).isSome ∧
      Cell.Act task id (before.repository.cell id) before.hold (after.repository.cell id)
        after.hold := by
  cases hact with
  | advance hstage => exact ⟨h, .stay⟩
  | completeWeb => exact ⟨h, .stay⟩
  | run hcalled => exact ⟨h, .stay⟩
  | read hparsed =>
      exact ⟨h, .elsewhere (Hold.not_isAt_nothing id) (Hold.not_isAt_read _ id)⟩
  | forget => exact ⟨h, .elsewhere (Hold.not_isAt_read _ id) (Hold.not_isAt_nothing id)⟩
  | reserve hloaded hreserved =>
      exact ⟨h, .elsewhere (Hold.not_isAt_read _ id) (Hold.not_isAt_reserved _ id)⟩
  | @add repository contents added bundle hloaded hreserved =>
      have hkept := Repository.lookup?_append h contents bundle
      refine ⟨hkept ▸ h, ?_⟩
      simp only [Repository.cell, hkept]
      exact .elsewhere (Hold.not_isAt_read _ id) (Hold.not_isAt_nothing id)
  | @addReserved repository contents added bundle =>
      have hkept : ((repository.append contents bundle).release contents.path).lookup? id
          = repository.lookup? id := Repository.lookup?_append h contents bundle
      refine ⟨hkept ▸ h, ?_⟩
      simp only [Repository.cell, hkept]
      exact .elsewhere (Hold.not_isAt_reserved _ id) (Hold.not_isAt_nothing id)
  | release =>
      exact ⟨h, .elsewhere (Hold.not_isAt_reserved _ id) (Hold.not_isAt_nothing id)⟩
  | @ask repository added entry =>
      apply Cell.Act.of_modifyCell repository.engine h
      · rintro rfl
        exact .ask
      · intro hid
        exact .elsewhere (Hold.not_isAt_nothing id) (Hold.not_isAt_ofTurn hid _)
  | @take repository entry added =>
      refine ⟨h, ?_⟩
      by_cases hid : id = entry
      · subst hid
        exact .take
      · exact .elsewhere (Hold.IsAt.eq_of_ne (Or.inl rfl) hid) (Hold.not_isAt_ofTurn hid _)
  | @fail repository entry added =>
      apply Cell.Act.of_modifyCell repository.engine h
      · rintro rfl
        exact .fail
      · intro hid
        exact .elsewhere (Hold.IsAt.eq_of_ne (Or.inr rfl) hid) (Hold.not_isAt_nothing id)
  | @fill repository entry added shader state hdelivers =>
      apply Cell.Act.of_modifyCell state h
      · rintro rfl
        exact .fill shader
      · intro hid
        exact .elsewhere (Hold.IsAt.eq_of_ne (Or.inr rfl) hid) (Hold.not_isAt_nothing id)
  | @leave repository hold entry added hleft =>
      apply Cell.Act.of_modifyCell repository.engine h
      · rintro rfl
        exact .leave hleft
      · intro hid
        exact .elsewhere (Hold.IsAt.eq_of_ne hleft hid) (Hold.not_isAt_nothing id)
  | @store repository hold added entry shader state hdelivers =>
      exact Cell.Act.of_store state h entry shader hold
  | keep hmarker hstored => exact ⟨h, .stay⟩
  | @keepLoaded repository hold entry added shader state hmarker hempty hdelivers =>
      exact Cell.Act.of_store state h entry shader hold

theorem Cell.Act.attended {task : TaskId} {entry : EntryId} {cell after : Cell}
    {before hold : Hold} (hact : Cell.Act task entry cell before after hold)
    {holds : TaskId → Hold} (hhold : holds task = before) (h : cell.Attended holds entry) :
    after.Attended (Function.update holds task hold) entry := by
  cases hact with
  | stay =>
      rw [← hhold, Function.update_eq_self]
      exact h
  | elsewhere hbefore hafter => exact h.update (h.not_mem (hhold ▸ hbefore)) hafter
  | ask => exact h.request hhold
  | take => exact h.turn hhold
  | fail => exact h.fail (h.loading hhold)
  | fill shader => exact h.fill hhold shader
  | leave hleft => exact h.leave
  | store shader =>
      rw [← hhold, Function.update_eq_self]
      exact h.store shader

theorem Cell.Act.stored {task : TaskId} {entry : EntryId} {cell after : Cell}
    {before hold : Hold} (hact : Cell.Act task entry cell before after hold)
    {holds : TaskId → Hold} (hhold : holds task = before) (h : cell.Attended holds entry)
    {shader : Shader} (hstored : cell.stored = some shader) : after.stored = some shader := by
  cases hact with
  | stay => exact hstored
  | elsewhere hbefore hafter => exact hstored
  | ask => rwa [Cell.stored_request]
  | take => exact hstored
  | fail => rwa [Cell.stored_fail]
  | fill other => exact absurd hhold (h.not_loading hstored)
  | leave hleft => rwa [Cell.stored_leave]
  | store other => exact (Cell.stored_store hstored other).1

/-! ### The invariant of an entry -/

/-- An entry that is there, with the tasks at its cell. -/
structure Attended (id : EntryId) (repository : Repository σ β) (holds : TaskId → Hold) : Prop where
  present : (repository.lookup? id).isSome
  cell : (repository.cell id).Attended holds id

/-- **Every act keeps the cell of an entry attended.** -/
theorem Act.keeps_attended (engine : Engine σ β) (id : EntryId) :
    Act.Keeps engine (Attended id) := by
  intro task before after holds hact hhold h
  obtain ⟨hpresent, hcell⟩ := hact.atCell h.present
  exact ⟨hpresent, hcell.attended hhold h.cell⟩

/-- **Every act keeps the shader of an entry.** -/
theorem Act.keeps_stored (engine : Engine σ β) (id : EntryId) (shader : Shader) :
    Act.Keeps engine fun (repository : Repository σ β) holds =>
      Attended id repository holds ∧ (repository.cell id).stored = some shader := by
  intro task before after holds hact hhold ⟨h, hstored⟩
  obtain ⟨hpresent, hcell⟩ := hact.atCell h.present
  exact ⟨⟨hpresent, hcell.attended hhold h.cell⟩, hcell.stored hhold h.cell hstored⟩

/-- Whether an entry is there and no task is at its cell. -/
structure Repository.Free (repository : Repository σ β) (id : EntryId) : Prop where
  present : (repository.lookup? id).isSome
  holder : (repository.cell id).holder = none
  queue : (repository.cell id).queue = []

/-- A cell is attended at which nobody is. -/
theorem Cell.Attended.of_idle {holds : TaskId → Hold} {id : EntryId} {cell : Cell}
    (hholder : cell.holder = none) (hqueue : cell.queue = [])
    (haway : ∀ task, ¬ (holds task).IsAt id) : cell.Attended holds id := by
  refine ⟨⟨fun hheld => ?_, fun hmem => ?_, ?_, fun hheld => ?_, fun _ => hqueue,
    fun _ => hholder⟩, fun hloading => ?_, fun hasked => ?_⟩
  · rw [hholder] at hheld
    cases hheld
  · rw [hqueue] at hmem
    cases hmem
  · rw [hqueue]
    exact List.nodup_nil
  · rw [hholder] at hheld
    cases hheld
  · exact absurd (Or.inr hloading) (haway _)
  · exact absurd (Or.inl hasked) (haway _)

theorem Repository.Free.attended {repository : Repository σ β} {id : EntryId}
    (h : repository.Free id) {holds : TaskId → Hold} (hholds : ∀ task, holds task = .nothing) :
    Attended id repository holds where
  present := h.present
  cell := by
    apply Cell.Attended.of_idle h.holder h.queue
    intro task
    rw [hholds]
    exact Hold.not_isAt_nothing id

end ShaderMend
