import ShaderMend.Proofs.Session.Archives

/-!
# Repositories at rest

Between pieces of work a cell may have a holder and tasks in line. Where no task is under
way there are none, so that a load at once fills the cell.

* `Act.keeps_tidy` — the invariant: who holds a cell or waits for it is a task that says so,
  and shaders come from the engine.
* `Repository.atRest_of_reachable` — what this comes to where nothing is under way.
-/

namespace ShaderMend

variable {σ β : Type}

/-! ### Cells and their tasks -/

/-- Whether a task is at the cell of an entry. -/
def Hold.IsAt (hold : Hold) (entry : EntryId) : Prop :=
  hold = .asked entry ∨ hold = .loading entry

theorem Hold.not_isAt_nothing (id : EntryId) : ¬ Hold.nothing.IsAt id := by
  rintro (h | h) <;> cases h

theorem Hold.not_isAt_read (contents : Bundle.Contents) (id : EntryId) :
    ¬ (Hold.read contents).IsAt id := by
  rintro (h | h) <;> cases h

theorem Hold.not_isAt_reserved (contents : Bundle.Contents) (id : EntryId) :
    ¬ (Hold.reserved contents).IsAt id := by
  rintro (h | h) <;> cases h

theorem Hold.IsAt.eq_of_ne {hold : Hold} {entry id : EntryId} (h : hold.IsAt entry)
    (hne : id ≠ entry) : ¬ hold.IsAt id := by
  rcases h with rfl | rfl
  · rintro (h | h)
    · exact hne (Hold.asked.inj h).symm
    · cases h
  · rintro (h | h)
    · cases h
    · exact hne (Hold.loading.inj h).symm

/-- A cell whose holder and queue are tasks that are at it, each once. It has no holder
once it is filled, and nobody waits where nobody holds. -/
structure Cell.Owned (holds : TaskId → Hold) (entry : EntryId) (cell : Cell) : Prop where
  holder : ∀ {task}, cell.holder = some task → (holds task).IsAt entry
  queue : ∀ {task}, task ∈ cell.queue → holds task = .asked entry
  distinct : cell.queue.Nodup
  apart : ∀ {task}, cell.holder = some task → task ∉ cell.queue
  idle : cell.holder = none → cell.queue = []
  filled : ∀ {shader}, cell.stored = some shader → cell.holder = none

namespace Cell.Owned

variable {holds : TaskId → Hold} {entry : EntryId} {cell : Cell} {task : TaskId}

theorem empty (holds : TaskId → Hold) (entry : EntryId) : Owned holds entry .empty where
  holder h := by cases h
  queue h := by cases h
  distinct := List.nodup_nil
  apart h := by cases h
  idle _ := rfl
  filled h := by cases h

theorem not_mem (h : Owned holds entry cell) (haway : ¬ (holds task).IsAt entry) :
    cell.holder ≠ some task ∧ task ∉ cell.queue :=
  ⟨fun hholder => haway (h.holder hholder), fun hmem => haway (Or.inl (h.queue hmem))⟩

/-- A cell that a task holds has no shader. -/
theorem empty_of_holder (h : Owned holds entry cell) (hholder : cell.holder = some task) :
    cell.stored = none := by
  cases hstored : cell.stored with
  | none => rfl
  | some shader =>
      rw [h.filled hstored] at hholder
      cases hholder

/-- A cell does not mind what a task does that is not at it. -/
theorem update (h : Owned holds entry cell)
    (haway : cell.holder ≠ some task ∧ task ∉ cell.queue) (hold : Hold) :
    Owned (Function.update holds task hold) entry cell where
  holder {other} hholder := by
    have hne : other ≠ task := fun heq => haway.1 (heq ▸ hholder)
    rw [Function.update_of_ne hne]
    exact h.holder hholder
  queue {other} hmem := by
    have hne : other ≠ task := fun heq => haway.2 (heq ▸ hmem)
    rw [Function.update_of_ne hne]
    exact h.queue hmem
  distinct := h.distinct
  apart := h.apart
  idle := h.idle
  filled := h.filled

theorem request (h : Owned holds entry cell) (hhold : holds task = .nothing) :
    Owned (Function.update holds task (.ofTurn entry (cell.request task).2)) entry
      (cell.request task).1 := by
  have hnowhere : ¬ (holds task).IsAt entry := hhold ▸ Hold.not_isAt_nothing entry
  have haway := h.not_mem hnowhere
  cases hstored : cell.stored with
  | some shader =>
      simp only [Cell.request, hstored]
      exact h.update haway _
  | none =>
      cases hholder : cell.holder with
      | none =>
          have hqueue := h.idle hholder
          simp only [Cell.request, hstored, hholder, Hold.ofTurn]
          refine ⟨fun {other} heq => ?_, fun {other} hmem => ?_, h.distinct, fun {other} _ => ?_,
            fun heq => (by cases heq), fun {shader} heq => ?_⟩
          · obtain rfl := Option.some.inj heq
            rw [Function.update_self]
            exact Or.inr rfl
          · rw [hqueue] at hmem
            cases hmem
          · simp [hqueue]
          · cases heq
      | some owner =>
          have hne : owner ≠ task := fun heq => haway.1 (heq ▸ hholder)
          simp only [Cell.request, hstored, hholder, Hold.ofTurn]
          have hkept := h.update haway (.asked entry)
          refine ⟨fun {other} heq => hkept.holder (hholder.trans heq), fun {other} hmem => ?_, ?_,
            fun {other} heq hmem => ?_, fun heq => (by cases heq),
            fun {shader} heq => (by cases heq)⟩
          · rcases List.mem_append.mp hmem with hmem | hmem
            · exact hkept.queue hmem
            · rw [List.mem_singleton.mp hmem, Function.update_self]
          · refine List.nodup_append.mpr ⟨h.distinct, List.nodup_singleton _, ?_⟩
            intro other hmem last hlast heq
            rw [List.mem_singleton.mp hlast] at heq
            exact haway.2 (heq ▸ hmem)
          · rcases List.mem_append.mp hmem with hmem | hmem
            · exact h.apart (hholder.trans heq) hmem
            · obtain rfl := List.mem_singleton.mp hmem
              exact haway.1 (hholder.trans heq)

theorem turn (h : Owned holds entry cell) (hhold : holds task = .asked entry) :
    Owned (Function.update holds task (.ofTurn entry (cell.turn task))) entry cell := by
  cases hstored : cell.stored with
  | some shader =>
      have hholder := h.filled hstored
      have haway : cell.holder ≠ some task ∧ task ∉ cell.queue := by
        simp [hholder, h.idle hholder]
      exact h.update haway _
  | none =>
      by_cases hmine : cell.holder = some task
      · simp only [Cell.turn, hstored, hmine, ↓reduceIte, Hold.ofTurn]
        refine ⟨fun {other} heq => ?_, fun {other} hmem => ?_, h.distinct, h.apart, h.idle,
          h.filled⟩
        · rw [hmine] at heq
          obtain rfl := Option.some.inj heq
          rw [Function.update_self]
          exact Or.inr rfl
        · have hne : other ≠ task := fun heq => h.apart hmine (heq ▸ hmem)
          rw [Function.update_of_ne hne]
          exact h.queue hmem
      · simp only [Cell.turn, hstored, hmine, ↓reduceIte, Hold.ofTurn]
        rw [← hhold, Function.update_eq_self]
        exact h

theorem fail (h : Owned holds entry cell) (haway : task ∉ cell.queue) :
    Owned (Function.update holds task .nothing) entry cell.fail := by
  cases hqueue : cell.queue with
  | nil =>
      simp only [Cell.fail, hqueue]
      exact ⟨fun heq => (by cases heq), fun hmem => (by cases hmem), List.nodup_nil,
        fun heq => (by cases heq), fun _ => rfl, fun _ => rfl⟩
  | cons next rest =>
      have hdistinct := h.distinct
      rw [hqueue] at hdistinct haway
      have hheld : cell.holder ≠ none := fun hnone => by simp [h.idle hnone] at hqueue
      have hasked : ∀ other ∈ next :: rest,
          Function.update holds task .nothing other = .asked entry := by
        intro other hmem
        have hne : other ≠ task := fun heq => haway (heq ▸ hmem)
        rw [Function.update_of_ne hne]
        exact h.queue (hqueue ▸ hmem)
      simp only [Cell.fail, hqueue]
      refine ⟨fun {other} heq => ?_, fun {other} hmem => ?_, (List.nodup_cons.mp hdistinct).2,
        fun {other} heq => ?_, fun heq => (by cases heq), fun {shader} heq => ?_⟩
      · obtain rfl := Option.some.inj heq
        exact Or.inl (hasked _ List.mem_cons_self)
      · exact hasked other (List.mem_cons_of_mem _ hmem)
      · obtain rfl := Option.some.inj heq
        exact (List.nodup_cons.mp hdistinct).1
      · exact absurd (h.filled heq) hheld

theorem fill (holds : TaskId → Hold) (entry : EntryId) (cell : Cell) (shader : Shader) :
    Owned holds entry (cell.fill shader) where
  holder h := by cases h
  queue h := by cases h
  distinct := List.nodup_nil
  apart h := by cases h
  idle _ := rfl
  filled _ := rfl

theorem leave (h : Owned holds entry cell) :
    Owned (Function.update holds task .nothing) entry (cell.leave task) := by
  unfold Cell.leave
  by_cases hmine : cell.holder = some task
  · rw [if_pos hmine]
    exact h.fail (h.apart hmine)
  · rw [if_neg hmine]
    have hrest : Owned holds entry { cell with queue := cell.queue.filter (· ≠ task) } := by
      refine ⟨h.holder, fun {other} hmem => h.queue (List.mem_filter.mp hmem).1,
        h.distinct.filter _, fun {other} heq hmem => h.apart heq (List.mem_filter.mp hmem).1,
        fun hnone => ?_, h.filled⟩
      simp [h.idle hnone]
    exact hrest.update ⟨hmine, by simp⟩ _

theorem store (h : Owned holds entry cell) (shader : Shader) :
    Owned holds entry (cell.store shader).1 := by
  unfold Cell.store
  split
  · exact h
  · exact h
  · rename_i hholder
    exact ⟨h.holder, h.queue, h.distinct, h.apart, h.idle, fun _ => hholder⟩

end Cell.Owned

theorem Cell.stored_leave (cell : Cell) (task : TaskId) :
    (cell.leave task).stored = cell.stored := by
  unfold leave
  split
  · exact stored_fail cell
  · rfl

theorem Cell.stored_of_store {cell : Cell} {shader other : Shader}
    (h : (cell.store shader).1.stored = some other) :
    cell.stored = some other ∨ other = shader := by
  unfold store at h
  split at h
  · exact Or.inl h
  · exact Or.inl h
  · exact Or.inr (Option.some.inj h).symm

/-! ### The invariant -/

namespace Repository

/-- The cell of an entry that is not there yet is empty, and so is that of a new one. -/
theorem cell_append {repository : Repository σ β} {contents : Bundle.Contents}
    (h : Entry.Parsed contents.entries) (bundle : β) (id : EntryId) :
    (repository.append contents bundle).cell id = repository.cell id := by
  simp only [cell, lookup?, append, List.getElem?_append]
  by_cases hold : id.manifest < repository.manifests.length
  · rw [if_pos hold]
  · rw [if_neg hold, List.getElem?_eq_none (Nat.le_of_not_lt hold)]
    by_cases hnew : id.manifest - repository.manifests.length = 0
    · simp only [hnew, List.getElem?_cons_zero, Option.bind_some, Option.bind_none,
        Option.map_none, Option.getD_none, Manifest.lookup?, Catalogue.find?]
      cases hfound : contents.entries.find? fun entry => entry.assetPath == id.assetPath with
      | none => rfl
      | some entry => exact h.unfilled entry (List.mem_of_find?_eq_some hfound)
    · simp [hnew]

/-- What holds of all cells holds of them after one was changed. -/
theorem cells_modifyCell {P : EntryId → Cell → Prop} {repository : Repository σ β} {id : EntryId}
    {change : Cell → Cell} (hothers : ∀ other, other ≠ id → P other (repository.cell other))
    (hchanged : P id (change (repository.cell id))) (hempty : P id .empty) (other : EntryId) :
    P other ((repository.modifyCell id change).cell other) := by
  by_cases h : other = id
  · subst h
    cases hfound : repository.lookup? other with
    | none =>
        rw [cell_modifyCell_of_none hfound]
        simpa [cell, hfound] using hempty
    | some entry =>
        rw [cell_modifyCell_self hfound]
        exact hchanged
  · rw [cell_modifyCell_of_ne _ h]
    exact hothers other h

end Repository

/-- What is true of a repository and its tasks at any moment: archives that were read and
manifests are in order, manifests have their bundles, cells are owned by the tasks that are
at them, and shaders come from the engine. -/
structure Tidy (engine : Engine σ β) (repository : Repository σ β) (holds : TaskId → Hold) :
    Prop where
  parsed : ∀ {task contents}, holds task = .read contents ∨ holds task = .reserved contents →
    Entry.Parsed contents.entries
  bound : ∀ manifest ∈ repository.declared, manifest.bundle.isSome
  ascending : ∀ manifest ∈ repository.declared,
    Catalogue.Ascending Entry.assetPath manifest.entries
  owned : ∀ id, (repository.cell id).Owned holds id
  made : ∀ {id shader}, (repository.cell id).stored = some shader → engine.Makes shader
  invalid : ∀ {shader}, repository.invalid = some shader → engine.Makes shader

namespace Tidy

variable {engine : Engine σ β} {repository : Repository σ β} {holds : TaskId → Hold}
  {task : TaskId}

theorem initial (engine : Engine σ β) (start : σ) {holds : TaskId → Hold}
    (h : ∀ task, holds task = .nothing) : Tidy engine (.fresh start) holds where
  parsed {task _} htask := by
    rw [h task] at htask
    rcases htask with htask | htask <;> cases htask
  bound _ hmem := by cases hmem
  ascending _ hmem := by cases hmem
  owned id := Cell.Owned.empty holds id
  made hstored := by cases hstored
  invalid hinvalid := by cases hinvalid

/-- Only the manifests and the cached shader of a repository matter. -/
theorem congr (h : Tidy engine repository holds) {other : Repository σ β}
    (hmanifests : other.manifests = repository.manifests)
    (hinvalid : other.invalid = repository.invalid) : Tidy engine other holds := by
  have hdeclared : other.declared = repository.declared := by
    simp only [Repository.declared, hmanifests]
  have hcell : ∀ id, other.cell id = repository.cell id := by
    intro id
    simp only [Repository.cell, Repository.lookup?, hmanifests]
  constructor
  case parsed => exact h.parsed
  case bound => exact hdeclared ▸ h.bound
  case ascending => exact hdeclared ▸ h.ascending
  case owned => exact fun id => hcell id ▸ h.owned id
  case made => exact fun {id _} hstored => h.made (hcell id ▸ hstored)
  case invalid => exact fun {_} hcached => h.invalid (hinvalid ▸ hcached)

theorem parsed_update (h : Tidy engine repository holds) {hold : Hold}
    (hparsed : ∀ contents, hold = .read contents ∨ hold = .reserved contents →
      Entry.Parsed contents.entries) {other : TaskId} {contents : Bundle.Contents}
    (hother : Function.update holds task hold other = .read contents ∨
      Function.update holds task hold other = .reserved contents) :
    Entry.Parsed contents.entries := by
  by_cases hne : other = task
  · subst hne
    rw [Function.update_self] at hother
    exact hparsed contents hother
  · rw [Function.update_of_ne hne] at hother
    exact h.parsed hother

theorem parsed_ofTurn {entry : EntryId} {turn : Cell.Turn} (contents : Bundle.Contents)
    (h : Hold.ofTurn entry turn = .read contents ∨ Hold.ofTurn entry turn = .reserved contents) :
    Entry.Parsed contents.entries := by
  cases turn <;> rcases h with h | h <;> cases h

theorem parsed_nothing (contents : Bundle.Contents)
    (h : Hold.nothing = .read contents ∨ Hold.nothing = .reserved contents) :
    Entry.Parsed contents.entries := by
  rcases h with h | h <;> cases h

/-- A task that is at no cell may come to hold what is at no cell. -/
theorem update (h : Tidy engine repository holds) (haway : ∀ id, ¬ (holds task).IsAt id)
    {hold : Hold} (hparsed : ∀ contents, hold = .read contents ∨ hold = .reserved contents →
      Entry.Parsed contents.entries) :
    Tidy engine repository (Function.update holds task hold) where
  parsed := h.parsed_update hparsed
  bound := h.bound
  ascending := h.ascending
  owned id := (h.owned id).update ((h.owned id).not_mem (haway id)) hold
  made := h.made
  invalid := h.invalid

theorem append (h : Tidy engine repository holds) {contents : Bundle.Contents} (bundle : β)
    (hparsed : Entry.Parsed contents.entries) :
    Tidy engine (repository.append contents bundle) holds := by
  have hdeclared : ∀ manifest ∈ (repository.append contents bundle).declared,
      manifest ∈ repository.declared ∨
        manifest = Manifest.unfilled ⟨contents.path, some bundle, contents.entries⟩ := by
    intro manifest hmem
    simpa [Repository.declared, Repository.append] using hmem
  refine ⟨h.parsed, fun manifest hmem => ?_, fun manifest hmem => ?_, fun id => ?_,
    fun {id shader} hstored => ?_, h.invalid⟩
  · rcases hdeclared manifest hmem with hmem | rfl
    · exact h.bound manifest hmem
    · rfl
  · rcases hdeclared manifest hmem with hmem | rfl
    · exact h.ascending manifest hmem
    · exact List.pairwise_map.mpr hparsed.ascending
  · rw [Repository.cell_append hparsed]
    exact h.owned id
  · rw [Repository.cell_append hparsed] at hstored
    exact h.made hstored

/-- The cell of an entry is changed, and what tasks hold with it. -/
theorem change (h : Tidy engine repository holds) {holds' : TaskId → Hold} (entry : EntryId)
    (change : Cell → Cell)
    (hparsed : ∀ {task contents}, holds' task = .read contents ∨ holds' task = .reserved contents →
      Entry.Parsed contents.entries)
    (hothers : ∀ id, id ≠ entry → (repository.cell id).Owned holds' id)
    (howned : (change (repository.cell entry)).Owned holds' entry)
    (hstored : ∀ shader, (change (repository.cell entry)).stored = some shader →
      engine.Makes shader) :
    Tidy engine (repository.modifyCell entry change) holds' where
  parsed := hparsed
  bound := by
    rw [Repository.declared_modifyCell]
    exact h.bound
  ascending := by
    rw [Repository.declared_modifyCell]
    exact h.ascending
  owned := Repository.cells_modifyCell hothers howned (Cell.Owned.empty _ _)
  made {id shader} := Repository.cells_modifyCell
    (P := fun _ cell => cell.stored = some shader → engine.Makes shader)
    (fun other _ => h.made) (hstored shader) (fun hempty => by cases hempty) id
  invalid := h.invalid

/-- The cell of an entry is changed by the task that is at it, or at no cell. -/
theorem modifyCell (h : Tidy engine repository holds) (entry : EntryId) (change : Cell → Cell)
    {hold : Hold} (haway : ∀ id, id ≠ entry → ¬ (holds task).IsAt id)
    (hparsed : ∀ contents, hold = .read contents ∨ hold = .reserved contents →
      Entry.Parsed contents.entries)
    (howned : (change (repository.cell entry)).Owned (Function.update holds task hold) entry)
    (hstored : ∀ shader, (change (repository.cell entry)).stored = some shader →
      engine.Makes shader) :
    Tidy engine (repository.modifyCell entry change) (Function.update holds task hold) :=
  h.change entry change (h.parsed_update hparsed)
    (fun id hid => (h.owned id).update ((h.owned id).not_mem (haway id hid)) hold) howned hstored

/-- A task that held an archive at most may let go of it. -/
theorem letGo (h : Tidy engine repository holds) (haway : ∀ id, ¬ (holds task).IsAt id) :
    Tidy engine repository (Function.update holds task .nothing) :=
  h.update haway parsed_nothing

/-- A task that holds nothing asks for the shader of an entry. -/
theorem request (h : Tidy engine repository holds) (hhold : holds task = .nothing)
    (entry : EntryId) :
    Tidy engine (repository.modifyCell entry fun cell => (cell.request task).1)
      (Function.update holds task (.ofTurn entry ((repository.cell entry).request task).2)) := by
  refine h.modifyCell entry (fun cell => (cell.request task).1) (fun id _ => ?_) parsed_ofTurn
    ((h.owned entry).request hhold) fun shader hstored => ?_
  · rw [hhold]
    exact Hold.not_isAt_nothing id
  · rw [Cell.stored_request] at hstored
    exact h.made hstored

/-- A task that waits for an entry takes its turn, if that has come. -/
theorem turn (h : Tidy engine repository holds) {entry : EntryId}
    (hhold : holds task = .asked entry) :
    Tidy engine repository
      (Function.update holds task (.ofTurn entry ((repository.cell entry).turn task))) where
  parsed := h.parsed_update parsed_ofTurn
  bound := h.bound
  ascending := h.ascending
  owned id := by
    by_cases hid : id = entry
    · subst hid
      exact (h.owned id).turn hhold
    · have hnot : ¬ (holds task).IsAt id := by
        rw [hhold]
        exact Hold.IsAt.eq_of_ne (Or.inl rfl) hid
      exact (h.owned id).update ((h.owned id).not_mem hnot) _
  made := h.made
  invalid := h.invalid

/-- A task that is at an entry's cell goes away from it, and changes the cell as it goes. -/
theorem depart (h : Tidy engine repository holds) {entry : EntryId} (change : Cell → Cell)
    (hhold : holds task = .asked entry ∨ holds task = .loading entry)
    (howned : (change (repository.cell entry)).Owned (Function.update holds task .nothing) entry)
    (hstored : ∀ shader, (change (repository.cell entry)).stored = some shader →
      engine.Makes shader) :
    Tidy engine (repository.modifyCell entry change) (Function.update holds task .nothing) :=
  h.modifyCell entry change (fun _ hid => Hold.IsAt.eq_of_ne hhold hid) parsed_nothing howned
    hstored

theorem fail (h : Tidy engine repository holds) {entry : EntryId}
    (hhold : holds task = .loading entry) :
    Tidy engine (repository.modifyCell entry Cell.fail)
      (Function.update holds task .nothing) := by
  have hqueue : task ∉ (repository.cell entry).queue := by
    intro hmem
    have hasked := (h.owned entry).queue hmem
    rw [hhold] at hasked
    cases hasked
  refine h.depart Cell.fail (Or.inr hhold) ((h.owned entry).fail hqueue) fun shader hstored => ?_
  rw [Cell.stored_fail] at hstored
  exact h.made hstored

theorem fill (h : Tidy engine repository holds) {entry : EntryId} {shader : Shader} {state : σ}
    (hhold : holds task = .loading entry)
    (hdelivers : engine.Delivers repository.engine shader state) :
    Tidy engine (Repository.modifyCell { repository with engine := state } entry (·.fill shader))
      (Function.update holds task .nothing) := by
  have hcalled : Tidy engine { repository with engine := state } holds := h.congr rfl rfl
  refine hcalled.depart (·.fill shader) (Or.inr hhold) (Cell.Owned.fill _ _ _ _)
    fun other hstored => ?_
  exact Option.some.inj hstored ▸ hdelivers.makes

theorem leave (h : Tidy engine repository holds) {entry : EntryId}
    (hhold : holds task = .asked entry ∨ holds task = .loading entry) :
    Tidy engine (repository.modifyCell entry (·.leave task))
      (Function.update holds task .nothing) := by
  refine h.depart (·.leave task) hhold (h.owned entry).leave fun shader hstored => ?_
  rw [Cell.stored_leave] at hstored
  exact h.made hstored

/-- What the engine delivers is stored where nobody holds the cell. -/
theorem store (h : Tidy engine repository holds) (entry : EntryId) {shader : Shader} {state : σ}
    (hdelivers : engine.Delivers repository.engine shader state) :
    Tidy engine (Repository.modifyCell { repository with engine := state } entry
      fun cell => (cell.store shader).1) holds := by
  have hcalled : Tidy engine { repository with engine := state } holds := h.congr rfl rfl
  refine hcalled.change entry (fun cell => (cell.store shader).1) h.parsed
    (fun id _ => h.owned id) ?_ fun other hstored => ?_
  · exact (h.owned entry).store shader
  · rcases Cell.stored_of_store hstored with hstored | rfl
    · exact h.made hstored
    · exact hdelivers.makes

theorem keepInvalid (h : Tidy engine repository holds) {shader : Shader}
    (hmade : engine.Makes shader) : Tidy engine (repository.keepInvalid shader) holds where
  parsed := h.parsed
  bound := h.bound
  ascending := h.ascending
  owned := h.owned
  made := h.made
  invalid {other} hkept := by
    have hother : repository.invalid.getD shader = other := Option.some.inj hkept
    cases hinvalid : repository.invalid with
    | none =>
        rw [hinvalid] at hother
        exact hother ▸ hmade
    | some first =>
        rw [hinvalid] at hother
        exact h.invalid (hinvalid.trans (congrArg some hother))

end Tidy

/-- **Every act keeps a repository tidy.** -/
theorem Act.keeps_tidy (engine : Engine σ β) : Act.Keeps engine (Tidy engine) := by
  intro task before after holds hact hhold h
  -- The acts that leave alone what the task holds.
  have hsame : ∀ {repository : Repository σ β}, Tidy engine repository holds →
      Tidy engine repository (Function.update holds task before.hold) := by
    intro repository htidy
    rw [← hhold, Function.update_eq_self]
    exact htidy
  -- A task that holds nothing, or an archive, is at no cell.
  have haway : (∀ id, ¬ before.hold.IsAt id) → ∀ id, ¬ (holds task).IsAt id := by
    intro hnot id
    rw [hhold]
    exact hnot id
  cases hact with
  | advance hstage => exact hsame (h.congr rfl rfl)
  | completeWeb => exact hsame (h.congr rfl rfl)
  | run hcalled => exact hsame (h.congr rfl rfl)
  | read hparsed =>
      refine h.update (haway Hold.not_isAt_nothing) ?_
      rintro contents (heq | heq)
      · exact Hold.read.inj heq ▸ hparsed
      · cases heq
  | @forget repository contents added => exact h.letGo (haway (Hold.not_isAt_read contents))
  | @reserve repository contents added hloaded hreserved =>
      have hparsed := h.parsed (Or.inl hhold)
      have hafter : Tidy engine repository (Function.update holds task (.reserved contents)) := by
        refine h.update (haway (Hold.not_isAt_read contents)) ?_
        rintro other (heq | heq)
        · cases heq
        · exact Hold.reserved.inj heq ▸ hparsed
      exact hafter.congr rfl rfl
  | @add repository contents added bundle hloaded hreserved =>
      have hadded := h.append bundle (h.parsed (Or.inl hhold))
      exact hadded.letGo (haway (Hold.not_isAt_read contents))
  | @addReserved repository contents added bundle =>
      have hadded := h.append bundle (h.parsed (Or.inr hhold))
      exact (hadded.letGo (haway (Hold.not_isAt_reserved contents))).congr rfl rfl
  | @release repository contents added =>
      exact (h.letGo (haway (Hold.not_isAt_reserved contents))).congr rfl rfl
  | ask entry => exact h.request hhold entry
  | take => exact h.turn hhold
  | fail => exact h.fail hhold
  | fill hdelivers => exact h.fill hhold hdelivers
  | leave hleft => exact h.leave (hhold ▸ hleft)
  | store entry hdelivers => exact hsame (h.store entry hdelivers)
  | keep hmarker hstored => exact hsame (h.keepInvalid (h.made hstored))
  | keepLoaded hmarker hempty hdelivers =>
      exact hsame ((h.store _ hdelivers).keepInvalid hdelivers.makes)

/-! ### Where nothing is under way -/

/-- A repository at rest: manifests have their bundles and list their entries in order,
nobody is at a cell, and shaders come from the engine. -/
structure Repository.AtRest (engine : Engine σ β) (repository : Repository σ β) : Prop where
  bound : ∀ manifest ∈ repository.manifests, manifest.bundle.isSome
  ascending : ∀ manifest ∈ repository.manifests,
    Catalogue.Ascending Entry.assetPath manifest.entries
  idle : ∀ id, (repository.cell id).holder = none ∧ (repository.cell id).queue = []
  made : ∀ {id shader}, (repository.cell id).stored = some shader → engine.Makes shader
  invalid : ∀ {shader}, repository.invalid = some shader → engine.Makes shader

/-- Whether no task of the session is under way. Requests may be planned. -/
def Session.Quiet (session : Session σ β) : Prop :=
  ∀ running ∈ session.running, ∃ thread request, running.activity = .planned thread request

/-- Whether a session over a new repository can come to have the repository, and no task
under way. -/
def Repository.Reachable (engine : Engine σ β) (repository : Repository σ β) : Prop :=
  ∃ (world : World σ β) (moves : List Session.Move),
    (∃ start, world.repository = .fresh start) ∧
    (Session.replay engine moves (.fresh world)).Quiet ∧
    (Session.replay engine moves (.fresh world)).world.repository = repository

theorem Session.Quiet.holds {session : Session σ β} (h : session.Quiet) (task : TaskId) :
    session.holds task = .nothing := by
  cases hfound : session.activity? task with
  | none => simp [Session.holds, hfound]
  | some running =>
      obtain ⟨thread, request, hplanned⟩ := h running (mem_of_activity? hfound)
      rw [holds_of_activity? hfound, hplanned]
      rfl

theorem Tidy.atRest {engine : Engine σ β} {repository : Repository σ β} {holds : TaskId → Hold}
    (h : Tidy engine repository holds) (hholds : ∀ task, holds task = .nothing) :
    repository.AtRest engine := by
  have haway : ∀ task id, ¬ (holds task).IsAt id := by
    intro task id
    rw [hholds]
    exact Hold.not_isAt_nothing id
  refine ⟨fun manifest hmem => ?_, fun manifest hmem => ?_, fun id => ?_, h.made, h.invalid⟩
  · exact h.bound manifest.unfilled (List.mem_map_of_mem hmem)
  · have hascending := h.ascending manifest.unfilled (List.mem_map_of_mem hmem)
    simpa [Manifest.unfilled, Catalogue.Ascending, List.pairwise_map, Entry.modifyCell]
      using hascending
  · have hholder : (repository.cell id).holder = none := by
      cases hheld : (repository.cell id).holder with
      | none => rfl
      | some task => exact absurd ((h.owned id).holder hheld) (haway task id)
    exact ⟨hholder, (h.owned id).idle hholder⟩

/-- **Where no task is under way, a repository is at rest.** -/
theorem Repository.atRest_of_reachable {engine : Engine σ β} {repository : Repository σ β}
    (h : repository.Reachable engine) : repository.AtRest engine := by
  obtain ⟨world, moves, ⟨start, hstart⟩, hquiet, rfl⟩ := h
  have hinitial : Tidy engine (Session.fresh world).world.repository
      (Session.fresh world).holds := by
    show Tidy engine world.repository _
    rw [hstart]
    exact Tidy.initial engine start fun _ => rfl
  have htidy := Session.replay_keeps (Act.keeps_tidy engine) moves (Session.sound_fresh world)
    hinitial
  exact htidy.atRest hquiet.holds

theorem Session.reachable_sample : sampleRepository.Reachable sampleEngine := by
  refine ⟨sampleWorld, sampleMoves, ⟨⟨0, 0⟩, rfl⟩, ?_, ?_⟩
  · rw [replay_sample]
    intro running hmem
    cases hmem
  · rw [replay_sample]
    rfl

end ShaderMend
