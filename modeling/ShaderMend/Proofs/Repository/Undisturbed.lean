import ShaderMend.Proofs.Repository.Searches
import ShaderMend.Proofs.Session.Alone

/-!
# Loads that nothing disturbs

A load that does not block asks for the cell of its entry, holds it while the engine loads, and
fills it or gives it up. In a repository at rest nobody else is at the cell, and nothing of this
can be told from a load at once.

* `Ordered.modifyCell_congr` — only what a change does to the cell that is there matters.
* `AtRest.comes_start` — a load that does not block comes to what the load at once comes to.
* `AtRest.comes_lookup` — so does a search.
-/

namespace ShaderMend

variable {σ β : Type}

namespace Repository

/-! ### Changes of a cell -/

section Changes

variable {repository : Repository σ β} {id : EntryId}

/-- **Only the cell that is there matters**, since no manifest lists an asset twice. -/
theorem Ordered.modifyCell_congr (h : repository.Ordered) (first second : Cell → Cell)
    (hsame : first (repository.cell id) = second (repository.cell id)) :
    repository.modifyCell id first = repository.modifyCell id second := by
  have hmanifest : ∀ manifest, repository.manifests[id.manifest]? = some manifest →
      manifest.modifyEntry id.assetPath (·.modifyCell first)
        = manifest.modifyEntry id.assetPath (·.modifyCell second) := by
    intro manifest hmanifest
    have hascending := h manifest (List.mem_of_getElem? hmanifest)
    simp only [Manifest.modifyEntry, Manifest.mk.injEq, true_and]
    refine List.map_congr_left fun entry hmem => ?_
    by_cases hpath : entry.assetPath = id.assetPath
    · have hlookup : repository.lookup? id = some entry := by
        rw [lookup?, hmanifest]
        exact (Catalogue.find?_eq_some_iff hascending).mpr ⟨hmem, hpath⟩
      rw [cell_of_lookup? hlookup] at hsame
      simp only [if_pos hpath, Entry.modifyCell, hsame]
    · simp only [if_neg hpath]
  have hmanifests : repository.manifests.modify id.manifest
        (·.modifyEntry id.assetPath (·.modifyCell first))
      = repository.manifests.modify id.manifest
        (·.modifyEntry id.assetPath (·.modifyCell second)) := by
    apply List.ext_getElem?
    intro index
    simp only [List.getElem?_modify]
    by_cases hindex : id.manifest = index
    · subst hindex
      cases hfound : repository.manifests[id.manifest]? with
      | none => rfl
      | some manifest => simpa using hmanifest manifest hfound
    · simp only [hindex, ↓reduceIte]
  exact congrArg (fun manifests => { repository with manifests }) hmanifests

theorem modifyCell_id (repository : Repository σ β) (id : EntryId) :
    (repository.modifyCell id fun cell => cell) = repository := by
  have hmanifest : ∀ manifest : Manifest β,
      manifest.modifyEntry id.assetPath (·.modifyCell fun cell => cell) = manifest := by
    intro manifest
    simp [Manifest.modifyEntry, Entry.modifyCell]
  have hmanifests : repository.manifests.modify id.manifest
      (·.modifyEntry id.assetPath (·.modifyCell fun cell => cell)) = repository.manifests := by
    apply List.ext_getElem?
    intro index
    simp [List.getElem?_modify, hmanifest]
  exact congrArg (fun manifests => { repository with manifests }) hmanifests

/-- A change that leaves the cell that is there as it is. -/
theorem Ordered.modifyCell_eq_self (h : repository.Ordered) (change : Cell → Cell)
    (hsame : change (repository.cell id) = repository.cell id) :
    repository.modifyCell id change = repository :=
  (h.modifyCell_congr change _ hsame).trans (repository.modifyCell_id id)

/-- One change after the other, whatever state the engine comes to in between. -/
theorem modifyCell_modifyCell (repository : Repository σ β) (id : EntryId)
    (first second : Cell → Cell) (state : σ) :
    modifyCell { repository.modifyCell id first with engine := state } id second
      = modifyCell { repository with engine := state } id fun cell => second (first cell) := by
  have hmanifest : ∀ manifest : Manifest β,
      (manifest.modifyEntry id.assetPath (·.modifyCell first)).modifyEntry id.assetPath
          (·.modifyCell second)
        = manifest.modifyEntry id.assetPath (·.modifyCell fun cell => second (first cell)) := by
    intro manifest
    simp only [Manifest.modifyEntry, List.map_map, Manifest.mk.injEq, true_and]
    refine List.map_congr_left fun entry _ => ?_
    by_cases hpath : entry.assetPath = id.assetPath <;> simp [hpath, Entry.modifyCell]
  have hmanifests : (repository.manifests.modify id.manifest
        (·.modifyEntry id.assetPath (·.modifyCell first))).modify id.manifest
          (·.modifyEntry id.assetPath (·.modifyCell second))
      = repository.manifests.modify id.manifest
        (·.modifyEntry id.assetPath (·.modifyCell fun cell => second (first cell))) := by
    rw [List.modify_modify_eq]
    congr 1
    funext manifest
    exact hmanifest manifest
  exact congrArg (fun manifests => { repository with engine := state, manifests }) hmanifests

end Changes

/-! ### Loads -/

variable {engine : Engine σ β} {repository : Repository σ β}

/-- What a task at a repository at rest does and completes leaves it at rest. -/
theorem AtRest.of_acts (h : repository.AtRest engine) {after : Repository σ β}
    {before added : Nat} {task : TaskId}
    (hacts : Acts engine task ⟨repository, .nothing, before⟩ ⟨after, .nothing, added⟩) :
    after.AtRest engine := by
  have htidy := hacts.keeps (Act.keeps_tidy engine) rfl h.tidy
  refine htidy.atRest fun other => ?_
  by_cases hother : other = task
  · rw [hother, Function.update_self]
  · rw [Function.update_of_ne hother]

/-- Nobody is at a cell. -/
theorem AtRest.cell_eq (h : repository.AtRest engine) (id : EntryId) :
    repository.cell id = ⟨(repository.cell id).stored, none, []⟩ := by
  obtain ⟨hholder, hqueue⟩ := h.idle id
  cases hcell : repository.cell id with
  | mk stored holder queue =>
      rw [hcell] at hholder hqueue
      obtain rfl : holder = none := hholder
      obtain rfl : queue = [] := hqueue
      rfl

/-- A task that asks for a shader that is there has it. -/
theorem AtRest.start_of_stored (h : repository.AtRest engine) {id : EntryId} {shader : Shader}
    (hstored : (repository.cell id).stored = some shader) (task : TaskId) (now : Nat)
    (source : Source β) :
    Materialization.start engine task now source id repository
      = (repository, .done (.ok shader)) := by
  have hcell := h.cell_eq id
  rw [hstored] at hcell
  have hsame : ((repository.cell id).request task).1 = repository.cell id := by
    rw [hcell]
    rfl
  have hback := h.ordered.modifyCell_eq_self (fun cell => (cell.request task).1) hsame
  have hturn : ((repository.cell id).request task).2 = .ready shader := by
    rw [hcell]
    rfl
  simp only [Materialization.start, hback, hturn, Materialization.proceed]

/-- A task whose turn it is, and which has no bundle to load from, leaves nothing behind. -/
theorem AtRest.start_of_unbound (h : repository.AtRest engine) {id : EntryId}
    {source : Source β} (hstored : (repository.cell id).stored = none)
    (hbundle : source.bundle = none) (task : TaskId) (now : Nat) :
    Materialization.start engine task now source id repository
      = (repository, .done (.error (.bundleNotLoaded source.archive))) := by
  have hcell := h.cell_eq id
  rw [hstored] at hcell
  have hturn : ((repository.cell id).request task).2 = .hold := by
    rw [hcell]
    rfl
  have hsame : ((repository.cell id).request task).1.fail = repository.cell id := by
    rw [hcell]
    rfl
  have hback := (repository.modifyCell_modifyCell id (fun cell => (cell.request task).1)
    Cell.fail repository.engine).trans (h.ordered.modifyCell_eq_self
      (fun cell => (cell.request task).1.fail) hsame)
  simp only [Materialization.start, hturn, Materialization.proceed, hbundle]
  exact congrArg (·, _) hback

/-- What the holder of a cell comes to is what the load at once comes to. -/
theorem AtRest.resume_of_asked (h : repository.AtRest engine) {id : EntryId} {source : Source β}
    {bundle : β} (hstored : (repository.cell id).stored = none)
    (hbundle : source.bundle = some bundle) (task : TaskId) (now : Nat) :
    Materialization.resume engine task now
        (repository.modifyCell id fun cell => (cell.request task).1)
        (.loading source.archive bundle id)
      = ((repository.materialize engine source id).1,
         .done (repository.materialize engine source id).2) := by
  have hcell := h.cell_eq id
  rw [hstored] at hcell
  have hengine : (repository.modifyCell id fun cell => (cell.request task).1).engine
      = repository.engine := rfl
  cases hload : engine.loadShader repository.engine bundle id.assetPath with
  | mk state loaded =>
      have hordered : Ordered { repository with engine := state } := h.ordered
      have hthere : cell { repository with engine := state } id = ⟨none, none, []⟩ := hcell
      cases loaded with
      | none =>
          have hsame : ((cell { repository with engine := state } id).request task).1.fail
              = cell { repository with engine := state } id := by
            rw [hthere]
            rfl
          simp only [Materialization.resume, loadShader, hengine, hload, materialize, hstored,
            hbundle]
          exact congrArg (·, _) ((repository.modifyCell_modifyCell id _ _ state).trans
            (hordered.modifyCell_eq_self (fun cell => (cell.request task).1.fail)
              hsame))
      | some shader =>
          have hsame : ((cell { repository with engine := state } id).request task).1.fill shader
              = ((cell { repository with engine := state } id).store shader).1 := by
            rw [hthere]
            rfl
          have hgiven : ((cell { repository with engine := state } id).store shader).2
              = shader := by
            rw [hthere]
            rfl
          simp only [Materialization.resume, loadShader, hengine, hload, materialize, hstored,
            hbundle, hgiven]
          exact congrArg (·, _) ((repository.modifyCell_modifyCell id _ _ state).trans
            (hordered.modifyCell_congr (fun cell => (cell.request task).1.fill shader)
              (fun cell => (cell.store shader).1) hsame))

/-- **A load that does not block comes to what the load at once comes to**, if its repository
is at rest. -/
theorem AtRest.comes_start (h : repository.AtRest engine) (task : TaskId) (now : Nat)
    (source : Source β) (id : EntryId) :
    Comes (fun now repository state => Materialization.resume engine task now repository state)
      (repository.materialize engine source id).1 (repository.materialize engine source id).2 1
      (Materialization.start engine task now source id repository) := by
  cases hstored : (repository.cell id).stored with
  | some shader =>
      have hload : repository.materialize engine source id = (repository, .ok shader) := by
        simp only [materialize, hstored]
      rw [h.start_of_stored hstored, hload]
      exact .done
  | none =>
      cases hbundle : source.bundle with
      | none =>
          have hload : repository.materialize engine source id
              = (repository, .error (.bundleNotLoaded source.archive)) := by
            simp only [materialize, hstored, hbundle]
          rw [h.start_of_unbound hstored hbundle, hload]
          exact .done
      | some bundle =>
          have hturn : ((repository.cell id).request task).2 = .hold := by
            rw [h.cell_eq id, hstored]
            rfl
          have hstart : Materialization.start engine task now source id repository
              = (repository.modifyCell id fun cell => (cell.request task).1,
                 .paused (.loading source.archive bundle id)
                   (.until (now + engine.shaderDelay))) := by
            simp only [Materialization.start, hturn, Materialization.proceed, hbundle]
          rw [hstart]
          refine .paused fun later => ?_
          rw [h.resume_of_asked hstored hbundle]
          exact .done

/-- **A search that does not block finds what the search at once finds.** -/
theorem AtRest.comes_lookup (h : repository.AtRest engine) (task : TaskId) (now : Nat)
    (query : Signature) :
    Comes (fun now repository (lookup : Lookup β) => lookup.resume engine task now repository)
      (repository.find engine query).1 (repository.find engine query).2 1
      (Lookup.start engine task now query repository) := by
  cases hclosest : repository.closest? query with
  | none =>
      simp only [Repository.find, Lookup.start, hclosest]
      exact .done
  | some candidate =>
      have hload := h.comes_start task now (repository.source candidate.entry.manifest)
        candidate.entry
      have hfind : repository.find engine query
          = ((repository.materialize engine (repository.source candidate.entry.manifest)
                candidate.entry).1,
             (repository.materialize engine (repository.source candidate.entry.manifest)
                candidate.entry).2.map fun shader => some { candidate with shader }) := by
        simp only [Repository.find, hclosest]
        generalize repository.materialize engine (repository.source candidate.entry.manifest)
          candidate.entry = result
        obtain ⟨after, shader | error⟩ := result <;> rfl
      have hresume : ∀ now (repository : Repository σ β) (state : Materialization β),
          Lookup.resume engine task now ⟨candidate, state⟩ repository
            = ((state.resume engine task now repository).1,
               (state.resume engine task now repository).2.within (Lookup.mk candidate)
                 (·.map fun shader => some { candidate with shader })) :=
        fun _ _ _ => rfl
      rw [hfind]
      simp only [Lookup.start, hclosest]
      exact hload.within id _ hresume

end Repository

end ShaderMend
