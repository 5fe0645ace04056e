import ShaderMend.Proofs.Repository.Selection
import ShaderMend.Proofs.Session.AtRest

/-!
# What a search leaves behind

* `Repository.find_of_reachable` — a search in a repository at rest finds the choice among
  its entries, and fills the cell of this entry alone.
-/

namespace ShaderMend

variable {σ β : Type}

namespace Repository

/-- Whether a repository came from another by a shader for one entry. The state of the
engine may differ. -/
structure Filled (before after : Repository σ β) (id : EntryId) (shader : Shader) : Prop where
  entry : after.lookup? id
    = (before.lookup? id).map (·.modifyCell fun _ => ⟨some shader, none, []⟩)
  others : ∀ other, other ≠ id → after.lookup? other = before.lookup? other
  declared : after.declared = before.declared
  invalid : after.invalid = before.invalid
  stage : after.stage = before.stage
  webDone : after.webDone = before.webDone
  inFlight : after.inFlight = before.inFlight

theorem AtRest.ordered {engine : Engine σ β} {repository : Repository σ β}
    (h : repository.AtRest engine) : repository.Ordered :=
  h.ascending

section AtRest

variable {engine : Engine σ β} {repository : Repository σ β} {id : EntryId} {entry : Entry}

theorem cell_of_lookup? (hentry : repository.lookup? id = some entry) :
    repository.cell id = entry.cell := by
  simp [cell, hentry]

theorem assetPath_of_lookup? (hentry : repository.lookup? id = some entry) :
    entry.assetPath = id.assetPath := by
  obtain ⟨manifest, -, hfound⟩ := Option.bind_eq_some_iff.mp hentry
  simpa using List.find?_some hfound

/-- Where all manifests have their bundles, an entry comes from one. -/
theorem exists_bundle (hbound : ∀ manifest ∈ repository.manifests, manifest.bundle.isSome)
    (hentry : repository.lookup? id = some entry) :
    ∃ manifest bundle, repository.manifests[id.manifest]? = some manifest ∧
      manifest.bundle = some bundle ∧
      repository.source id.manifest = ⟨manifest.path, some bundle⟩ := by
  obtain ⟨manifest, hmanifest, -⟩ := Option.bind_eq_some_iff.mp hentry
  have hpresent := hbound manifest (List.mem_of_getElem? hmanifest)
  obtain ⟨bundle, hbundle⟩ := Option.isSome_iff_exists.mp hpresent
  refine ⟨manifest, bundle, hmanifest, hbundle, ?_⟩
  simp [source, hmanifest, Manifest.source, hbundle]

/-- The cell of an entry at rest takes the shader that is loaded for it. -/
theorem AtRest.filled_store (h : repository.AtRest engine)
    (hstored : (repository.cell id).stored = none) (state : σ) (shader : Shader) :
    repository.Filled
      (({ repository with engine := state } : Repository σ β).modifyCell id
        fun cell => (cell.store shader).1) id shader := by
  have hcell : ((repository.cell id).store shader).1 = ⟨some shader, none, []⟩ := by
    obtain ⟨hholder, hqueue⟩ := h.idle id
    simp [Cell.store, hstored, hholder, hqueue]
  have hlookup : ∀ other, ({ repository with engine := state } : Repository σ β).lookup? other
      = repository.lookup? other := fun _ => rfl
  refine ⟨?_, fun other hne => ?_, ?_, rfl, rfl, rfl, rfl⟩
  · rw [lookup?_modifyCell, if_pos rfl, hlookup]
    cases hentry : repository.lookup? id with
    | none => rfl
    | some entry =>
        rw [cell_of_lookup? hentry] at hcell
        simp [Entry.modifyCell, hcell]
  · rw [lookup?_modifyCell, if_neg hne, hlookup]
  · exact declared_modifyCell _ _ _

/-- What a load at once comes to for an entry of a repository at rest: it has a shader, or
the engine loads one and the entry keeps it, or the asset is missing. -/
theorem AtRest.materialize_cases (h : repository.AtRest engine) {source : Source β} {bundle : β}
    (hbundle : source.bundle = some bundle) (id : EntryId) :
    (∃ shader, (repository.cell id).stored = some shader ∧
      repository.materialize engine source id = (repository, .ok shader)) ∨
    (repository.cell id).stored = none ∧
      ((∃ state shader after, engine.loadShader repository.engine bundle id.assetPath
            = (state, some shader) ∧
          repository.materialize engine source id = (after, .ok shader) ∧
          repository.Filled after id shader) ∨
        ∃ state, engine.loadShader repository.engine bundle id.assetPath = (state, none) ∧
          repository.materialize engine source id
            = ({ repository with engine := state },
               .error (.assetNotFound source.archive id.assetPath))) := by
  cases hstored : (repository.cell id).stored with
  | some shader => exact Or.inl ⟨shader, rfl, by simp [materialize, hstored]⟩
  | none =>
      refine Or.inr ⟨rfl, ?_⟩
      cases hload : engine.loadShader repository.engine bundle id.assetPath with
      | mk state loaded =>
          cases loaded with
          | none =>
              refine Or.inr ⟨state, rfl, ?_⟩
              simp [materialize, hstored, hbundle, loadShader, hload]
          | some shader =>
              have hgiven : ((repository.cell id).store shader).2 = shader := by
                simp [Cell.store, hstored, (h.idle id).1]
              refine Or.inl ⟨state, shader, _, rfl, ?_, h.filled_store hstored state shader⟩
              simp only [materialize, hstored, hbundle, loadShader, hload]
              exact congrArg _ (congrArg Except.ok hgiven)

/-- What a search comes to in a repository at rest. -/
theorem AtRest.find_cases (h : repository.AtRest engine) (query : Signature) :
    ((∀ other ∈ repository.entries, query.match? other.2.signature = none) ∧
      repository.find engine query = (repository, .ok none)) ∨
    ∃ id entry found manifest bundle, Selects query repository.entries id entry found ∧
      repository.manifests[id.manifest]? = some manifest ∧ manifest.bundle = some bundle ∧
      ((∃ shader, entry.cell.stored = some shader ∧
          repository.find engine query
            = (repository, .ok (some ⟨⟨id, entry.signature.name, found⟩, shader⟩))) ∨
        entry.cell.stored = none ∧
          ((∃ state shader after,
              engine.loadShader repository.engine bundle entry.assetPath = (state, some shader) ∧
              repository.find engine query
                = (after, .ok (some ⟨⟨id, entry.signature.name, found⟩, shader⟩)) ∧
              repository.Filled after id shader) ∨
            ∃ state,
              engine.loadShader repository.engine bundle entry.assetPath = (state, none) ∧
              repository.find engine query
                = ({ repository with engine := state },
                   .error (.assetNotFound manifest.path entry.assetPath)))) := by
  rcases repository.closest?_spec query with
    ⟨hnone, hunmatched⟩ | ⟨id, entry, found, hsome, hselects⟩
  · exact Or.inl ⟨hunmatched, by simp [find, hnone]⟩
  · have hentry := (mem_entries_iff h.ordered).mp hselects.mem
    have hpath := assetPath_of_lookup? hentry
    obtain ⟨manifest, bundle, hmanifest, hbundle, hsource⟩ := exists_bundle h.bound hentry
    have hfind : ∀ {after result},
        repository.materialize engine ⟨manifest.path, some bundle⟩ id = (after, result) →
          repository.find engine query
            = (after, result.map fun shader =>
                some ⟨⟨id, entry.signature.name, found⟩, shader⟩) := by
      intro after result hloaded
      simp only [find, hsome, hsource, hloaded]
      cases result <;> rfl
    refine Or.inr ⟨id, entry, found, manifest, bundle, hselects, hmanifest, hbundle, ?_⟩
    rw [hpath, ← cell_of_lookup? hentry]
    have hsource' : (⟨manifest.path, some bundle⟩ : Source β).bundle = some bundle := rfl
    rcases h.materialize_cases hsource' id with
      ⟨shader, hstored, hloaded⟩ | ⟨hstored, ⟨state, shader, after, hload, hloaded, hfilled⟩ |
        ⟨state, hload, hloaded⟩⟩
    · exact Or.inl ⟨shader, hstored, hfind hloaded⟩
    · exact Or.inr ⟨hstored, Or.inl ⟨state, shader, after, hload, hfind hloaded, hfilled⟩⟩
    · exact Or.inr ⟨hstored, Or.inr ⟨state, hload, hfind hloaded⟩⟩

end AtRest

/-- **A search finds the choice among the entries.** In a repository that a session leaves
behind with nothing under way, entries are looked at by manifests and then by asset paths.
Nothing is found exactly if nothing fits. Otherwise the choice among the entries is found,
with the shader that it holds or that the engine loads for it, and nothing but its cell
changes; if the asset is missing this is the error, and nothing changes. -/
theorem find_of_reachable {engine : Engine σ β} {repository : Repository σ β}
    (h : repository.Reachable engine) (query : Signature) :
    (repository.entries.Pairwise fun first second => EntryId.Before first.1 second.1) ∧
    (∀ id entry, (id, entry) ∈ repository.entries ↔ repository.lookup? id = some entry) ∧
    ((repository.find engine query).2 = .ok none ↔
      ∀ other ∈ repository.entries, query.match? other.2.signature = none) ∧
    (repository.find engine query = (repository, .ok none) ∨
      ∃ id entry found manifest bundle, Selects query repository.entries id entry found ∧
        repository.manifests[id.manifest]? = some manifest ∧ manifest.bundle = some bundle ∧
        ((∃ shader, entry.cell.stored = some shader ∧
            repository.find engine query
              = (repository, .ok (some ⟨⟨id, entry.signature.name, found⟩, shader⟩))) ∨
          entry.cell.stored = none ∧
            ((∃ state shader after,
                engine.loadShader repository.engine bundle entry.assetPath
                  = (state, some shader) ∧
                repository.find engine query
                  = (after, .ok (some ⟨⟨id, entry.signature.name, found⟩, shader⟩)) ∧
                repository.Filled after id shader) ∨
              ∃ state,
                engine.loadShader repository.engine bundle entry.assetPath = (state, none) ∧
                repository.find engine query
                  = ({ repository with engine := state },
                     .error (.assetNotFound manifest.path entry.assetPath))))) := by
  have hrest := atRest_of_reachable h
  have hcases := hrest.find_cases query
  refine ⟨pairwise_entries hrest.ordered, fun id entry => mem_entries_iff hrest.ordered, ?_,
    hcases.imp And.right id⟩
  rcases hcases with ⟨hunmatched, hfind⟩ | ⟨id, entry, found, _, _, hselects, -, -, hcases⟩
  · rw [hfind]
    exact ⟨fun _ => hunmatched, fun _ => rfl⟩
  · have hmatched : ¬ ∀ other ∈ repository.entries, query.match? other.2.signature = none := by
      intro hunmatched
      have hmatch := hunmatched (id, entry) hselects.mem
      rw [hselects.match?_eq] at hmatch
      cases hmatch
    refine ⟨fun hnone => ?_, fun hunmatched => absurd hunmatched hmatched⟩
    rcases hcases with ⟨_, -, hfind⟩ | ⟨-, ⟨_, _, _, -, hfind, -⟩ | ⟨_, -, hfind⟩⟩
    all_goals
      rw [hfind] at hnone
      cases hnone

theorem find_of_sample :
    Session.sampleRepository.Reachable Session.sampleEngine ∧
      (Session.sampleRepository.find Session.sampleEngine ⟨"S", [], []⟩).2 ≠ .ok none := by
  refine ⟨Session.reachable_sample, fun hnone => ?_⟩
  have hunmatched :=
    (find_of_reachable Session.reachable_sample ⟨"S", [], []⟩).2.2.1.mp hnone
  have hmatch := hunmatched (⟨0, "x"⟩, ⟨"x", ⟨"S", [], []⟩, .empty⟩) List.mem_cons_self
  revert hmatch
  decide +kernel

end Repository

end ShaderMend
