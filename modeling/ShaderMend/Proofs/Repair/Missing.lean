import ShaderMend.Proofs.Repair.Pieces
import ShaderMend.Proofs.Repair.Placeholder

/-!
# Assets that are missing

A bundle may lack the asset of an entry. The load of its shader fails then, and leaves the
repository to all other searches as it was.

* `Engine.Steady` — what this takes of an engine: a load that fails changes none of its answers.
* `Repository.Alike.find_eq` — searches come to the same in repositories that look the same.
* `Repository.findEach_of_missing` — so those after one that misses its asset come to the same
  as without it.
* `Repair.results_roundsOfFix`, `Repair.namesAfter_eq` — the rounds of a repair at once, and the
  names that rounds report.
-/

namespace ShaderMend

variable {σ β : Type}

/-- Whether an engine gives the same answers in states that are alike, and is in such a state
after a load of a shader that fails. -/
structure Engine.Steady (engine : Engine σ β) (alike : σ → σ → Prop) : Prop where
  refl : ∀ state, alike state state
  answer : ∀ {first second}, alike first second → ∀ bundle assetPath,
    (engine.loadShader first bundle assetPath).2 = (engine.loadShader second bundle assetPath).2
  next : ∀ {first second}, alike first second → ∀ bundle assetPath,
    alike (engine.loadShader first bundle assetPath).1 (engine.loadShader second bundle assetPath).1
  failed : ∀ state bundle assetPath, (engine.loadShader state bundle assetPath).2 = none →
    alike (engine.loadShader state bundle assetPath).1 state

namespace Repository

/-! ### Repositories that look the same -/

/-- Whether repositories look the same to searches: they declare the same and have the same
shaders, over engines in states that are alike. -/
structure Alike (alike : σ → σ → Prop) (first second : Repository σ β) : Prop where
  engine : alike first.engine second.engine
  declared : first.declared = second.declared
  stored : ∀ id, (first.cell id).stored = (second.cell id).stored

variable {engine : Engine σ β} {alike : σ → σ → Prop} {first second repository : Repository σ β}

/-- What a load at once of the shader of an entry comes to, by what the engine answers. -/
theorem snd_materialize (engine : Engine σ β) (repository : Repository σ β) (source : Source β)
    (id : EntryId) :
    (repository.materialize engine source id).2
      = match (repository.cell id).stored, source.bundle with
        | some shader, _ => .ok shader
        | none, none => .error (.bundleNotLoaded source.archive)
        | none, some bundle =>
            match (engine.loadShader repository.engine bundle id.assetPath).2 with
            | some shader => .ok shader
            | none => .error (.assetNotFound source.archive id.assetPath) := by
  unfold materialize
  cases hstored : (repository.cell id).stored with
  | some shader => rfl
  | none =>
      cases source.bundle with
      | none => rfl
      | some bundle =>
          dsimp only [loadShader]
          cases engine.loadShader repository.engine bundle id.assetPath with
          | mk state shader? =>
              cases shader? with
              | none => rfl
              | some shader => exact congrArg Except.ok (Cell.store_of_empty hstored shader)

/-- What a search comes to, by what the load of its choice does. -/
theorem snd_find (engine : Engine σ β) (repository : Repository σ β) (query : Signature) :
    (repository.find engine query).2
      = match repository.closest? query with
        | none => .ok none
        | some candidate =>
            (repository.materialize engine (repository.source candidate.entry.manifest)
              candidate.entry).2.map fun shader => some { candidate with shader } := by
  cases hclosest : repository.closest? query with
  | none => simp only [find, hclosest]
  | some candidate =>
      simp only [find, hclosest]
      generalize repository.materialize engine (repository.source candidate.entry.manifest)
        candidate.entry = result
      obtain ⟨after, shader | error⟩ := result <;> rfl

/-- **A search comes to the same in repositories that look the same.** -/
theorem Alike.find_eq (hsteady : engine.Steady alike) (h : Alike alike first second)
    (query : Signature) : (first.find engine query).2 = (second.find engine query).2 := by
  simp only [snd_find, snd_materialize, closest?_of_declared h.declared,
    source_of_declared h.declared, h.stored, hsteady.answer h.engine]

/-! ### Searches one after the other -/

/-- Where only the states of engines differ that are alike, a load leaves such repositories
again. -/
theorem materialize_of_engine (hsteady : engine.Steady alike) {state : σ}
    (halike : alike state repository.engine) (source : Source β) (id : EntryId) :
    ∃ state', alike state' (repository.materialize engine source id).1.engine ∧
      (materialize { repository with engine := state } engine source id).1
        = { (repository.materialize engine source id).1 with engine := state' } := by
  have hcell : cell { repository with engine := state } id = repository.cell id := rfl
  unfold materialize
  rw [hcell]
  cases (repository.cell id).stored with
  | some shader => exact ⟨state, halike, rfl⟩
  | none =>
      cases source.bundle with
      | none => exact ⟨state, halike, rfl⟩
      | some bundle =>
          have hanswer := hsteady.answer halike bundle id.assetPath
          have hnext := hsteady.next halike bundle id.assetPath
          dsimp only [loadShader]
          cases hother : engine.loadShader state bundle id.assetPath with
          | mk state' shader? =>
              cases hload : engine.loadShader repository.engine bundle id.assetPath with
              | mk after shader =>
                  rw [hother, hload] at hanswer hnext
                  obtain rfl : shader? = shader := hanswer
                  cases shader? with
                  | none => exact ⟨state', hnext, rfl⟩
                  | some shader => exact ⟨state', hnext, rfl⟩

/-- What a search leaves is what the load of its choice leaves. -/
theorem fst_find (engine : Engine σ β) (repository : Repository σ β) (query : Signature) :
    (repository.find engine query).1
      = match repository.closest? query with
        | none => repository
        | some candidate =>
            (repository.materialize engine (repository.source candidate.entry.manifest)
              candidate.entry).1 := by
  cases hclosest : repository.closest? query with
  | none => simp only [find, hclosest]
  | some candidate =>
      simp only [find, hclosest]
      generalize repository.materialize engine (repository.source candidate.entry.manifest)
        candidate.entry = result
      obtain ⟨after, shader | error⟩ := result <;> rfl

/-- Where only the states of engines differ that are alike, searches come to the same. -/
theorem findEach_of_engine (hsteady : engine.Steady alike) {state : σ}
    (halike : alike state repository.engine) (shaders : List Shader) :
    (findEach engine shaders { repository with engine := state }).2
      = (repository.findEach engine shaders).2 := by
  induction shaders generalizing repository state with
  | nil => rfl
  | cons shader rest ih =>
      have hsame : Alike alike { repository with engine := state } repository :=
        ⟨halike, rfl, fun _ => rfl⟩
      have hafter : ∃ state', alike state' (repository.find engine shader.query).1.engine ∧
          (find { repository with engine := state } engine shader.query).1
            = { (repository.find engine shader.query).1 with engine := state' } := by
        have hclosest : closest? { repository with engine := state } shader.query
            = repository.closest? shader.query := rfl
        rw [fst_find, fst_find, hclosest]
        cases repository.closest? shader.query with
        | none => exact ⟨state, halike, rfl⟩
        | some candidate => exact materialize_of_engine hsteady halike _ _
      obtain ⟨state', halike', hafter⟩ := hafter
      simp only [findEach]
      rw [hsame.find_eq hsteady, hafter, ih halike']

theorem findEach_append (engine : Engine σ β) (before after : List Shader)
    (repository : Repository σ β) :
    (repository.findEach engine (before ++ after)).2
      = (repository.findEach engine before).2
        ++ ((repository.findEach engine before).1.findEach engine after).2 := by
  induction before generalizing repository with
  | nil => rfl
  | cons shader rest ih => exact congrArg ((shader, _) :: ·) (ih _)

/-- A load that misses its asset changes the state of the engine at most, to one that is
alike. -/
theorem find_of_missing (hsteady : engine.Steady alike) {query : Signature}
    {error : RepositoryError} (h : (repository.find engine query).2 = .error error) :
    ∃ state, alike state repository.engine ∧
      (repository.find engine query).1 = { repository with engine := state } := by
  rw [fst_find]
  rw [snd_find] at h
  cases hclosest : repository.closest? query with
  | none => exact ⟨_, hsteady.refl _, rfl⟩
  | some candidate =>
      rw [hclosest] at h
      dsimp only at h ⊢
      generalize repository.source candidate.entry.manifest = source at h ⊢
      unfold materialize at h ⊢
      cases hstored : (repository.cell candidate.entry).stored with
      | some shader =>
          rw [hstored] at h
          cases h
      | none =>
          rw [hstored] at h
          cases hbundle : source.bundle with
          | none => exact ⟨_, hsteady.refl _, rfl⟩
          | some bundle =>
              rw [hbundle] at h
              have hfailed := hsteady.failed repository.engine bundle candidate.entry.assetPath
              dsimp only [loadShader] at h ⊢
              cases hload : engine.loadShader repository.engine bundle
                  candidate.entry.assetPath with
              | mk state shader? =>
                  rw [hload] at h hfailed
                  cases shader? with
                  | none => exact ⟨state, hfailed rfl, rfl⟩
                  | some shader => cases h

/-- **A search that misses its asset** leaves what the others come to as it would be without
it. -/
theorem findEach_of_missing (hsteady : engine.Steady alike) {shaders : List Shader}
    {before after : List (Shader × Except RepositoryError (Option Replacement))} {shader : Shader}
    {error : RepositoryError}
    (h : (repository.findEach engine shaders).2 = before ++ (shader, .error error) :: after) :
    (repository.findEach engine (before.map Prod.fst ++ after.map Prod.fst)).2
      = before ++ after := by
  have hshaders := repository.map_fst_findEach engine shaders
  rw [h, List.map_append, List.map_cons] at hshaders
  rw [← hshaders, findEach_append] at h
  have hlength : (repository.findEach engine (before.map Prod.fst)).2.length = before.length := by
    rw [← List.length_map Prod.fst, map_fst_findEach, List.length_map]
  obtain ⟨hbefore, hafter⟩ := List.append_inj h hlength
  simp only [findEach, List.cons.injEq, Prod.mk.injEq, true_and] at hafter
  obtain ⟨hmissing, hafter⟩ := hafter
  obtain ⟨state, halike, hstate⟩ := find_of_missing hsteady hmissing
  rw [hstate, findEach_of_engine hsteady halike] at hafter
  rw [findEach_append, hbefore, hafter]

/-! ### Loads that do not block -/

/-- **A load that misses its asset** leaves a repository that looks the same to searches. Only
the cell of its entry is handed over. -/
theorem alike_of_resume (hsteady : engine.Steady alike) {task : TaskId} {now : Nat}
    {state : Materialization β} {archive : Path} {assetPath : String}
    (h : (state.resume engine task now repository).2
      = .done (.error (.assetNotFound archive assetPath))) :
    Alike alike (state.resume engine task now repository).1 repository ∧
      ∀ id, id ≠ state.entry →
        (state.resume engine task now repository).1.cell id = repository.cell id := by
  cases state with
  | waiting source entry =>
      dsimp only [Materialization.resume] at h
      generalize (repository.cell entry).turn task = turn at h
      unfold Materialization.proceed at h
      cases turn with
      | ready shader => cases h
      | wait => cases h
      | hold => cases hbundle : source.bundle <;> rw [hbundle] at h <;> cases h
  | loading archive bundle entry =>
      have hfailed := hsteady.failed repository.engine bundle entry.assetPath
      dsimp only [Materialization.resume, loadShader] at h ⊢
      cases hload : engine.loadShader repository.engine bundle entry.assetPath with
      | mk after shader? =>
          rw [hload] at h hfailed
          cases shader? with
          | some shader => cases h
          | none =>
              dsimp only
              have hdeclared :=
                declared_modifyCell { repository with engine := after } entry Cell.fail
              refine ⟨⟨hfailed rfl, hdeclared, ?_⟩, ?_⟩
              · intro id
                rcases cell_modifyCell_cases { repository with engine := after } entry id Cell.fail
                  with hsame | ⟨-, hfail⟩
                · rw [hsame]
                  rfl
                · rw [hfail, Cell.stored_fail]
                  rfl
              · intro id hne
                exact cell_modifyCell_of_ne { repository with engine := after } hne Cell.fail

theorem error_of_resume {task : TaskId} {now : Nat} {lookup : Lookup β} {error : RepositoryError}
    (h : (lookup.resume engine task now repository).2 = .done (.error error)) :
    (lookup.materialization.resume engine task now repository).2 = .done (.error error) := by
  unfold Lookup.resume Lookup.ofMaterialization at h
  cases hresume : lookup.materialization.resume engine task now repository with
  | mk after progress =>
      rw [hresume] at h
      cases progress with
      | paused state pause => cases h
      | done result =>
          cases result with
          | ok shader => cases h
          | error other =>
              obtain rfl := Except.error.inj (Progress.done.inj h)
              rfl

/-- **A lookup that begins** in repositories that declare the same, and have the same cell of
the choice, goes on in the same way. -/
theorem snd_start_of_cell (engine : Engine σ β) (task : TaskId) (now : Nat) {query : Signature}
    (hdeclared : first.declared = second.declared)
    (hcell : ∀ candidate, second.closest? query = some candidate →
      first.cell candidate.entry = second.cell candidate.entry) :
    (Lookup.start engine task now query first).2
      = (Lookup.start engine task now query second).2 := by
  unfold Lookup.start
  rw [closest?_of_declared hdeclared]
  cases hclosest : second.closest? query with
  | none => rfl
  | some candidate =>
      dsimp only
      rw [source_of_declared hdeclared]
      generalize second.source candidate.entry.manifest = source
      dsimp only [Materialization.start]
      rw [hcell candidate hclosest]
      generalize (second.cell candidate.entry).request task = requested
      obtain ⟨cell, turn⟩ := requested
      cases turn with
      | ready shader => rfl
      | wait => rfl
      | hold =>
          unfold Materialization.proceed
          dsimp only
          cases source.bundle <;> rfl

end Repository

namespace Repair

/-! ### Rounds -/

/-- What the lookups of rounds came to. -/
def results (rounds : List (Round σ β)) :
    List (Shader × Except RepositoryError (Option Replacement)) :=
  rounds.map fun round => (round.shader, round.result)

/-- The names that rounds report: those of the shaders without replacement, each once. -/
def reported (rounds : List (Round σ β)) : List String :=
  distinctBy id (namesMissing (resolved (results rounds)))

theorem namesAfter_eq (rounds : List (Round σ β)) : namesAfter rounds [] = reported rounds := by
  have hnames := foldl_missingAfter (resolved (results rounds)) []
  rw [List.nil_append] at hnames
  rw [reported, ← hnames, resolved, results, List.map_map, List.foldl_map]
  rfl

variable {engine : Engine σ β} {holds : TaskId → Hold}

theorem results_roundsAtOnce {job : Job} {shaders : List Shader} {world : World σ β}
    (h : Tidy engine world.repository holds) (hfree : ∃ task, holds task = .nothing) :
    results (roundsAtOnce engine job shaders world)
      = (world.repository.findEach engine shaders).2 := by
  induction shaders generalizing world with
  | nil => rfl
  | cons shader rest ih =>
      have hkept := Repository.find_keeps (Act.keeps_tidy engine) hfree h shader.query
      have hsettle := settle_find h shader.query
      unfold roundsAtOnce
      simp only [Repository.findEach]
      cases hfind : world.repository.find engine shader.query with
      | mk repository result =>
          rw [hfind] at hkept hsettle
          simp only [World.withRepository] at hsettle ⊢
          rw [hsettle]
          dsimp only at hkept ⊢
          have hrest := @ih (Round.after ⟨job, shader, result, { world with repository }⟩)
            (by rwa [Round.repository_after])
          rw [Round.repository_after] at hrest
          exact congrArg ((shader, result) :: ·) hrest

/-- **The rounds of a repair at once** are the searches for what it planned. -/
theorem results_roundsOfFix {materials : List MaterialId} {world : World σ β}
    (h : Tidy engine world.repository holds) (hfree : ∃ task, holds task = .nothing) :
    results (roundsOfFix engine .main materials world)
      = (world.repository.findEach engine (planned world materials)).2 := by
  unfold roundsOfFix planned
  cases plan? world materials with
  | none => rfl
  | some plan => exact results_roundsAtOnce h hfree

end Repair

end ShaderMend
