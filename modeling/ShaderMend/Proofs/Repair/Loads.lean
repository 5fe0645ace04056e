import ShaderMend.Proofs.Repair.Fix

/-!
# The loads of a repair

An engine can keep a log of the shaders that it is asked for. It answers as without the log, so
that a repair over it does the same, and the log tells which loads the repair makes.

* `Engine.logged` — an engine with a log.
* `Repository.find_withLog` — a search over it makes one load at most.
* `Repair.fix_withLog` — a repair over it makes the loads of its searches, one after the other.
-/

namespace ShaderMend

variable {σ β : Type}

/-! ### Engines with a log -/

/-- A load of a shader: what the engine was asked for, and the shader if there is one. -/
structure Load (β : Type) where
  bundle : β
  assetPath : String
  shader? : Option Shader
  deriving DecidableEq, Repr

/-- Whether there was no shader. -/
def Load.failed (load : Load β) : Bool :=
  load.shader?.isNone

/-- The engine with a log of the shaders that it was asked for. -/
def Engine.logged (engine : Engine σ β) : Engine (σ × List (Load β)) β where
  loadBundle state path payload :=
    let (inner, bundle) := engine.loadBundle state.1 path payload
    ((inner, state.2), bundle)
  loadShader state bundle assetPath :=
    let (inner, shader) := engine.loadShader state.1 bundle assetPath
    ((inner, state.2 ++ [⟨bundle, assetPath, shader⟩]), shader)
  bundleDelay := engine.bundleDelay
  shaderDelay := engine.shaderDelay

namespace Repository

/-- The repository over the engine with a log. -/
def withLog (repository : Repository σ β) (log : List (Load β)) :
    Repository (σ × List (Load β)) β :=
  { repository with engine := (repository.engine, log) }

/-- The load for an entry, made if the entry has no shader yet and its source a bundle. -/
def loadsBy (engine : Engine σ β) (repository : Repository σ β) (source : Source β)
    (id : EntryId) : List (Load β) :=
  match (repository.cell id).stored, source.bundle with
  | none, some bundle =>
      [⟨bundle, id.assetPath, (engine.loadShader repository.engine bundle id.assetPath).2⟩]
  | _, _ => []

/-- The load that a search makes, if it makes one: that for the closest entry. -/
def loadsFor (engine : Engine σ β) (repository : Repository σ β) (query : Signature) :
    List (Load β) :=
  match repository.closest? query with
  | none => []
  | some candidate =>
      repository.loadsBy engine (repository.source candidate.entry.manifest) candidate.entry

/-- The loads of searches, one after the other. -/
def loadsForEach (engine : Engine σ β) : List Shader → Repository σ β → List (Load β)
  | [], _ => []
  | shader :: rest, repository =>
      repository.loadsFor engine shader.query
        ++ loadsForEach engine rest (repository.find engine shader.query).1

variable (engine : Engine σ β) (repository : Repository σ β) (log : List (Load β))

theorem loadShader_withLog (archive : Path) (bundle : β) (assetPath : String) :
    (repository.withLog log).loadShader engine.logged archive bundle assetPath
      = ((repository.loadShader engine archive bundle assetPath).1.withLog
           (log ++ [⟨bundle, assetPath,
             (engine.loadShader repository.engine bundle assetPath).2⟩]),
         (repository.loadShader engine archive bundle assetPath).2) := by
  rcases hload : engine.loadShader repository.engine bundle assetPath with ⟨state, shader?⟩
  cases shader? <;> simp [loadShader, Engine.logged, withLog, hload]

theorem materialize_withLog (source : Source β) (id : EntryId) :
    (repository.withLog log).materialize engine.logged source id
      = ((repository.materialize engine source id).1.withLog
           (log ++ repository.loadsBy engine source id),
         (repository.materialize engine source id).2) := by
  have hcell : (repository.withLog log).cell id = repository.cell id := rfl
  unfold materialize loadsBy
  rw [hcell]
  cases (repository.cell id).stored with
  | some shader => simp
  | none =>
      cases source.bundle with
      | none => simp
      | some bundle =>
          dsimp only
          rw [loadShader_withLog]
          rcases repository.loadShader engine source.archive bundle id.assetPath
            with ⟨loaded, shader | error⟩ <;> rfl

/-- **A search over an engine with a log** does the same, and writes down its load. -/
theorem find_withLog (query : Signature) :
    (repository.withLog log).find engine.logged query
      = ((repository.find engine query).1.withLog (log ++ repository.loadsFor engine query),
         (repository.find engine query).2) := by
  have hclosest : (repository.withLog log).closest? query = repository.closest? query := rfl
  have hsource : ∀ index, (repository.withLog log).source index = repository.source index :=
    fun _ => rfl
  unfold find loadsFor
  rw [hclosest]
  cases repository.closest? query with
  | none => simp
  | some candidate =>
      dsimp only
      rw [hsource, materialize_withLog]
      rcases repository.materialize engine (repository.source candidate.entry.manifest)
        candidate.entry with ⟨loaded, error | shader⟩ <;> rfl

end Repository

/-- The world with the repository over the engine with a log. -/
def World.withLog (world : World σ β) (log : List (Load β)) : World (σ × List (Load β)) β :=
  { world with repository := world.repository.withLog log }

namespace Repair

/-- The loads of shaders that a repair makes, with a log or without (`fix_withLog`). -/
def loadsOf (engine : Engine σ β) (materials : List MaterialId) (world : World σ β) :
    List (Load β) :=
  (fix engine.logged .main materials (world.withLog [])).1.repository.engine.2

variable {engine : Engine σ β} {world : World σ β} {holds : TaskId → Hold}

/-- What follows the search in a round does not depend on the engine. -/
theorem replace_record_withLog (job : Job) (shader : Shader) (replacement : Option Replacement)
    (world : World σ β) (log : List (Load β)) :
    replace job shader replacement (record job shader replacement (world.withLog log))
      = (replace job shader replacement (record job shader replacement world)).withLog log := by
  rw [replace_record_eq, replace_record_eq]
  rfl

/-- **The rounds of a repair over an engine with a log**, by induction on the shaders. -/
theorem replaceAll_withLog (h : Tidy engine world.repository holds)
    (hfree : ∃ task, holds task = .nothing) (job : Job) (shaders : List Shader)
    (missing : List String) (log : List (Load β)) :
    replaceAll engine.logged job shaders missing (world.withLog log)
      = ((replaceAll engine job shaders missing world).1.withLog
           (log ++ world.repository.loadsForEach engine shaders),
         (replaceAll engine job shaders missing world).2) := by
  induction shaders generalizing world missing log with
  | nil =>
      simp only [replaceAll, Repository.loadsForEach, List.append_nil]
      rw [fst_finish, fst_finish]
      rfl
  | cons shader rest ih =>
      have hrest := Repository.find_keeps (Act.keeps_tidy engine) hfree h shader.query
      have hsettle := settle_find h shader.query
      have hfind : (world.withLog log).repository.find engine.logged shader.query = _ :=
        world.repository.find_withLog engine log shader.query
      unfold replaceAll
      simp only [World.withRepository, Repository.loadsForEach, hfind]
      cases hfound : world.repository.find engine shader.query with
      | mk repository result =>
          rw [hfound] at hsettle hrest
          dsimp only at hsettle hrest ⊢
          rw [hsettle]
          dsimp only
          have hround := replace_record_withLog job shader (replacementOf result)
            { world with repository } (log ++ world.repository.loadsFor engine shader.query)
          have hrepository : (replace job shader (replacementOf result) (record job shader
              (replacementOf result) { world with repository })).repository = repository := by
            rw [replace_record_eq]
          have hmore := ih (hrepository ▸ hrest) (missingAfter shader (replacementOf result) missing)
            (log ++ world.repository.loadsFor engine shader.query)
          rw [hrepository, List.append_assoc] at hmore
          exact (congrArg (replaceAll engine.logged job rest _) hround).trans hmore

/-- **A repair over an engine with a log** does the same, and makes the loads of its searches. -/
theorem fix_withLog (h : Tidy engine world.repository holds)
    (hfree : ∃ task, holds task = .nothing) (materials : List MaterialId) (log : List (Load β)) :
    fix engine.logged .main materials (world.withLog log)
      = ((fix engine .main materials world).1.withLog (log ++ loadsOf engine materials world),
         (fix engine .main materials world).2) := by
  have hplan : plan? (world.withLog log) materials = plan? world materials := rfl
  have hplan' : plan? (world.withLog []) materials = plan? world materials := rfl
  unfold loadsOf fix
  rw [hplan, hplan']
  cases hplan : plan? world materials with
  | none => simp [World.withLog, Repository.withLog]
  | some planned =>
      obtain ⟨job, shaders⟩ := planned
      simp only [replaceAll_withLog h hfree]
      rfl

/-- A repair that has nothing to do makes no loads. -/
theorem loadsOf_of_idle {materials : List MaterialId}
    (hidle : world.config.enableMultiPassRendering = true ∨ unsupported world materials = []) :
    loadsOf engine materials world = [] := by
  have hplan : plan? (world.withLog []) materials = plan? world materials := rfl
  have hnone : plan? world materials = none := by
    rcases hidle with hoff | hempty
    · simp [plan?, hoff]
    · simp [plan?, hempty]
  unfold loadsOf fix
  rw [hplan, hnone]
  rfl

/-- The loads of a repair, unless it is switched off. -/
theorem loadsOf_eq (h : Tidy engine world.repository holds)
    (hfree : ∃ task, holds task = .nothing) {materials : List MaterialId}
    (hon : world.config.enableMultiPassRendering = false) :
    loadsOf engine materials world
      = world.repository.loadsForEach engine (unsupported world materials) := by
  have hplan : plan? (world.withLog []) materials = plan? world materials := rfl
  unfold loadsOf fix
  rw [hplan, plan?, hon]
  cases hshaders : unsupported world materials with
  | nil => rfl
  | cons first rest =>
      simp only [replaceAll_withLog h hfree, Bool.false_eq_true, if_false]
      rfl

end Repair

end ShaderMend
