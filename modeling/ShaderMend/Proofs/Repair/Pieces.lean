import ShaderMend.Proofs.Repair.Fix
import ShaderMend.Proofs.Repair.Writes
import ShaderMend.Proofs.Session.Tasks

/-!
# Pieces of work of a repair

A repair works in rounds, one for each of its shaders, and may pause within a round for the
load that it needs. `Round` says what a round came to; the rounds of a piece of work are
computed beside it.

* `Course` — what a piece of work comes to, round by round, in a tidy repository.
* `Run.start_piece`, `Run.resume_piece`, `fix_piece` — what this says of the materials, of the
  shaders that are left and of the names that are reported; and that no repair fails.
-/

namespace ShaderMend

variable {σ β : Type}

/-! ### What a load leads to -/

/-- Whether a task that needs a shader can come to have it: its archive has a bundle, and the
entry is there. -/
structure Materialization.Fit (repository : Repository σ β) (state : Materialization β) : Prop where
  bound : ∀ source entry, state = .waiting source entry → source.bundle.isSome
  present : (repository.lookup? state.entry).isSome

/-- What a piece of such a load leads to. -/
inductive Materialization.Led (engine : Engine σ β) (after : Repository σ β) :
    Progress (Materialization β) Materialization.Result → Prop where
  | ready {shader : Shader} (hmakes : engine.Makes shader) : Led engine after (.done (.ok shader))
  | missing {archive : Path} {assetPath : String} :
      Led engine after (.done (.error (.assetNotFound archive assetPath)))
  | paused {state : Materialization β} {pause : Pause} (hfit : state.Fit after) :
      Led engine after (.paused state pause)

/-- What a piece of a lookup leads to. -/
inductive Lookup.Led (engine : Engine σ β) (after : Repository σ β) :
    Progress (Lookup β) Lookup.Result → Prop where
  | nothing : Led engine after (.done (.ok none))
  | found {replacement : Replacement} (hmakes : engine.Makes replacement.shader) :
      Led engine after (.done (.ok (some replacement)))
  | missing {archive : Path} {assetPath : String} :
      Led engine after (.done (.error (.assetNotFound archive assetPath)))
  | paused {lookup : Lookup β} {pause : Pause} (hfit : lookup.materialization.Fit after) :
      Led engine after (.paused lookup pause)

section Loads

variable {engine : Engine σ β} {repository : Repository σ β} {holds : TaskId → Hold}
  (task : TaskId) (now : Nat)

namespace Materialization

theorem led_proceed {source : Source β} {entry : EntryId} {turn : Cell.Turn}
    (hbound : source.bundle.isSome) (hpresent : (repository.lookup? entry).isSome)
    (hmade : ∀ shader, turn = .ready shader → engine.Makes shader) :
    Led engine (proceed engine now source entry repository turn).1
      (proceed engine now source entry repository turn).2 := by
  cases turn with
  | ready shader => exact .ready (hmade shader rfl)
  | wait =>
      refine .paused ⟨fun other id heq => ?_, hpresent⟩
      cases heq
      exact hbound
  | hold =>
      obtain ⟨bundle, hbundle⟩ := Option.isSome_iff_exists.mp hbound
      simp only [proceed, hbundle]
      exact .paused ⟨fun other id heq => (by cases heq), hpresent⟩

theorem led_start (h : Tidy engine repository holds) {source : Source β} {entry : EntryId}
    (hbound : source.bundle.isSome) (hpresent : (repository.lookup? entry).isSome) :
    Led engine (start engine task now source entry repository).1
      (start engine task now source entry repository).2 := by
  apply led_proceed now hbound
  · rwa [Repository.isSome_lookup?_modifyCell]
  · intro shader hready
    exact h.made (Cell.stored_of_request hready)

theorem led_resume (h : Tidy engine repository holds) {state : Materialization β}
    (hfit : state.Fit repository) :
    Led engine (state.resume engine task now repository).1
      (state.resume engine task now repository).2 := by
  cases state with
  | waiting source entry =>
      apply led_proceed now (hfit.bound source entry rfl) hfit.present
      intro shader hready
      exact h.made (Cell.stored_of_turn hready)
  | loading archive bundle entry =>
      unfold resume
      obtain ⟨state, ⟨hcalled, hload⟩ | ⟨shader, hdelivers, hload⟩⟩ :=
        repository.loadShader_cases engine archive bundle entry.assetPath
      · simp only [hload]
        exact .missing
      · simp only [hload]
        exact .ready hdelivers.makes

end Materialization

namespace Lookup

theorem led_ofMaterialization (candidate : Candidate)
    {step : Repository σ β × Progress (Materialization β) Materialization.Result}
    (h : Materialization.Led engine step.1 step.2) :
    Led engine (ofMaterialization candidate step).1 (ofMaterialization candidate step).2 := by
  obtain ⟨after, progress⟩ := step
  cases h with
  | ready hmakes => exact .found hmakes
  | missing => exact .missing
  | paused hfit => exact .paused hfit

/-- **A lookup in a tidy repository** finds something or nothing, or pauses for a load. -/
theorem led_start (h : Tidy engine repository holds) (query : Signature) :
    Led engine (start engine task now query repository).1
      (start engine task now query repository).2 := by
  unfold start
  rcases repository.closest?_spec query with
    ⟨hnone, -⟩ | ⟨id, entry, found, hsome, hselects⟩
  · rw [hnone]
    exact .nothing
  · rw [hsome]
    have hentry := (Repository.mem_entries_iff h.ordered).mp hselects.mem
    have hbound : ∀ manifest ∈ repository.manifests, manifest.bundle.isSome :=
      fun manifest hmem => h.bound manifest.unfilled (List.mem_map_of_mem hmem)
    obtain ⟨manifest, bundle, -, -, hsource⟩ := Repository.exists_bundle hbound hentry
    apply led_ofMaterialization
    apply Materialization.led_start task now h
    · rw [hsource]
      rfl
    · rw [hentry]
      rfl

theorem led_resume (h : Tidy engine repository holds) {lookup : Lookup β}
    (hfit : lookup.materialization.Fit repository) :
    Led engine (lookup.resume engine task now repository).1
      (lookup.resume engine task now repository).2 := by
  apply led_ofMaterialization
  exact Materialization.led_resume task now h hfit

theorem led_find (h : Tidy engine repository holds) (query : Signature) :
    Led engine (repository.find engine query).1 (.done (repository.find engine query).2) := by
  cases hresult : (repository.find engine query).2 with
  | error error =>
      obtain ⟨archive, assetPath, rfl⟩ := h.error_of_find hresult
      exact .missing
  | ok found =>
      cases found with
      | none => exact .nothing
      | some replacement => exact .found (h.makes_of_find hresult)

/-- A lookup that is over never ends its repair. -/
theorem Led.settle {after : Repository σ β} {result : Result}
    (h : Led engine after (.done result)) :
    Repair.settle result = .ok (Repair.replacementOf result) := by
  cases h <;> rfl

theorem Led.makes {after : Repository σ β} {result : Result} {replacement : Replacement}
    (h : Led engine after (.done result))
    (hfound : Repair.replacementOf result = some replacement) :
    engine.Makes replacement.shader := by
  cases h with
  | nothing => cases hfound
  | found hmakes =>
      obtain rfl := Option.some.inj hfound
      exact hmakes
  | missing => cases hfound

end Lookup

end Loads

namespace Repair

/-! ### Rounds -/

/-- A round of a repair: a shader whose lookup is over. -/
structure Round (σ β : Type) where
  job : Job
  shader : Shader
  /-- What the lookup came to. -/
  result : Except RepositoryError (Option Replacement)
  /-- The world when the lookup was over. -/
  before : World σ β

namespace Round

/-- What the materials get instead of the shader. -/
def successor? (round : Round σ β) : Option Shader :=
  Repair.successor? round.job (replacementOf round.result) round.before

/-- What the round writes. -/
def writes (round : Round σ β) : List Materials.Write :=
  match round.successor? with
  | some new => round.before.materials.writesFor round.job.materials round.shader new
  | none => []

/-- The world after the round. -/
def after (round : Round σ β) : World σ β :=
  replace round.job round.shader (replacementOf round.result)
    (record round.job round.shader (replacementOf round.result) round.before)

theorem materials_after (round : Round σ β) :
    round.after.materials = round.before.materials.writeEach round.writes := by
  rw [after, replace_record_eq, writes]
  show round.before.materials.swap round.job.materials (round.shader, round.successor?) = _
  cases hnew : round.successor? with
  | none => rfl
  | some new => exact Materials.replace_eq_writeEach _ _ _ _

theorem layout_after (round : Round σ β) : round.after.layout = round.before.layout := by
  rw [after, replace_record_eq]

theorem repository_after (round : Round σ β) :
    round.after.repository = round.before.repository := by
  rw [after, replace_record_eq]

/-- **What a round writes**: in materials of the repair that show the shader, its replacement,
or the shader that stands in for shaders without one. -/
theorem mem_writes {round : Round σ β} {write : Materials.Write} (h : write ∈ round.writes) :
    write.material ∈ round.job.materials ∧
      round.before.materials.shader? write.material = some write.old ∧
      write.old.id = round.shader.id ∧ round.successor? = some write.new := by
  unfold writes at h
  split at h
  · rename_i new hnew
    obtain ⟨hamong, hshown, hid, rfl⟩ := Materials.mem_writesFor_iff.mp h
    exact ⟨hamong, hshown, hid, hnew⟩
  · cases h

end Round

/-- The shaders that a repair of the materials would replace. -/
def planned (world : World σ β) (materials : List MaterialId) : List Shader :=
  ((plan? world materials).map Prod.snd).getD []

theorem job_of_plan? {world : World σ β} {materials : List MaterialId} {job : Job}
    {shaders : List Shader} (h : plan? world materials = some (job, shaders)) :
    job = ⟨world.config, materials⟩ := by
  unfold plan? at h
  split at h
  · cases h
  · split at h
    · cases h
    · exact (congrArg Prod.fst (Option.some.inj h)).symm

/-- The shaders to be replaced are shown and do not support instanced rendering. -/
theorem mem_unsupported_of_planned {world : World σ β} {materials : List MaterialId}
    {shader : Shader} (h : shader ∈ planned world materials) :
    shader ∈ unsupported world materials := by
  unfold planned plan? at h
  split at h
  · cases h
  · split at h
    · cases h
    · exact h

/-- The rounds of work on shaders that is done at once. -/
def roundsAtOnce (engine : Engine σ β) (job : Job) :
    List Shader → World σ β → List (Round σ β)
  | [], _ => []
  | shader :: rest, world =>
      let (world, result) := world.withRepository (world.repository.find engine shader.query)
      match settle result with
      | .error _ => []
      | .ok _ =>
          let round := ⟨job, shader, result, world⟩
          round :: roundsAtOnce engine job rest round.after

/-- The rounds of a repair that is done at once. -/
def roundsOfFix (engine : Engine σ β) (thread : Thread) (materials : List MaterialId)
    (world : World σ β) : List (Round σ β) :=
  match thread, plan? world materials with
  | .main, some (job, shaders) => roundsAtOnce engine job shaders world
  | _, _ => []

namespace Run

/-- The rounds of a piece of work that goes on with the next of the shaders. -/
def rounds (engine : Engine σ β) (task : TaskId) (now : Nat) (job : Job) :
    List Shader → World σ β → List (Round σ β)
  | [], _ => []
  | shader :: rest, world =>
      match world.withRepository (Lookup.start engine task now shader.query world.repository) with
      | (_, .paused ..) => []
      | (world, .done result) =>
          match settle result with
          | .error _ => []
          | .ok _ =>
              let round := ⟨job, shader, result, world⟩
              round :: rounds engine task now job rest round.after

/-- The rounds of a piece of work that looks first whether the web phase is over. -/
def roundsOfAwait (engine : Engine σ β) (task : TaskId) (now : Nat) (job : Job)
    (shaders : List Shader) (wait : WebWait) (world : World σ β) : List (Round σ β) :=
  match world.withRepository (wait.poll now world.repository) with
  | (_, .paused ..) => []
  | (world, .done _) => rounds engine task now job shaders world

/-- The rounds of the first piece of work of a repair. -/
def roundsOfStart (engine : Engine σ β) (task : TaskId) (now : Nat) (thread : Thread)
    (materials : List MaterialId) (world : World σ β) : List (Round σ β) :=
  match thread, plan? world materials with
  | .main, some (job, shaders) =>
      roundsOfAwait engine task now job shaders
        ⟨now + (Duration.ofMillis job.config.webBundleTimeout).length⟩ world
  | _, _ => []

/-- The rounds of a piece of work after a pause. -/
def roundsOfResume (engine : Engine σ β) (task : TaskId) (now : Nat) (world : World σ β) :
    Run β → List (Round σ β)
  | .waiting job shaders wait => roundsOfAwait engine task now job shaders wait world
  | .lookingUp job shader rest _ lookup =>
      match world.withRepository (lookup.resume engine task now world.repository) with
      | (_, .paused ..) => []
      | (world, .done result) =>
          match settle result with
          | .error _ => []
          | .ok _ =>
              let round := ⟨job, shader, result, world⟩
              round :: rounds engine task now job rest round.after

/-- The job of a repair. -/
def job : Run β → Job
  | .waiting job .. => job
  | .lookingUp job .. => job

/-- The shaders that a repair has yet to replace. -/
def shaders : Run β → List Shader
  | .waiting _ shaders _ => shaders
  | .lookingUp _ shader rest .. => shader :: rest

/-- The names without replacement so far. -/
def missing : Run β → List String
  | .waiting .. => []
  | .lookingUp _ _ _ missing _ => missing

/-- Whether the load that a repair waits for, if it does, can succeed. -/
def Fit (repository : Repository σ β) : Run β → Prop
  | .waiting .. => True
  | .lookingUp _ _ _ _ lookup => lookup.materialization.Fit repository

end Run

/-! ### Pieces of work -/

/-- What a piece of work on the shaders of a repair comes to: some rounds, and then the end of
the repair or a pause in the next round. -/
inductive Course (engine : Engine σ β) (job : Job) :
    List Shader → List String → World σ β → List (Round σ β) →
      World σ β × Progress (Run β) Run.Result → Prop where
  | finished {missing : List String} {world : World σ β} (repository : Repository σ β) :
      Course engine job [] missing world []
        ((finish job missing { world with repository }).1, .done (.ok (.ofMissing missing)))
  | paused {shader : Shader} {rest : List Shader} {missing : List String} {world : World σ β}
      {repository : Repository σ β} {lookup : Lookup β} {pause : Pause}
      (hfit : lookup.materialization.Fit repository) :
      Course engine job (shader :: rest) missing world []
        ({ world with repository }, .paused (.lookingUp job shader rest missing lookup) pause)
  | round {shader : Shader} {rest : List Shader} {missing : List String} {world : World σ β}
      {repository : Repository σ β} {result : Lookup.Result} {rounds : List (Round σ β)}
      {step : World σ β × Progress (Run β) Run.Result}
      (hmade : ∀ new,
        Round.successor? ⟨job, shader, result, { world with repository }⟩ = some new →
          engine.Makes new)
      (hrest : Course engine job rest (missingAfter shader (replacementOf result) missing)
        (Round.after ⟨job, shader, result, { world with repository }⟩) rounds step) :
      Course engine job (shader :: rest) missing world
        (⟨job, shader, result, { world with repository }⟩ :: rounds) step

section Pieces

variable {engine : Engine σ β} {holds : TaskId → Hold} (task : TaskId) (now : Nat) {job : Job}

/-- What the materials get in a round comes from the engine. -/
theorem makes_of_led {world : World σ β} {repository : Repository σ β}
    (h : Tidy engine repository holds) {result : Lookup.Result}
    (hled : Lookup.Led engine repository (.done result)) (shader : Shader) :
    ∀ new, Round.successor? ⟨job, shader, result, { world with repository }⟩ = some new →
      engine.Makes new := by
  intro new hnew
  simp only [Round.successor?, successor?] at hnew
  split at hnew
  · rename_i replacement hfound
    obtain rfl := Option.some.inj hnew
    exact hled.makes hfound
  · split at hnew
    · cases hnew
    · exact h.invalid hnew

/-- The repository may change before a piece of work. -/
theorem Course.of_repository {shaders : List Shader} {missing : List String} {world : World σ β}
    {repository : Repository σ β} {rounds : List (Round σ β)}
    {step : World σ β × Progress (Run β) Run.Result}
    (h : Course engine job shaders missing { world with repository } rounds step) :
    Course engine job shaders missing world rounds step := by
  cases h with
  | finished repository => exact .finished repository
  | paused hfit => exact .paused hfit
  | round hmade hrest => exact .round hmade hrest

theorem Run.next_course {shaders : List Shader} {missing : List String} {world : World σ β}
    (h : Tidy engine world.repository holds) (hhold : holds task = .nothing) :
    Course engine job shaders missing world (rounds engine task now job shaders world)
      (next engine task now job shaders missing world) := by
  induction shaders generalizing missing world with
  | nil =>
      unfold next rounds
      exact .finished world.repository
  | cons shader rest ih =>
      have hled := Lookup.led_start task now h shader.query
      have hacts := Lookup.start_acts engine task now shader.query world.repository 0
      have htidy := hacts.keeps (Act.keeps_tidy engine) hhold h
      unfold next rounds
      cases hstart : Lookup.start engine task now shader.query world.repository with
      | mk repository progress =>
          rw [hstart] at hled htidy
          cases progress with
          | paused lookup pause =>
              cases hled with
              | paused hfit => exact .paused hfit
          | done result =>
              simp only [World.withRepository, hled.settle]
              have hkept : Tidy engine repository holds := by
                have hidle : Function.update holds task .nothing = holds := by
                  rw [← hhold, Function.update_eq_self]
                rwa [Progress.hold, hidle] at htidy
              refine .round (makes_of_led hkept hled shader) (ih ?_)
              rwa [Round.repository_after]

/-- Where rounds lead that change materials one after the other. -/
inductive Chain : Materials → List (Round σ β) → Materials → Prop where
  | nil {materials : Materials} : Chain materials [] materials
  | cons {round : Round σ β} {rounds : List (Round σ β)} {after : Materials}
      (hrest : Chain round.after.materials rounds after) :
      Chain round.before.materials (round :: rounds) after

/-- The names without replacement after some rounds. -/
def namesAfter (rounds : List (Round σ β)) (missing : List String) : List String :=
  rounds.foldl (fun missing round =>
    missingAfter round.shader (replacementOf round.result) missing) missing

theorem namesAfter_append (first second : List (Round σ β)) (missing : List String) :
    namesAfter (first ++ second) missing = namesAfter second (namesAfter first missing) :=
  List.foldl_append

/-- What holds of a piece of work of a repair: its rounds are on the first of the shaders, in
their order, and lead from the materials before to those after it. If the repair ends, all
shaders have had their rounds, and it reports the names without replacement; it does not
fail. -/
structure Piece (engine : Engine σ β) (job : Job) (shaders : List Shader) (missing : List String)
    (world : World σ β) (rounds : List (Round σ β))
    (step : World σ β × Progress (Run β) Run.Result) : Prop where
  chain : Chain world.materials rounds step.1.materials
  layout : step.1.layout = world.layout
  round : ∀ round ∈ rounds, round.job = job ∧ round.before.layout = world.layout ∧
    ∀ new, round.successor? = some new → engine.Makes new
  ends : ∀ result, step.2 = .done result →
    rounds.map Round.shader = shaders ∧ result = .ok (.ofMissing (namesAfter rounds missing))
  pauses : ∀ run pause, step.2 = .paused run pause →
    rounds.map Round.shader ++ run.shaders = shaders ∧ run.job = job ∧
      run.missing = namesAfter rounds missing ∧ run.Fit step.1.repository

theorem Chain.writeEach {materials after : Materials} {rounds : List (Round σ β)}
    (h : Chain materials rounds after) :
    after = materials.writeEach (rounds.flatMap Round.writes) := by
  induction h with
  | nil => rfl
  | @cons round rounds after _ ih =>
      rw [ih, Round.materials_after, List.flatMap_cons]
      exact List.foldl_append.symm

theorem Piece.mem {shaders : List Shader} {missing : List String} {world : World σ β}
    {rounds : List (Round σ β)} {step : World σ β × Progress (Run β) Run.Result}
    (h : Piece engine job shaders missing world rounds step) {round : Round σ β}
    (hmem : round ∈ rounds) : round.shader ∈ shaders := by
  have hround : round.shader ∈ rounds.map Round.shader := List.mem_map_of_mem hmem
  cases hstep : step.2 with
  | paused run pause =>
      rw [← (h.pauses run pause hstep).1]
      exact List.mem_append_left _ hround
  | done result => rwa [← (h.ends result hstep).1]

theorem Course.piece {shaders : List Shader} {missing : List String} {world : World σ β}
    {rounds : List (Round σ β)} {step : World σ β × Progress (Run β) Run.Result}
    (h : Course engine job shaders missing world rounds step) :
    Piece engine job shaders missing world rounds step := by
  induction h with
  | @finished missing world repository =>
      have hfinish := fst_finish job missing { world with repository }
      constructor
      · rw [hfinish]
        exact .nil
      · rw [hfinish]
      · exact fun round hmem => by cases hmem
      · exact fun result heq => ⟨rfl, (Progress.done.inj heq).symm⟩
      · exact fun run pause heq => by cases heq
  | paused hfit =>
      constructor
      · exact .nil
      · rfl
      · exact fun round hmem => by cases hmem
      · exact fun result heq => by cases heq
      · intro run pause heq
        obtain ⟨rfl, -⟩ := Progress.paused.inj heq
        exact ⟨rfl, rfl, rfl, hfit⟩
  | @round shader rest missing world repository result rounds step hmade hrest ih =>
      have hlayout := Round.layout_after ⟨job, shader, result, { world with repository }⟩
      constructor
      · exact .cons ih.chain
      · exact ih.layout.trans hlayout
      · intro round hmem
        rcases List.mem_cons.mp hmem with rfl | hmem
        · exact ⟨rfl, rfl, hmade⟩
        · obtain ⟨hjob, hbefore, hnew⟩ := ih.round round hmem
          exact ⟨hjob, hbefore.trans hlayout, hnew⟩
      · intro result heq
        obtain ⟨hshaders, hresult⟩ := ih.ends result heq
        exact ⟨congrArg (shader :: ·) hshaders, hresult⟩
      · intro run pause heq
        obtain ⟨hshaders, hrest⟩ := ih.pauses run pause heq
        exact ⟨congrArg (shader :: ·) hshaders, hrest⟩

/-- Where nothing is to be done, the repair ends at once. -/
theorem Piece.of_nothing {world : World σ β} :
    Piece engine job [] [] world [] (world, .done (.ok .allSupported)) where
  chain := .nil
  layout := rfl
  round _ hmem := by cases hmem
  ends _ heq := ⟨rfl, (Progress.done.inj heq).symm⟩
  pauses _ _ heq := by cases heq

namespace Run

theorem await_piece {shaders : List Shader} {wait : WebWait} {world : World σ β}
    (h : Tidy engine world.repository holds) (hhold : holds task = .nothing) :
    Piece engine job shaders [] world (roundsOfAwait engine task now job shaders wait world)
      (await engine task now job shaders wait world) := by
  unfold await roundsOfAwait WebWait.poll
  by_cases hdone : world.repository.webDone
  · rw [if_pos hdone]
    exact (next_course task now h hhold).piece
  · rw [if_neg hdone]
    by_cases hlate : wait.deadline ≤ now
    · rw [if_pos hlate]
      have htidy : Tidy engine world.repository.completeWeb holds := h.congr rfl rfl
      have hnext : Course engine job shaders []
          { world with repository := world.repository.completeWeb } _ _ :=
        next_course task now htidy hhold
      exact hnext.of_repository.piece
    · rw [if_neg hlate]
      constructor
      · exact .nil
      · rfl
      · exact fun round hmem => by cases hmem
      · exact fun result heq => by cases heq
      · intro run pause heq
        obtain ⟨rfl, -⟩ := Progress.paused.inj heq
        exact ⟨rfl, rfl, rfl, trivial⟩

/-- **The first piece of work of a repair.** -/
theorem start_piece {materials : List MaterialId} {world : World σ β}
    (h : Tidy engine world.repository holds) (hhold : holds task = .nothing) :
    Piece engine ⟨world.config, materials⟩ (planned world materials) [] world
      (roundsOfStart engine task now .main materials world)
      (start engine task now .main materials world) := by
  unfold start roundsOfStart planned
  cases hplan : plan? world materials with
  | none => exact Piece.of_nothing
  | some plan =>
      obtain ⟨job, shaders⟩ := plan
      obtain rfl := job_of_plan? hplan
      exact await_piece task now h hhold

/-- **Every further piece of work of a repair.** -/
theorem resume_piece {run : Run β} {world : World σ β}
    (h : Tidy engine world.repository holds) (hhold : holds task = run.hold)
    (hfit : run.Fit world.repository) :
    Piece engine run.job run.shaders run.missing world (roundsOfResume engine task now world run)
      (run.resume engine task now world) := by
  cases run with
  | waiting job shaders wait => exact await_piece task now h hhold
  | lookingUp job shader rest missing lookup =>
      have hled := Lookup.led_resume task now h hfit
      have hacts := lookup.resume_acts engine task now world.repository 0
      have htidy := hacts.keeps (Act.keeps_tidy engine) hhold h
      dsimp only [resume, roundsOfResume, World.withRepository]
      cases hresume : lookup.resume engine task now world.repository with
      | mk repository progress =>
          rw [hresume] at hled htidy
          cases progress with
          | paused lookup pause =>
              cases hled with
              | paused hfit => exact (Course.paused hfit).piece
          | done result =>
              simp only [hled.settle]
              have hidle : Function.update holds task .nothing task = .nothing :=
                Function.update_self task _ holds
              refine (Course.round (makes_of_led htidy hled shader)
                (next_course task now ?_ hidle)).piece
              rwa [Round.repository_after]

end Run

theorem replaceAll_course {shaders : List Shader} {missing : List String} {world : World σ β}
    (h : Tidy engine world.repository holds) (hfree : ∃ task, holds task = .nothing) :
    Course engine job shaders missing world (roundsAtOnce engine job shaders world)
      ((replaceAll engine job shaders missing world).1,
       .done (replaceAll engine job shaders missing world).2) := by
  induction shaders generalizing missing world with
  | nil => exact .finished world.repository
  | cons shader rest ih =>
      have hkept := Repository.find_keeps (Act.keeps_tidy engine) hfree h shader.query
      have hled := Lookup.led_find h shader.query
      unfold replaceAll roundsAtOnce
      cases hfind : world.repository.find engine shader.query with
      | mk repository result =>
          rw [hfind] at hkept hled
          simp only [World.withRepository, hled.settle]
          refine .round (makes_of_led hkept hled shader) (ih ?_)
          rwa [Round.repository_after]

/-- **A repair that is done at once.** -/
theorem fix_piece {materials : List MaterialId} {world : World σ β}
    (h : Tidy engine world.repository holds) (hfree : ∃ task, holds task = .nothing) :
    Piece engine ⟨world.config, materials⟩ (planned world materials) [] world
      (roundsOfFix engine .main materials world)
      ((fix engine .main materials world).1, .done (fix engine .main materials world).2) := by
  unfold fix roundsOfFix planned
  cases hplan : plan? world materials with
  | none => exact Piece.of_nothing
  | some plan =>
      obtain ⟨job, shaders⟩ := plan
      obtain rfl := job_of_plan? hplan
      exact (replaceAll_course h hfree).piece

end Pieces

end Repair

end ShaderMend
