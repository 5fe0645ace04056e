import ShaderMend.Repair
import ShaderMend.Repository.Materialization
import ShaderMend.Repository.WebWait

/-!
# Repairs that do not block

Such a repair takes note of the options and of the shaders to replace at its start.
It waits for the web phase to be over, and then replaces the shaders one after the
other, pausing while the engine loads. Other tasks may change the materials meanwhile;
what they show counts at the moment of replacing.
-/

namespace ShaderMend.Repair

/-- A repair between two pieces of work. -/
inductive Run (β : Type) where
  | waiting (job : Job) (shaders : List Shader) (wait : WebWait)
  | lookingUp (job : Job) (shader : Shader) (rest : List Shader) (missing : List String)
      (lookup : Lookup β)
  deriving Repr

namespace Run

variable {σ β : Type}

/-- What the repair has in the end. -/
abbrev Result := Except Error Outcome

/-- Goes on with the next of the shaders. -/
def next (engine : Engine σ β) (task : TaskId) (now : Nat) (job : Job) :
    List Shader → List String → World σ β → World σ β × Progress (Run β) Result
  | [], missing, world =>
      let (world, outcome) := finish job missing world
      (world, .done (.ok outcome))
  | shader :: rest, missing, world =>
      match world.withRepository (Lookup.start engine task now shader.query world.repository) with
      | (world, .paused lookup pause) =>
          (world, .paused (.lookingUp job shader rest missing lookup) pause)
      | (world, .done result) =>
          match settle result with
          | .error error => (world, .done (.error error))
          | .ok replacement =>
              next engine task now job rest (missingAfter shader replacement missing)
                (replace job shader replacement (record job shader replacement world))

/-- Looks whether the web phase is over, and if so begins with the shaders. -/
def await (engine : Engine σ β) (task : TaskId) (now : Nat) (job : Job) (shaders : List Shader)
    (wait : WebWait) (world : World σ β) : World σ β × Progress (Run β) Result :=
  match world.withRepository (wait.poll now world.repository) with
  | (world, .paused wait pause) => (world, .paused (.waiting job shaders wait) pause)
  | (world, .done _) => next engine task now job shaders [] world

/-- The repair of materials begins. A timeout in the options is less than 2 ^ 64 milliseconds,
which the clock has room for. -/
def start (engine : Engine σ β) (task : TaskId) (now : Nat) (thread : Thread)
    (materials : List MaterialId) (world : World σ β) : World σ β × Progress (Run β) Result :=
  match thread, plan? world materials with
  | .other, _ => (world, .done (.error .notMainThread))
  | .main, none => (world, .done (.ok .allSupported))
  | .main, some (job, shaders) =>
      await engine task now job shaders
        ⟨now + (Duration.ofMillis job.config.webBundleTimeout).length⟩ world

/-- The repair goes on after its pause. -/
def resume (engine : Engine σ β) (task : TaskId) (now : Nat) (world : World σ β) :
    Run β → World σ β × Progress (Run β) Result
  | .waiting job shaders wait => await engine task now job shaders wait world
  | .lookingUp job shader rest missing lookup =>
      match world.withRepository (lookup.resume engine task now world.repository) with
      | (world, .paused lookup pause) =>
          (world, .paused (.lookingUp job shader rest missing lookup) pause)
      | (world, .done result) =>
          match settle result with
          | .error error => (world, .done (.error error))
          | .ok replacement =>
              next engine task now job rest (missingAfter shader replacement missing)
                (replace job shader replacement (record job shader replacement world))

/-- The repair is dropped: it gives back what it holds. -/
def drop (task : TaskId) (run : Run β) (world : World σ β) : World σ β :=
  match run with
  | .waiting .. => world
  | .lookingUp _ _ _ _ lookup => { world with repository := lookup.drop task world.repository }

end Run

end ShaderMend.Repair
