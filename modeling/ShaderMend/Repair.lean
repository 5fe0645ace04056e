import ShaderMend.Repair.Outcome
import ShaderMend.Repository.Search
import ShaderMend.World

/-!
# Repairs

A repair replaces the shaders of some materials that do not support instanced
rendering. For each it finds the best replacement, keeps a record, and gives the
replacement to all materials that show the shader at that moment. The names of shaders
without replacement are reported, and a notice of them may be sent.

`Repair.fix` repairs at once.
-/

namespace ShaderMend.Repair

variable {σ β : Type}

/-- Why a repair fails. -/
inductive Error where
  | notMainThread
  | repository (error : RepositoryError)
  deriving DecidableEq, Repr

/-- The text shown for a failure. -/
def Error.message : Error → String
  | .notMainThread => "la réparation doit être lancée depuis le thread principal"
  | .repository error => error.message

/-- What a repair is given: the options as they were at its start, and the materials. -/
structure Job where
  config : Config
  materials : List MaterialId
  deriving Repr

/-! ### What is to be done -/

/-- The shaders that materials show and that do not support instanced rendering, each
once. -/
def unsupported (world : World σ β) (materials : List MaterialId) : List Shader :=
  (distinctBy Shader.id (materials.filterMap world.materials.shader?)).filter fun shader =>
    !shader.isSupported world.layout

/-- The job on some materials and the shaders to replace, if there is anything to
do. -/
def plan? (world : World σ β) (materials : List MaterialId) : Option (Job × List Shader) :=
  if world.config.enableMultiPassRendering then none
  else
    match unsupported world materials with
    | [] => none
    | shaders => some (⟨world.config, materials⟩, shaders)

/-- Whether a shader can stay. Only the main thread may look at its memory. -/
def isSupported (thread : Thread) (world : World σ β) (shader : Shader) : Except Error Bool :=
  match thread with
  | .main => .ok (shader.isSupported world.layout)
  | .other => .error .notMainThread

/-! ### One shader -/

/-- What a lookup means for its shader. A replacement whose asset is missing is no
replacement; any other failure ends the repair. -/
def settle : Except RepositoryError (Option Replacement) → Except Error (Option Replacement)
  | .ok replacement => .ok replacement
  | .error (.assetNotFound ..) => .ok none
  | .error error => .error (.repository error)

/-- The world with a record on a shader, if records are kept. -/
def record (job : Job) (shader : Shader) (replacement : Option Replacement)
    (world : World σ β) : World σ β :=
  if job.config.shaderDebugging then
    { world with
      records := world.records.add
        { query := shader.query
          replacement := replacement.map fun replacement => replacement.name
          found := replacement.map fun replacement => replacement.found } }
  else world

/-- What the materials get instead of a shader: its replacement, or else, unless they
are to be left alone, the shader that shows that there is none. -/
def successor? (job : Job) (replacement : Option Replacement) (world : World σ β) :
    Option Shader :=
  match replacement with
  | some replacement => some replacement.shader
  | none => if job.config.showUnsupportedShaders then none else world.repository.invalid

/-- Gives the materials of the job that show a shader what they get instead. -/
def replace (job : Job) (shader : Shader) (replacement : Option Replacement)
    (world : World σ β) : World σ β :=
  match successor? job replacement world with
  | some successor =>
      { world with materials := world.materials.replace job.materials shader successor }
  | none => world

/-- The names without replacement after one more shader. -/
def missingAfter (shader : Shader) (replacement : Option Replacement) (missing : List String) :
    List String :=
  if replacement.isSome ∨ shader.name ∈ missing then missing else missing ++ [shader.name]

/-! ### All shaders -/

/-- The end of a repair: a notice of the names without replacement, if one is wanted,
and the report. -/
def finish (job : Job) (missing : List String) (world : World σ β) : World σ β × Outcome :=
  let world :=
    if !missing.isEmpty ∧ job.config.showUnresolvedNotice then
      world.modifyNotices fun channel => (channel.dispatch ⟨missing⟩).1
    else world
  (world, .ofMissing missing)

/-- Replaces shaders one after the other. -/
def replaceAll (engine : Engine σ β) (job : Job) :
    List Shader → List String → World σ β → World σ β × Except Error Outcome
  | [], missing, world =>
      let (world, outcome) := finish job missing world
      (world, .ok outcome)
  | shader :: rest, missing, world =>
      let (world, result) := world.withRepository (world.repository.find engine shader.query)
      match settle result with
      | .error error => (world, .error error)
      | .ok replacement =>
          replaceAll engine job rest (missingAfter shader replacement missing)
            (replace job shader replacement (record job shader replacement world))

/-- Repairs materials at once. -/
def fix (engine : Engine σ β) (thread : Thread) (materials : List MaterialId)
    (world : World σ β) : World σ β × Except Error Outcome :=
  match thread, plan? world materials with
  | .other, _ => (world, .error .notMainThread)
  | .main, none => (world, .ok .allSupported)
  | .main, some (job, shaders) => replaceAll engine job shaders [] world

end ShaderMend.Repair
