import ShaderMend.Config
import ShaderMend.Diagnostics
import ShaderMend.Notice
import ShaderMend.Repository
import ShaderMend.Scene

/-!
# The world of a repair

All that a repair sees and changes: the repository, the shaders of the materials, the
options, the records kept of earlier repairs, the channel for notices, and the files.
-/

namespace ShaderMend

/-- What requests share. -/
structure World (σ β : Type) where
  repository : Repository σ β
  materials : Materials
  config : Config
  /-- The layout by which bytecode is read. -/
  layout : Bytecode.Layout
  records : Diagnostics
  /-- The channel for notices, if somebody is to be told. -/
  notices : Option Channel
  files : FileTree
  deriving Repr

namespace World

variable {σ β α : Type}

/-- The world after a change of the repository. -/
def withRepository (world : World σ β) : Repository σ β × α → World σ β × α
  | (repository, value) => ({ world with repository }, value)

/-- The world with its channel for notices changed. -/
def modifyNotices (world : World σ β) (change : Channel → Channel) : World σ β :=
  { world with notices := world.notices.map change }

end World

end ShaderMend
