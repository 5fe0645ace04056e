import ShaderMend.Shader.Object

/-!
# Cells that are filled once

An entry keeps its shader in a cell that is filled at most once. Tasks that find it
empty fill it one at a time: the first becomes the holder and loads, the others
queue. A holder that succeeds serves the whole queue; one that fails hands over to
the next in line. A shader brought from outside while someone holds the cell is not
kept.

* `stored_store`, `stored_request`, `stored_fail` — a shader that is stored stays.
-/

namespace ShaderMend

/-- A task, by its number. -/
abbrev TaskId := Nat

/-- The place of a shader that is loaded at most once. -/
structure Cell where
  stored : Option Shader
  /-- The task that is loading. -/
  holder : Option TaskId
  /-- The tasks that wait for it, first come first. -/
  queue : List TaskId
  deriving DecidableEq, Repr

namespace Cell

/-- Nothing stored, nobody there. -/
def empty : Cell := ⟨none, none, []⟩

/-- Where a task stands. -/
inductive Turn where
  | ready (shader : Shader)
  | hold
  | wait
  deriving DecidableEq, Repr

/-- Stores a shader loaded without waiting, unless a task holds the cell. Returns the
shader to use. -/
def store (cell : Cell) (shader : Shader) : Cell × Shader :=
  match cell.stored, cell.holder with
  | some first, _ => (cell, first)
  | none, some _ => (cell, shader)
  | none, none => ({ cell with stored := some shader }, shader)

/-- A task asks for the shader. -/
def request (cell : Cell) (task : TaskId) : Cell × Turn :=
  match cell.stored, cell.holder with
  | some shader, _ => (cell, .ready shader)
  | none, none => ({ cell with holder := some task }, .hold)
  | none, some _ => ({ cell with queue := cell.queue ++ [task] }, .wait)

/-- Where a task in the queue stands now. -/
def turn (cell : Cell) (task : TaskId) : Turn :=
  match cell.stored with
  | some shader => .ready shader
  | none => if cell.holder = some task then .hold else .wait

/-- The holder has loaded the shader. -/
def fill (cell : Cell) (shader : Shader) : Cell :=
  { cell with stored := some shader, holder := none, queue := [] }

/-- The holder has failed: the next in line holds. -/
def fail (cell : Cell) : Cell :=
  match cell.queue with
  | [] => { cell with holder := none }
  | next :: queue => { cell with holder := some next, queue }

/-- A task leaves, whether it holds the cell or waits for it. -/
def leave (cell : Cell) (task : TaskId) : Cell :=
  if cell.holder = some task then cell.fail
  else { cell with queue := cell.queue.filter (· ≠ task) }

theorem stored_store {cell : Cell} {first : Shader} (h : cell.stored = some first)
    (shader : Shader) :
    (cell.store shader).1.stored = some first ∧ (cell.store shader).2 = first := by
  simp [store, h]

theorem stored_request (cell : Cell) (task : TaskId) :
    (cell.request task).1.stored = cell.stored := by
  unfold request
  split <;> rfl

theorem stored_fail (cell : Cell) : cell.fail.stored = cell.stored := by
  unfold fail
  split <;> rfl

end Cell

end ShaderMend
