import ShaderMend.Repository

/-!
# Suspended work

Work that does not block is done in pieces. At the end of a piece it is either done or
pauses: until an instant, or until it is its turn at the cell of an entry. Instants
are nanoseconds of one clock.
-/

namespace ShaderMend

/-! ### Time -/

/-- A span of time: seconds, and nanoseconds that are less than one. -/
structure Duration where
  seconds : UInt64
  nanoseconds : Fin 1000000000
  deriving DecidableEq, Repr

/-- A millisecond, in nanoseconds. -/
def millisecond : Nat := 1000000

namespace Duration

/-- The span in nanoseconds. -/
def length (duration : Duration) : Nat :=
  1000000000 * duration.seconds.toNat + duration.nanoseconds

/-- The span of so many milliseconds. -/
def ofMillis (count : UInt64) : Duration :=
  ⟨count / 1000, ⟨millisecond * (count % 1000).toNat, by
    rw [UInt64.toNat_mod, millisecond]
    have hlt := Nat.mod_lt count.toNat (by decide : 0 < (1000 : UInt64).toNat)
    have hthousand : (1000 : UInt64).toNat = 1000 := rfl
    omega⟩⟩

end Duration

/-- The end of the clock, which counts seconds in signed numbers of 64 bits. -/
def endOfTime : Nat := 1000000000 * 0x8000000000000000

/-- The instant after a span of time, if the clock has it. -/
def deadline? (now : Nat) (timeout : Duration) : Option Nat :=
  if now + timeout.length < endOfTime then some (now + timeout.length) else none

theorem deadline?_eq_none_iff {now : Nat} {timeout : Duration} :
    deadline? now timeout = none ↔ endOfTime ≤ now + timeout.length := by
  rw [deadline?]
  by_cases h : now + timeout.length < endOfTime
  · rw [if_pos h]
    exact ⟨fun heq => (nomatch heq), fun hle => absurd h (Nat.not_lt.mpr hle)⟩
  · rw [if_neg h]
    exact ⟨fun _ => Nat.le_of_not_lt h, fun _ => rfl⟩

/-! ### Pauses -/

/-- What a piece of work waits for. -/
inductive Pause where
  | until (instant : Nat)
  | turn (entry : EntryId)
  deriving DecidableEq, Repr

/-- What a piece of work leads to: it pauses in a state, or is done. -/
inductive Progress (τ α : Type) where
  | paused (state : τ) (pause : Pause)
  | done (value : α)
  deriving Repr

namespace Progress

variable {τ υ α β : Type}

/-- The progress of work that has the work as its part. -/
def within (wrap : τ → υ) (finish : α → β) : Progress τ α → Progress υ β
  | .paused state pause => .paused (wrap state) pause
  | .done value => .done (finish value)

end Progress

/-- Whether the pause of a task is over. -/
def Pause.isOver {σ β : Type} (repository : Repository σ β) (task : TaskId) (now : Nat) :
    Pause → Bool
  | .until instant => instant ≤ now
  | .turn entry =>
      match (repository.cell entry).turn task with
      | .wait => false
      | .hold | .ready _ => true

/-- How long a task waits before it tries again: ten milliseconds. -/
def retryInterval : Nat := 10 * millisecond

end ShaderMend
