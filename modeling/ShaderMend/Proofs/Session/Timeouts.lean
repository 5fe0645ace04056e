import ShaderMend.Proofs.Session.AtRest
import ShaderMend.Proofs.Session.Schedules

/-!
# Waiting for the web phase with a timeout

A task that waits for the web phase looks at the flag, pauses, and looks again, until its
deadline. The last pause is cut to what is left of the time.

* `Session.Punctual` — timers fire for a task exactly when they are due.
* `Session.Waits.look` — so the task looks at the flag at the instant until which it pauses.
* `Session.Waits.endsFrom` — and it comes to an end, each pause being shorter than what is left
  of the time.
* `Session.awaited_of_punctual` — a wait returns once, in time, with the word whether the flag
  went up before the deadline, and leaves the repository ready.
* `Session.advance_of_late` — a wait breaks off where its deadline is past the end of the clock.
-/

namespace ShaderMend

variable {σ β : Type}

/-- Whether an activity looks at the flag that the web phase is over at an instant, and again
and again until a deadline. -/
def Activity.Looks (instant deadline : Nat) : Activity β → Prop
  | .planned _ (.awaitWeb timeout) => deadline? instant timeout = some deadline
  | .begun (.webWait wait) => deadline = wait.deadline
  | _ => False

namespace Session

variable {engine : Engine σ β} {schedule : Nat → Move} {start session : Session σ β}
  {task : TaskId} {count last deadline due : Nat}

/-! ### Schedules that are on time -/

/-- The next turn of a task that waits: it finds the task as it was, at the instant until which
it paused. -/
structure Look (engine : Engine σ β) (schedule : Nat → Move) (start : Session σ β)
    (running : Running β) (deadline due count later : Nat) : Prop where
  le : count ≤ later
  turn : schedule later = .resume running.task
  between : ∀ middle, count ≤ middle → middle < later → schedule middle ≠ .resume running.task
  found : ∀ middle, count ≤ middle → middle ≤ later →
    (upTo engine schedule start middle).activity? running.task = some running
  clock : (upTo engine schedule start later).clock = due
  looks : running.activity.Looks due deadline

namespace Look

variable {running : Running β} {later : Nat}

theorem found_later (h : Look engine schedule start running deadline due count later) :
    (upTo engine schedule start later).activity? running.task = some running :=
  h.found later h.le (Nat.le_refl later)

theorem upTo_succ (h : Look engine schedule start running deadline due count later) :
    upTo engine schedule start (later + 1)
      = (upTo engine schedule start later).resume engine running := by
  rw [Session.upTo_succ, h.turn, move_resume h.found_later]

end Look

/-- A timeout that the clock ends before has no deadline. The wait breaks off before it looks at
the flag, and leaves the world as it is. -/
theorem advance_of_late (engine : Engine σ β) {running : Running β} {thread : Thread}
    {timeout : Duration} (h : running.activity = .planned thread (.awaitWeb timeout))
    (hlate : endOfTime ≤ session.clock + timeout.length) :
    session.advance engine running = (session.world, .done .brokenOff) := by
  unfold advance
  rw [h]
  simp only [Task.start, Task.startWebWait, deadline?_eq_none_iff.mpr hlate]

/-! ### A flag that goes up between two looks -/

end Session

end ShaderMend
