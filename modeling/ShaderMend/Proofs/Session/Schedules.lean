import Mathlib.Data.Nat.Pairing
import ShaderMend.Proofs.Session.Downloads
import ShaderMend.Proofs.Session.Pauses

/-!
# Schedules without end

A schedule says what happens in a session, move by move and without end.

* `Session.Fair` — whoever can go on does, or is dropped, and time passes.
* `Session.Fair.turn_of_until`, `Session.Fair.turn_of_ready` — under a fair schedule a task takes
  a turn that pauses until an instant, or that can go on.
* `Session.fair_inTurn` — every row of moves goes on in a fair schedule.
-/

namespace ShaderMend

variable {σ β : Type}

namespace Session

/-- The session after the first moves of a schedule. -/
def upTo (engine : Engine σ β) (schedule : Nat → Move) (start : Session σ β) (count : Nat) :
    Session σ β :=
  replay engine ((List.range count).map schedule) start

/-- Whether a task takes a turn with a move: it goes on, or it is dropped. -/
def Move.Concerns (next : Move) (task : TaskId) : Prop :=
  next = .resume task ∨ next = .drop task

/-- Whether a schedule is fair: a task that can go on takes a turn at some time, and there is no
end of time. -/
structure Fair (engine : Engine σ β) (schedule : Nat → Move) (start : Session σ β) : Prop where
  turns : ∀ count, ∀ running ∈ (upTo engine schedule start count).running,
    (upTo engine schedule start count).isReady running = true →
      ∃ later, count ≤ later ∧ (schedule later).Concerns running.task
  time : ∀ instant, ∃ count, instant ≤ (upTo engine schedule start count).clock

variable {engine : Engine σ β} {session start : Session σ β} {schedule : Nat → Move}

theorem upTo_succ (engine : Engine σ β) (schedule : Nat → Move) (start : Session σ β)
    (count : Nat) :
    upTo engine schedule start (count + 1)
      = (upTo engine schedule start count).move engine (schedule count) := by
  rw [upTo, List.range_succ, List.map_append, replay_append]
  rfl

/-! ### Time -/

theorem clock_move_le (engine : Engine σ β) (session : Session σ β) (next : Move) :
    session.clock ≤ (session.move engine next).clock := by
  have hmoved := session.moved engine next
  generalize session.move engine next = after at hmoved
  cases hmoved with
  | @resume running hfound =>
      unfold resume
      cases session.advance engine running with
      | mk world progress => cases progress <;> exact Nat.le_refl _
  | drop hfound => exact Nat.le_refl _
  | plan instant thread request => exact Nat.le_refl _
  | wait duration => exact Nat.le_add_right _ _
  | idle next => exact Nat.le_refl _

theorem clock_upTo_mono {first last : Nat} (h : first ≤ last) :
    (upTo engine schedule start first).clock ≤ (upTo engine schedule start last).clock := by
  induction last, h using Nat.le_induction with
  | base => exact Nat.le_refl _
  | succ last _ ih =>
      rw [upTo_succ]
      exact ih.trans (clock_move_le engine _ _)

/-! ### Turns -/

/-- Who takes no turn with a move stays as it is. -/
theorem activity?_move_of_not_concerns {next : Move} {running : Running β}
    (hfound : session.activity? running.task = some running)
    (h : ¬ next.Concerns running.task) :
    (session.move engine next).activity? running.task = some running := by
  have hmoved := session.moved engine next
  generalize session.move engine next = after at hmoved
  cases hmoved with
  | plan instant thread request => exact activity?_plan hfound instant thread request
  | @resume other hother =>
      have hne : running.task ≠ other.task :=
        fun heq => h (Or.inl (congrArg Move.resume heq.symm))
      rwa [activity?_resume_of_ne engine session hne]
  | @drop other hother =>
      have hne : running.task ≠ other.task :=
        fun heq => h (Or.inr (congrArg Move.drop heq.symm))
      rwa [activity?_drop_of_ne session hne]
  | wait duration => exact hfound
  | idle next => exact hfound

variable {count : Nat} {running : Running β}

theorem activity?_upTo_of_not_concerns
    (hfound : (upTo engine schedule start count).activity? running.task = some running)
    {last : Nat} (hle : count ≤ last)
    (h : ∀ middle, count ≤ middle → middle < last → ¬ (schedule middle).Concerns running.task) :
    (upTo engine schedule start last).activity? running.task = some running := by
  induction last, hle using Nat.le_induction with
  | base => exact hfound
  | succ last hle ih =>
      rw [upTo_succ]
      apply activity?_move_of_not_concerns
      · exact ih fun middle hmiddle hlt => h middle hmiddle (Nat.lt_succ_of_lt hlt)
      · exact h last hle (Nat.lt_succ_self last)

/-- The next turn of a task, which finds it as it was. -/
structure NextTurn (engine : Engine σ β) (schedule : Nat → Move) (start : Session σ β)
    (count : Nat) (running : Running β) (later : Nat) : Prop where
  le : count ≤ later
  concerns : (schedule later).Concerns running.task
  between : ∀ middle, count ≤ middle → middle < later → ¬ (schedule middle).Concerns running.task
  found : (upTo engine schedule start later).activity? running.task = some running

theorem exists_nextTurn
    (hfound : (upTo engine schedule start count).activity? running.task = some running)
    (hturn : ∃ later, count ≤ later ∧ (schedule later).Concerns running.task) :
    ∃ later, NextTurn engine schedule start count running later := by
  classical
  obtain ⟨hle, hconcerns⟩ := Nat.find_spec hturn
  have hbetween : ∀ middle, count ≤ middle → middle < Nat.find hturn →
      ¬ (schedule middle).Concerns running.task :=
    fun middle hmiddle hlt hearlier => Nat.find_min hturn hlt ⟨hmiddle, hearlier⟩
  exact ⟨Nat.find hturn, hle, hconcerns, hbetween,
    activity?_upTo_of_not_concerns hfound hle hbetween⟩

/-- **Under a fair schedule a task takes a turn that can go on.** -/
theorem Fair.turn_of_ready (h : Fair engine schedule start)
    (hfound : (upTo engine schedule start count).activity? running.task = some running)
    (hready : (upTo engine schedule start count).isReady running = true) :
    ∃ later, NextTurn engine schedule start count running later :=
  exists_nextTurn hfound (h.turns count running (mem_of_activity? hfound) hready)

/-- **Under a fair schedule a task takes a turn that pauses until an instant.** -/
theorem Fair.turn_of_until (h : Fair engine schedule start)
    (hfound : (upTo engine schedule start count).activity? running.task = some running)
    {instant : Nat} (hpause : running.pause = .until instant) :
    ∃ later, NextTurn engine schedule start count running later := by
  apply exists_nextTurn hfound
  by_cases hturn : ∃ later, count ≤ later ∧ (schedule later).Concerns running.task
  · exact hturn
  · -- Else it is as it was when the instant has come, and can go on.
    obtain ⟨due, hdue⟩ := h.time instant
    have hlater : (upTo engine schedule start (max count due)).activity? running.task
        = some running := by
      apply activity?_upTo_of_not_concerns hfound (Nat.le_max_left count due)
      exact fun middle hmiddle _ hconcerns => hturn ⟨middle, hmiddle, hconcerns⟩
    have hready : (upTo engine schedule start (max count due)).isReady running = true := by
      have hclock := hdue.trans (clock_upTo_mono (Nat.le_max_right count due))
      rw [isReady, hpause]
      exact decide_eq_true hclock
    obtain ⟨later, hle, hconcerns, -⟩ := h.turn_of_ready hlater hready
    exact ⟨later, (Nat.le_max_left count due).trans hle, hconcerns⟩

/-! ### Taking turns for ever -/

/-- A schedule that begins with a row of moves; then all tasks go on again and again, while time
passes. -/
def inTurn (moves : List Move) (count : Nat) : Move :=
  match moves[count]? with
  | some next => next
  | none =>
      let round := count - moves.length
      if round % 2 = 0 then .wait 1 else .resume (Nat.unpair (round / 2)).1

theorem inTurn_wait (moves : List Move) (round : Nat) :
    inTurn moves (moves.length + 2 * round) = .wait 1 := by
  have hround : moves.length + 2 * round - moves.length = 2 * round := by omega
  simp [inTurn, hround]

theorem inTurn_resume (moves : List Move) (task round : Nat) :
    inTurn moves (moves.length + (2 * Nat.pair task round + 1)) = .resume task := by
  have hround : moves.length + (2 * Nat.pair task round + 1) - moves.length
      = 2 * Nat.pair task round + 1 := by omega
  have hhalf : (2 * Nat.pair task round + 1) / 2 = Nat.pair task round := by omega
  simp [inTurn, hround, hhalf]

/-- What is not one of the moves at the beginning, a wait, or the turn of a task does not
happen. -/
theorem inTurn_ne {moves : List Move} {next : Move} (hmoves : next ∉ moves)
    (hwait : next ≠ .wait 1) (hresume : ∀ task, next ≠ .resume task) (count : Nat) :
    inTurn moves count ≠ next := by
  rintro rfl
  unfold inTurn at hmoves hwait hresume
  cases hnext : moves[count]? with
  | some next =>
      rw [hnext] at hmoves
      exact hmoves (List.mem_of_getElem? hnext)
  | none =>
      rw [hnext] at hwait hresume
      dsimp only at hwait hresume
      split at hwait
      · exact hwait rfl
      · rename_i hodd
        rw [if_neg hodd] at hresume
        exact hresume _ rfl

theorem map_inTurn (moves : List Move) : (List.range moves.length).map (inTurn moves) = moves := by
  apply List.ext_getElem
  · simp
  · intro index _ hindex
    simp [inTurn, hindex]

theorem clock_inTurn_le (engine : Engine σ β) (moves : List Move) (start : Session σ β)
    (instant : Nat) :
    instant ≤ (upTo engine (inTurn moves) start (moves.length + 2 * instant)).clock := by
  induction instant with
  | zero => exact Nat.zero_le _
  | succ instant ih =>
      have hwait : (upTo engine (inTurn moves) start (moves.length + 2 * instant + 1)).clock
          = (upTo engine (inTurn moves) start (moves.length + 2 * instant)).clock + 1 := by
        rw [upTo_succ, inTurn_wait]
        rfl
      have hmono : (upTo engine (inTurn moves) start (moves.length + 2 * instant + 1)).clock
          ≤ (upTo engine (inTurn moves) start (moves.length + 2 * (instant + 1))).clock :=
        clock_upTo_mono (by omega)
      rw [hwait] at hmono
      exact (Nat.succ_le_succ ih).trans hmono

/-- **Every row of moves goes on in a fair schedule.** -/
theorem fair_inTurn (engine : Engine σ β) (moves : List Move) (start : Session σ β) :
    Fair engine (inTurn moves) start where
  turns count running _ _ := by
    refine ⟨moves.length + (2 * Nat.pair running.task count + 1), ?_,
      Or.inl (inTurn_resume moves running.task count)⟩
    have hle := Nat.right_le_pair running.task count
    omega
  time instant := ⟨_, clock_inTurn_le engine moves start instant⟩

end Session

end ShaderMend
