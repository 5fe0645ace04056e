import ShaderMend.Proofs.Session.Holdings

/-!
# What happens in the course of a session

A row of moves leaves a session behind. What happened on the way is gathered move by move.

* `Session.mem_collect_iff` — what was gathered happened at one of the moves.
* `Session.answers_replay` — the answers of a session are the replies that its tasks ended
  with.
-/

namespace ShaderMend

variable {σ β : Type}

/-- The end of a task: the session before its last piece of work, its activity then, and
the reply. -/
structure Ending (σ β : Type) where
  before : Session σ β
  running : Running β
  reply : Reply σ β

/-- The answer that the end of a task gives. -/
def Ending.answer (ending : Ending σ β) : Answer σ β :=
  ⟨ending.running.task, ending.before.clock, ending.reply⟩

namespace Session

variable {engine : Engine σ β} {α : Type}

/-! ### Move by move -/

theorem replay_append (engine : Engine σ β) (earlier later : List Move)
    (session : Session σ β) :
    replay engine (earlier ++ later) session
      = replay engine later (replay engine earlier session) :=
  List.foldl_append

/-- What is seen of the moves of a row, in their order. -/
def collect (engine : Engine σ β) (see : Session σ β → Move → List α) :
    List Move → Session σ β → List α
  | [], _ => []
  | next :: rest, session => see session next ++ collect engine see rest (session.move engine next)

theorem collect_append (engine : Engine σ β) (see : Session σ β → Move → List α)
    (earlier later : List Move) (session : Session σ β) :
    collect engine see (earlier ++ later) session
      = collect engine see earlier session
        ++ collect engine see later (replay engine earlier session) := by
  induction earlier generalizing session with
  | nil => rfl
  | cons next rest ih =>
      rw [List.cons_append, collect, ih, collect, List.append_assoc]
      rfl

/-- **What was gathered was seen at one of the moves.** -/
theorem mem_collect_iff {see : Session σ β → Move → List α} {moves : List Move}
    {session : Session σ β} {item : α} :
    item ∈ collect engine see moves session ↔
      ∃ earlier next later, moves = earlier ++ next :: later ∧
        item ∈ see (replay engine earlier session) next := by
  constructor
  · intro hmem
    induction moves generalizing session with
    | nil => cases hmem
    | cons next rest ih =>
        rcases List.mem_append.mp hmem with hmem | hmem
        · exact ⟨[], next, rest, rfl, hmem⟩
        · obtain ⟨earlier, other, later, rfl, hseen⟩ := ih hmem
          exact ⟨next :: earlier, other, later, rfl, hseen⟩
  · rintro ⟨earlier, next, later, rfl, hseen⟩
    rw [collect_append]
    exact List.mem_append_right _ (List.mem_append_left _ hseen)

/-! ### Ends of tasks -/

/-- The task that ends with a move, if one does: it takes its last piece of work. -/
def endingsOf (engine : Engine σ β) (session : Session σ β) : Move → List (Ending σ β)
  | .resume task =>
      match session.activity? task with
      | some running =>
          match (session.advance engine running).2 with
          | .done reply => [⟨session, running, reply⟩]
          | .paused .. => []
      | none => []
  | _ => []

/-- The ends of tasks in the course of a row of moves. -/
def endings (engine : Engine σ β) : List Move → Session σ β → List (Ending σ β) :=
  collect engine (endingsOf engine)

theorem endingsOf_resume {session : Session σ β} {running : Running β}
    (hfound : session.activity? running.task = some running) :
    session.endingsOf engine (.resume running.task)
      = match (session.advance engine running).2 with
        | .done reply => [⟨session, running, reply⟩]
        | .paused .. => [] := by
  simp only [endingsOf, hfound]

/-- The end of a task is a piece of work that leads to a reply. -/
theorem mem_endingsOf {session : Session σ β} {next : Move} {ending : Ending σ β}
    (h : ending ∈ session.endingsOf engine next) :
    ending.before = session ∧ next = .resume ending.running.task ∧
      session.activity? ending.running.task = some ending.running ∧
      (session.advance engine ending.running).2 = .done ending.reply := by
  cases next with
  | resume task =>
      simp only [endingsOf] at h
      cases hfound : session.activity? task with
      | none => simp [hfound] at h
      | some running =>
          have htask := task_of_activity? hfound
          simp only [hfound] at h
          cases hstep : (session.advance engine running).2 with
          | paused state pause => simp [hstep] at h
          | done reply =>
              simp only [hstep, List.mem_singleton] at h
              subst h htask
              exact ⟨rfl, rfl, hfound, hstep⟩
  | _ => cases h

theorem move_resume {session : Session σ β} {running : Running β}
    (hfound : session.activity? running.task = some running) :
    session.move engine (.resume running.task) = session.resume engine running := by
  simp only [move, hfound]

theorem world_resume (engine : Engine σ β) (session : Session σ β) (running : Running β) :
    (session.resume engine running).world = (session.advance engine running).1 := by
  unfold resume
  cases session.advance engine running with
  | mk world progress => cases progress <;> rfl

/-- **An end of a task in the course of a row of moves**: what went before, and what comes
after the last piece of work. -/
theorem mem_endings {moves : List Move} {session : Session σ β} {ending : Ending σ β}
    (h : ending ∈ endings engine moves session) :
    ∃ earlier later, moves = earlier ++ .resume ending.running.task :: later ∧
      ending.before = replay engine earlier session ∧
      ending.before.activity? ending.running.task = some ending.running ∧
      (ending.before.advance engine ending.running).2 = .done ending.reply ∧
      replay engine moves session
        = replay engine later (ending.before.resume engine ending.running) := by
  obtain ⟨earlier, next, later, rfl, hseen⟩ := mem_collect_iff.mp h
  obtain ⟨hbefore, rfl, hfound, hstep⟩ := mem_endingsOf hseen
  rw [← hbefore] at hfound hstep
  refine ⟨earlier, later, rfl, hbefore, hfound, hstep, ?_⟩
  rw [replay_append, ← hbefore, ← move_resume hfound]
  rfl

theorem sound_of_ending {session : Session σ β} (hsound : session.Sound) {moves : List Move}
    {ending : Ending σ β} (h : ending ∈ endings engine moves session) :
    ending.before.Sound ∧ (ending.before.resume engine ending.running).Sound := by
  obtain ⟨earlier, later, -, hbefore, hfound, -⟩ := mem_endings h
  have hsoundBefore : ending.before.Sound := hbefore ▸ hsound.replay earlier
  refine ⟨hsoundBefore, ?_⟩
  rw [← move_resume hfound]
  exact hsoundBefore.move _

theorem answers_move (engine : Engine σ β) (session : Session σ β) (next : Move) :
    (session.move engine next).answers
      = session.answers ++ (session.endingsOf engine next).map Ending.answer := by
  cases next with
  | plan instant thread request => simp [move, plan, endingsOf]
  | resume task =>
      cases hfound : session.activity? task with
      | none => simp [move, endingsOf, hfound]
      | some running =>
          obtain rfl := task_of_activity? hfound
          rw [move_resume hfound, endingsOf_resume hfound]
          unfold resume
          cases session.advance engine running with
          | mk world progress => cases progress <;> simp [Ending.answer]
  | drop task =>
      cases hfound : session.activity? task with
      | none => simp [move, endingsOf, hfound]
      | some running => simp [move, endingsOf, hfound, drop]
  | wait duration => simp [move, endingsOf]

/-- **The answers of a session are the replies that its tasks ended with.** -/
theorem answers_replay (engine : Engine σ β) (moves : List Move) (session : Session σ β) :
    (replay engine moves session).answers
      = session.answers ++ (endings engine moves session).map Ending.answer := by
  induction moves generalizing session with
  | nil => simp [replay, endings, collect]
  | cons next rest ih =>
      have hrest := ih (session.move engine next)
      rw [answers_move, List.append_assoc, ← List.map_append] at hrest
      exact hrest

end Session

end ShaderMend
