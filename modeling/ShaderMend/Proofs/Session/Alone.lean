import ShaderMend.Proofs.Session.Holdings

/-!
# Tasks that run alone

A task that runs alone takes one turn after the other, and time passes as it likes. What it
comes to may still depend on when it takes its turns; where it does not, it comes to one end.

* `Comes.followed` — work that has other work as its first part comes to what the rest does.
* `Session.comesTo_of_comes` — a request whose work comes to one end comes to it in a session in
  which nothing else happens.
-/

namespace ShaderMend

variable {σ β : Type}

/-! ### Work that comes to one end -/

/-- Whether a piece of work leads to a state and a value, whenever the work goes on, after so
many more turns at most. -/
inductive Comes {ω τ α : Type} (resume : Nat → ω → τ → ω × Progress τ α) (after : ω) (value : α) :
    Nat → ω × Progress τ α → Prop where
  | done {turns : Nat} : Comes resume after value turns (after, .done value)
  | paused {turns : Nat} {state : ω} {work : τ} {pause : Pause}
      (h : ∀ now, Comes resume after value turns (resume now state work)) :
      Comes resume after value (turns + 1) (state, .paused work pause)

/-- A piece of work as the first part of other work, which goes on with `next`. -/
def followedBy {ω τ α ω' τ' α' : Type} (embed : ω → ω') (wrap : τ → τ')
    (next : ω → α → ω' × Progress τ' α') : ω × Progress τ α → ω' × Progress τ' α'
  | (state, .paused work pause) => (embed state, .paused (wrap work) pause)
  | (state, .done value) => next state value

namespace Comes

variable {ω τ α ω' τ' α' : Type} {resume : Nat → ω → τ → ω × Progress τ α} {after : ω} {value : α}
  {turns : Nat} {step : ω × Progress τ α}

theorem mono (h : Comes resume after value turns step) {more : Nat} (hle : turns ≤ more) :
    Comes resume after value more step := by
  induction h generalizing more with
  | done => exact .done
  | paused _ ih =>
      cases more with
      | zero => exact absurd hle (Nat.not_succ_le_zero _)
      | succ more => exact .paused fun now => ih now (Nat.le_of_succ_le_succ hle)

/-- **Work in two parts**: where the first comes to one end, and what follows it does so from
there, both do together. -/
theorem followed {resume' : Nat → ω' → τ' → ω' × Progress τ' α'} {embed : ω → ω'} {wrap : τ → τ'}
    {next : Nat → ω → α → ω' × Progress τ' α'} {after' : ω'} {value' : α'} {more : Nat}
    (hresume : ∀ now state work, resume' now (embed state) (wrap work)
      = followedBy embed wrap (next now) (resume now state work))
    (h : Comes resume after value turns step)
    (hnext : ∀ now, Comes resume' after' value' more (next now after value)) (now : Nat) :
    Comes resume' after' value' (turns + more) (followedBy embed wrap (next now) step) := by
  induction h generalizing now with
  | done => exact (hnext now).mono (Nat.le_add_left _ _)
  | @paused turns state work pause _ ih =>
      have hrest : ∀ later,
          Comes resume' after' value' (turns + more) (resume' later (embed state) (wrap work)) := by
        intro later
        rw [hresume]
        exact ih later later
      exact (Comes.paused hrest).mono (by omega)

/-- Work that is all of other work. -/
theorem within {resume' : Nat → ω' → τ' → ω' × Progress τ' α'} (embed : ω → ω') {wrap : τ → τ'}
    (finish : α → α')
    (hresume : ∀ now state work, resume' now (embed state) (wrap work)
      = (embed (resume now state work).1, (resume now state work).2.within wrap finish))
    (h : Comes resume after value turns step) :
    Comes resume' (embed after) (finish value) turns
      (embed step.1, step.2.within wrap finish) := by
  induction h with
  | done => exact .done
  | paused _ ih =>
      refine .paused fun now => ?_
      rw [hresume]
      exact ih now

end Comes

/-! ### Requests -/

namespace Session

/-- Whether in a row of moves one task goes on at most, and time passes. -/
def LeftTo (task : TaskId) (moves : List Move) : Prop :=
  ∀ next ∈ moves, next = .resume task ∨ ∃ duration, next = .wait duration

/-- How often a task goes on in a row of moves. -/
def turnsOf (task : TaskId) (moves : List Move) : Nat :=
  moves.countP fun next =>
    match next with
    | .resume other => other = task
    | _ => false

/-- Whether a request that is made now comes to the world and the reply if its task is left
alone: as soon as the task has gone on often enough, whenever it did. -/
def ComesTo (engine : Engine σ β) (session : Session σ β) (thread : Thread) (request : Request)
    (world : World σ β) (reply : Reply σ β) : Prop :=
  ∃ enough, ∀ moves, LeftTo session.nextTask moves → enough ≤ turnsOf session.nextTask moves →
    let after := replay engine moves (session.plan session.clock thread request)
    after.world = world ∧ after.running = session.running ∧
      ∃ instant, after.answers = session.answers ++ [⟨session.nextTask, instant, reply⟩]

variable {engine : Engine σ β} {session : Session σ β} {task : TaskId}

/-- Where no task has the number, the moves of a task left alone change the clock at most. -/
theorem replay_of_ended (engine : Engine σ β) (session : Session σ β) {moves : List Move}
    (hmoves : LeftTo task moves)
    (hended : ∀ running ∈ session.running, running.task ≠ task) :
    ∃ clock, replay engine moves session = { session with clock } := by
  induction moves generalizing session with
  | nil => exact ⟨session.clock, rfl⟩
  | cons next rest ih =>
      have hrest : LeftTo task rest := fun other hmem => hmoves other (List.mem_cons_of_mem _ hmem)
      rcases hmoves next List.mem_cons_self with rfl | ⟨duration, rfl⟩
      · have hnone : session.activity? task = none := by
          refine List.find?_eq_none.mpr fun running hmem => ?_
          simpa using hended running hmem
        have hidle : session.move engine (.resume task) = session := by simp [move, hnone]
        obtain ⟨clock, hclock⟩ := ih session hrest hended
        refine ⟨clock, ?_⟩
        rw [replay, List.foldl_cons, hidle]
        exact hclock
      · exact ih { session with clock := session.clock + duration } hrest hended

/-- A task that takes a turn is the last of those that are running. -/
theorem resume_of_last (engine : Engine σ β) {others : List (Running β)} {running : Running β}
    (hothers : ∀ other ∈ others, other.task ≠ running.task)
    (hrunning : session.running = others ++ [running]) :
    session.move engine (.resume running.task) =
      match session.advance engine running with
      | (world, .paused state pause) =>
          { session with world, running := others ++ [⟨running.task, .begun state, pause⟩] }
      | (world, .done reply) =>
          { session with
            world
            running := others
            answers := session.answers ++ [⟨running.task, session.clock, reply⟩] } := by
  have hfound : session.activity? running.task = some running := by
    have hnone : others.find? (·.task = running.task) = none :=
      List.find?_eq_none.mpr fun other hmem => by simpa using hothers other hmem
    simp [activity?, hrunning, List.find?_append, hnone]
  have hmap : ∀ other : Running β,
      (others ++ [running]).map (fun r => if r.task = running.task then other else r)
        = others ++ [other] := by
    intro other
    have hkept : others.map (fun r => if r.task = running.task then other else r) = others := by
      conv_rhs => rw [← List.map_id others]
      exact List.map_congr_left fun r hmem => if_neg (hothers r hmem)
    simp [hkept]
  have hfilter : (others ++ [running]).filter (·.task ≠ running.task) = others := by
    have hkept : others.filter (·.task ≠ running.task) = others :=
      List.filter_eq_self.mpr fun r hmem => by simpa using hothers r hmem
    rw [List.filter_append, hkept]
    simp
  rcases hadvance : session.advance engine running with ⟨world, ⟨state, pause⟩ | reply⟩
  · simp only [move, hfound, resume, hadvance, hrunning, hmap]
  · simp only [move, hfound, resume, hadvance, hrunning, hfilter]

/-- **A task that is left alone** comes to the end of its work, whenever it takes its turns. -/
theorem replay_of_comes {world : World σ β} {reply : Reply σ β} (session : Session σ β)
    (running : Running β) {others : List (Running β)}
    (hothers : ∀ other ∈ others, other.task ≠ running.task)
    (hrunning : session.running = others ++ [running]) {turns : Nat}
    (hcomes : ∀ clock, Comes (fun now world (state : Task β) =>
        state.resume engine running.task now world) world reply turns
      (advance { session with clock } engine running))
    {moves : List Move} (hmoves : LeftTo running.task moves)
    (hturns : turns < turnsOf running.task moves) :
    let after := replay engine moves session
    after.world = world ∧ after.running = others ∧
      ∃ instant, after.answers = session.answers ++ [⟨running.task, instant, reply⟩] := by
  induction moves generalizing session running turns with
  | nil => simp [turnsOf] at hturns
  | cons next rest ih =>
      have hrest : LeftTo running.task rest :=
        fun other hmem => hmoves other (List.mem_cons_of_mem _ hmem)
      rcases hmoves next List.mem_cons_self with rfl | ⟨duration, rfl⟩
      · have hstep := hcomes session.clock
        have hmove := resume_of_last engine hothers hrunning
        have hfewer : turns ≤ turnsOf running.task rest := by
          simp only [turnsOf, List.countP_cons, decide_true, ↓reduceIte] at hturns ⊢
          omega
        rw [replay, List.foldl_cons, hmove]
        change Comes _ world reply turns (session.advance engine running) at hstep
        generalize session.advance engine running = step at hstep
        cases hstep with
        | done =>
            obtain ⟨clock, hclock⟩ := replay_of_ended engine
              { session with
                world
                running := others
                answers := session.answers ++ [⟨running.task, session.clock, reply⟩] }
              hrest hothers
            have hended := hclock
            rw [replay] at hended
            dsimp only
            rw [hended]
            exact ⟨rfl, rfl, session.clock, rfl⟩
        | @paused turns middle state pause hlater =>
            let resting : Running β := ⟨running.task, .begun state, pause⟩
            exact ih { session with world := middle, running := others ++ [resting] } resting
              hothers rfl (fun clock => hlater clock) hrest hfewer
      · have hfewer : turns < turnsOf running.task rest := by
          simpa [turnsOf] using hturns
        exact ih { session with clock := session.clock + duration } running hothers hrunning hcomes
          hrest hfewer

/-- **A request whose work comes to one end** comes to it in a session in which no other task
goes on. -/
theorem comesTo_of_comes (hnumbered : session.Numbered) {thread : Thread} {request : Request}
    {world : World σ β} {reply : Reply σ β} {turns : Nat}
    (h : ∀ now, Comes (fun now world (state : Task β) =>
        state.resume engine session.nextTask now world) world reply turns
      (Task.start engine session.nextTask now thread request session.world)) :
    session.ComesTo engine thread request world reply := by
  refine ⟨turns + 1, fun moves hmoves hturns => ?_⟩
  let planned : Running β :=
    ⟨session.nextTask, .planned thread request, .until session.clock⟩
  have hothers : ∀ other ∈ session.running, other.task ≠ session.nextTask :=
    fun other hmem => Nat.ne_of_lt (hnumbered.below other hmem)
  exact replay_of_comes (session.plan session.clock thread request) planned hothers rfl
    (fun clock => h clock) hmoves hturns

/-- A request that is answered at once comes to this answer. -/
theorem comesTo_of_done (hnumbered : session.Numbered) {thread : Thread} {request : Request}
    {world : World σ β} {reply : Reply σ β}
    (h : ∀ now, Task.start engine session.nextTask now thread request session.world
      = (world, .done reply)) :
    session.ComesTo engine thread request world reply := by
  have hcomes : ∀ now, Comes (fun now world (state : Task β) =>
        state.resume engine session.nextTask now world) world reply 0
      (Task.start engine session.nextTask now thread request session.world) := by
    intro now
    rw [h now]
    exact .done
  exact comesTo_of_comes hnumbered hcomes

end Session

end ShaderMend
