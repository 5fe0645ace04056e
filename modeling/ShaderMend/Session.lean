import ShaderMend.Request

/-!
# Sessions

A session carries out requests on one clock and one thread. Whatever happens in it is a
row of moves: a request is planned, a task goes on or is dropped, the clock moves on.

* `Session.replay` makes any row of moves, so it reaches every interleaving of tasks.
* `Session.choose?` is the order in which tasks take turns: one goes on when its pause
  is over, and the clock stands still until all pause; then it jumps to the next
  instant for which one waits.
* `run_eq_replay` — taking turns is one of the interleavings.
-/

namespace ShaderMend

/-- A request that is planned for an instant, or being carried out. -/
inductive Activity (β : Type) where
  | planned (thread : Thread) (request : Request)
  | begun (state : Task β)

/-- An activity of a session and what it waits for. -/
structure Running (β : Type) where
  task : TaskId
  activity : Activity β
  pause : Pause

/-- The reply to a request and the instant at which it was given. -/
structure Answer (σ β : Type) where
  task : TaskId
  instant : Nat
  reply : Reply σ β

/-- A session over an engine with states in `σ` and bundles in `β`. -/
structure Session (σ β : Type) where
  world : World σ β
  clock : Nat
  running : List (Running β)
  answers : List (Answer σ β)
  /-- The number of the next task. -/
  nextTask : TaskId

namespace Session

variable {σ β : Type}

/-- A session without tasks. -/
def fresh (world : World σ β) : Session σ β :=
  ⟨world, 0, [], [], 0⟩

/-! ### Moves -/

/-- What can happen in a session. -/
inductive Move where
  | plan (instant : Nat) (thread : Thread) (request : Request)
  | resume (task : TaskId)
  | drop (task : TaskId)
  | wait (duration : Nat)

/-- Plans a request for an instant. -/
def plan (session : Session σ β) (instant : Nat) (thread : Thread) (request : Request) :
    Session σ β :=
  { session with
    running := session.running ++ [⟨session.nextTask, .planned thread request, .until instant⟩]
    nextTask := session.nextTask + 1 }

/-- The next piece of work of an activity. -/
def advance (session : Session σ β) (engine : Engine σ β) (running : Running β) : Task.Step σ β :=
  match running.activity with
  | .planned thread request =>
      Task.start engine running.task session.clock thread request session.world
  | .begun state => state.resume engine running.task session.clock session.world

/-- The session after an activity took its next piece of work. -/
def resume (session : Session σ β) (engine : Engine σ β) (running : Running β) : Session σ β :=
  match session.advance engine running with
  | (world, .paused state pause) =>
      { session with
        world
        running := session.running.map fun other =>
          if other.task = running.task then ⟨running.task, .begun state, pause⟩ else other }
  | (world, .done reply) =>
      { session with
        world
        running := session.running.filter (·.task ≠ running.task)
        answers := session.answers ++ [⟨running.task, session.clock, reply⟩] }

/-- The session after an activity was dropped. What is only planned leaves nothing
behind. -/
def drop (session : Session σ β) (running : Running β) : Session σ β :=
  let world :=
    match running.activity with
    | .planned .. => session.world
    | .begun state => state.drop running.task session.world
  { session with world, running := session.running.filter (·.task ≠ running.task) }

/-- The activity of a task. -/
def activity? (session : Session σ β) (task : TaskId) : Option (Running β) :=
  session.running.find? (·.task = task)

/-- The session after a move. A task that does not exist neither goes on nor is
dropped. -/
def move (engine : Engine σ β) (session : Session σ β) : Move → Session σ β
  | .plan instant thread request => session.plan instant thread request
  | .resume task =>
      match session.activity? task with
      | some running => session.resume engine running
      | none => session
  | .drop task =>
      match session.activity? task with
      | some running => session.drop running
      | none => session
  | .wait duration => { session with clock := session.clock + duration }

/-- The session after a row of moves. -/
def replay (engine : Engine σ β) (moves : List Move) (session : Session σ β) : Session σ β :=
  moves.foldl (move engine) session

/-! ### Taking turns -/

/-- Whether an activity can go on. -/
def isReady (session : Session σ β) (running : Running β) : Bool :=
  running.pause.isOver session.world.repository running.task session.clock

/-- The instants for which activities wait. -/
def instants (session : Session σ β) : List Nat :=
  session.running.filterMap fun running =>
    match running.pause with
    | .until instant => some instant
    | .turn _ => none

/-- What happens next: an activity that can go on does, else the clock jumps. Nothing
happens once all is done. -/
def choose? (session : Session σ β) : Option Move :=
  match session.running.find? session.isReady with
  | some running => some (.resume running.task)
  | none => session.instants.min?.map fun instant => .wait (instant - session.clock)

/-- Lets at most the given number of moves happen. -/
def run (engine : Engine σ β) : Nat → Session σ β → Session σ β
  | 0, session => session
  | fuel + 1, session =>
      match session.choose? with
      | some move => run engine fuel (session.move engine move)
      | none => session

/-- **Taking turns is one of the interleavings.** -/
theorem run_eq_replay (engine : Engine σ β) (fuel : Nat) (session : Session σ β) :
    ∃ moves, run engine fuel session = replay engine moves session := by
  induction fuel generalizing session with
  | zero => exact ⟨[], rfl⟩
  | succ fuel ih =>
      cases h : session.choose? with
      | none => exact ⟨[], by simp [run, h, replay]⟩
      | some next =>
          obtain ⟨moves, heq⟩ := ih (session.move engine next)
          exact ⟨next :: moves, by simp [run, h, replay, heq]⟩

/-- More moves than are made before all is done: the longest wait ends with the clock, and a
task that waits goes on every ten milliseconds. -/
def patience (session : Session σ β) : Nat :=
  endOfTime * (session.running.length + 1)

/-- Lets tasks take turns until all is done. -/
def settle (session : Session σ β) (engine : Engine σ β) : Session σ β :=
  run engine session.patience session

/-! ### Requests -/

/-- A request with the thread that it comes from and the instant, counted from now, for
which it is planned. -/
structure Appointment where
  delay : Nat
  thread : Thread
  request : Request

/-- Carries out requests side by side. Returns the replies in the order of the
requests, with the instants at which they were given, counted from the start. -/
def perform (session : Session σ β) (engine : Engine σ β) (appointments : List Appointment) :
    Session σ β × List (Reply σ β × Nat) :=
  let tasks := appointments.zipIdx.map fun (_, index) => session.nextTask + index
  let planned := appointments.foldl (fun planned appointment =>
    planned.plan (session.clock + appointment.delay) appointment.thread appointment.request) session
  let settled := planned.settle engine
  let replies := tasks.filterMap fun task =>
    (settled.answers.find? (·.task = task)).map fun answer =>
      (answer.reply, answer.instant - session.clock)
  ({ settled with answers := [] }, replies)

end Session

end ShaderMend
