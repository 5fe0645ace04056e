/-!
# Notices of unresolved shaders

A repair tells the user interface which shaders it left unresolved, without waiting
for it. At most one notice is under way: from the moment a dispatcher claims the
flag until the notice received is completed, further notices are dropped.

`Channel.dispatch` is made of the atomic steps `claim?`, `send` and `release`, which
dispatchers may take in turns.
-/

namespace ShaderMend

/-- The names of the shaders left unresolved. -/
structure Notice where
  missingNames : List String
  deriving DecidableEq, Repr

/-- A channel for notices: the flag, the notice sent and not received yet, those
received and not completed yet, the number of dispatchers, and whether somebody
receives. -/
structure Channel where
  inFlight : Bool
  queued : Option Notice
  pending : List Notice
  dispatchers : Nat
  receiving : Bool
  deriving DecidableEq, Repr

namespace Channel

/-- A channel with one dispatcher and one receiver. -/
def fresh : Channel :=
  ⟨false, none, [], 1, true⟩

/-! ### Dispatching -/

/-- What becomes of a notice sent. -/
inductive Delivery where
  | delivered
  | full
  | disconnected
  deriving DecidableEq, Repr

/-- Raises the flag, unless it is up. -/
def claim? (channel : Channel) : Option Channel :=
  if channel.inFlight then none else some { channel with inFlight := true }

/-- Sends a notice. The channel holds one, and none when nobody receives. -/
def send (channel : Channel) (notice : Notice) : Channel × Delivery :=
  if !channel.receiving then (channel, .disconnected)
  else if channel.queued.isSome then (channel, .full)
  else ({ channel with queued := some notice }, .delivered)

/-- Lowers the flag. -/
def release (channel : Channel) : Channel :=
  { channel with inFlight := false }

/-- Sends a notice if none is under way; tells whether it was sent. -/
def dispatch (channel : Channel) (notice : Notice) : Channel × Bool :=
  match channel.claim? with
  | none => (channel, false)
  | some channel =>
      match channel.send notice with
      | (channel, .delivered) => (channel, true)
      | (channel, _) => (channel.release, false)

/-- One more dispatcher. -/
def clone (channel : Channel) : Channel :=
  { channel with dispatchers := channel.dispatchers + 1 }

/-- Without dispatchers. -/
def dropDispatchers (channel : Channel) : Channel :=
  { channel with dispatchers := 0 }

/-! ### Receiving -/

/-- Receives the notice sent, if there is one. -/
def receive (channel : Channel) : Channel × Option Notice :=
  match channel.receiving, channel.queued with
  | true, some notice =>
      ({ channel with queued := none, pending := channel.pending ++ [notice] }, some notice)
  | _, _ => (channel, none)

/-- Completes the oldest notice received, which lowers the flag. -/
def complete (channel : Channel) : Channel :=
  match channel.pending with
  | [] => channel
  | _ :: pending => { channel with pending, inFlight := false }

/-- Completes all notices received. -/
def completeAll (channel : Channel) : Channel :=
  Nat.repeat complete channel.pending.length channel

/-- Nobody receives any more; a notice on its way is lost. -/
def dropReceiver (channel : Channel) : Channel :=
  { channel with receiving := false, queued := none }

end Channel

end ShaderMend
