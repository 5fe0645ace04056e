import ShaderMend.Suspension

/-!
# Waiting for the web phase

A task waits until the flag is up that the web phase is over, and looks every ten
milliseconds. At its deadline it raises the flag itself, so that the flag is up
whenever the task is done.
-/

namespace ShaderMend

/-- A task that waits for the web phase to be over, until a deadline. -/
structure WebWait where
  deadline : Nat
  deriving DecidableEq, Repr

namespace WebWait

variable {σ β : Type}

/-- The task looks at the flag, now and after each pause. It ends with the word whether
the flag went up in time. -/
def poll (now : Nat) (wait : WebWait) (repository : Repository σ β) :
    Repository σ β × Progress WebWait Bool :=
  if repository.webDone then (repository, .done true)
  else if wait.deadline ≤ now then (repository.completeWeb, .done false)
  else
    (repository, .paused wait (.until (now + min retryInterval (wait.deadline - now))))

end WebWait

end ShaderMend
