namespace Embedder

/-!
# Operations that may panic

Where an operation is asked for what it is not defined for, it returns no error but panics, and
unwinds whoever called it.

* `Attempt`: what comes of such an operation.
* `Attempt.map`, `Attempt.andThen`: what is done with a value that is returned.
-/

/-- What comes of an operation: it returns, or it panics in some words. -/
inductive Attempt (α : Type) where
  | returns (a : α)
  | panics (message : String)
  deriving DecidableEq, Repr

namespace Attempt

variable {α β : Type}

/-- The operation that goes on with what is returned. -/
def map (f : α → β) : Attempt α → Attempt β
  | returns a => returns (f a)
  | panics message => panics message

/-- Go on in a monad with what is returned; a panic is passed on. -/
def andThen {m : Type → Type} [Monad m] (f : α → m β) : Attempt α → m (Attempt β)
  | returns a => do pure (returns (← f a))
  | panics message => pure (panics message)

/-- Whether the operation panics. -/
def isPanic : Attempt α → Bool
  | returns _ => false
  | panics _ => true

end Attempt

end Embedder
