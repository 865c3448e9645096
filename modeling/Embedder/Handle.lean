namespace Embedder

/-!
# Unique handles

A handle owns at most one raw value; zero stands for none. A value that a handle loses other than
by giving it up is handed to a deleter, so each operation says which value, if any, that is.

* `Handle.reset`, `Handle.release`, `Handle.deleted`: adopting, giving up, and dropping.
* `Handle.debug`: the diagnostic form.
-/

/-- An owner of at most one raw value. -/
structure Handle where
  value : Nat
  deriving DecidableEq, Repr

namespace Handle

/-- The handle that owns nothing. -/
def null : Handle :=
  ⟨0⟩

/-- Whether the handle owns nothing. -/
def isNull (h : Handle) : Bool :=
  h.value = 0

/-- The value that dropping the handle hands to its deleter. -/
def deleted (h : Handle) : Option Nat :=
  if h.isNull then none else some h.value

/-- Adopt a value. The handle's old value is deleted, unless it is the same one. -/
def reset (h : Handle) (value : Nat) : Handle × Option Nat :=
  if value = h.value then (h, none) else (⟨value⟩, h.deleted)

/-- A handle that owns nothing adopts any value, and deletes nothing. -/
theorem reset_null (value : Nat) : null.reset value = (⟨value⟩, none) := by
  unfold reset
  split
  case isTrue zero => rw [zero]
  case isFalse => rfl

/-- Give the value up without deleting it. -/
def release (h : Handle) : Handle × Nat :=
  (null, h.value)

/-- The diagnostic form of a handle. -/
def debug (h : Handle) : String :=
  s!"ForeignHandle \x7b handle: {h.value}, .. \x7d"

end Handle

end Embedder
