namespace Embedder.Wasm

/-!
# Traps

Why code is stopped that the host has not stopped.

* `Trap.cause`: the wording.
-/

/-- A reason to stop. -/
inductive Trap where
  | unreachable
  | divideByZero
  | integerOverflow
  | invalidConversion
  | memoryOutOfBounds
  | tableOutOfBounds
  | uninitializedElement
  | signatureMismatch
  | stackExhausted
  /-- The thread took more steps than it was given. -/
  | outOfFuel
  /-- The code does something that no well-typed code does. -/
  | illTyped
  /-- Any other reason, by its wording. -/
  | other (cause : String)
  deriving DecidableEq, Repr

/-- The wording of a trap. -/
def Trap.cause : Trap → String
  | .unreachable => "wasm trap: wasm `unreachable` instruction executed"
  | .divideByZero => "wasm trap: integer divide by zero"
  | .integerOverflow => "wasm trap: integer overflow"
  | .invalidConversion => "wasm trap: invalid conversion to integer"
  | .memoryOutOfBounds => "wasm trap: out of bounds memory access"
  | .tableOutOfBounds => "wasm trap: undefined element: out of bounds table access"
  | .uninitializedElement => "wasm trap: uninitialized element"
  | .signatureMismatch => "wasm trap: indirect call type mismatch"
  | .stackExhausted => "wasm trap: call stack exhausted"
  | .outOfFuel => "wasm trap: all fuel consumed by WebAssembly"
  | .illTyped => "wasm trap: ill-typed code"
  | .other cause => cause

end Embedder.Wasm
