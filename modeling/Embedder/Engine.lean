import Embedder.Callback
import Embedder.Wasm.Progress

namespace Embedder

/-!
# Engines

An engine decodes modules and runs the code of guests. The host neither decodes nor runs code itself:
it starts a call, takes it step by step, and answers its requests. What it may rely on is what
WebAssembly says of every module and of all code: the sections of a module fit together, code touches
the contents of its guest alone, it calls imported functions only, and it ends with results of the types
that were declared for it.

* `Engine`: what the host asks of an engine, and what it relies on.
* `Engine.step_extends`, `Engine.imports_of_step`: what a step leaves alone, and what it needs.
-/

/-- An engine. -/
class Engine where
  /-- The module that bytecode encodes, if it encodes one. -/
  decode? : Bytes → Option Wasm.Module
  /-- The module that a text describes, if it describes one. -/
  ofText? : String → Option Wasm.Module
  /-- A call of code, as far as it has got. -/
  Thread : Type
  /-- A call of code that has not begun. It may take up so many bytes of stack. -/
  start : Wasm.FuncType → Wasm.Code → List Wasm.Value → (room : Nat) → Thread
  /-- One step. -/
  step : Wasm.Guest Callback → Thread → Wasm.Progress Callback Thread
  /-- The call that waits for a callback, with the results of this. -/
  resume : Thread → List Wasm.Value → Thread
  /-- The call that waits for more pages, with the answer. -/
  push : Thread → Wasm.Value → Thread
  /-- The steps that a call may take. -/
  fuel : Nat
  /-- The types of the results that a call is to end with. -/
  owed : Thread → List Wasm.ValType
  isValid_of_decode? : ∀ {bytes m}, decode? bytes = some m → m.isValid = true
  isValid_of_ofText? : ∀ {text m}, ofText? text = some m → m.isValid = true
  owed_start : ∀ type code args room, owed (start type code args room) = type.results
  owed_resume : ∀ t values, owed (resume t values) = owed t
  owed_push : ∀ t v, owed (push t v) = owed t
  step_keeps : ∀ g t, (step g t).Keeps g
  step_honours : ∀ g t, (step g t).Honours owed (owed t)

namespace Engine

variable [Engine] {g : Wasm.Guest Callback} {t t' : Thread}

/-- Code that goes on has left the functions and the memory sizes alone. -/
theorem step_extends {g' : Wasm.Guest Callback} (h : step g t = .running g' t') : g.Extends g' := by
  have keeps := step_keeps g t
  rw [h] at keeps
  exact keeps

/-- Code calls no functions of the host but those that the guest imports. -/
theorem imports_of_step {name : Callback} {args : List Wasm.Value} {results : List Wasm.ValType}
    (h : step g t = .calls name args results t') : g.Imports name := by
  have keeps := step_keeps g t
  rw [h] at keeps
  exact keeps

end Engine

end Embedder
