import Embedder.Engine
import Embedder.Proofs.Wasm.Results
import Embedder.Wasm.Binary
import Embedder.Wasm.TextFormat

namespace Embedder

/-!
# The interpreter

The engine of this program: it decodes the binary format, and the text format for modules of memories and
functions that answer constants; and it runs code instruction by instruction.

* `Wasm.Module.isValid_of_decode?`, `Wasm.Module.isValid_of_ofText?`: what it decodes is well formed.
* `Interpreter.activations`: how deep calls may nest.
* `interpreter`: the engine.
-/

namespace Wasm.Module

/-- Bytecode is decoded to modules whose sections fit together. -/
theorem isValid_of_decode? {bytes : Bytes} {m : Module}
    (decoded : decode? bytes = some m) : m.isValid = true := by
  simp only [decode?, Option.bind_eq_bind] at decoded
  split at decoded
  · cases decoded
  · simp only [Option.bind_eq_some_iff] at decoded
    obtain ⟨⟨⟨m', count⟩, rest⟩, -, decoded⟩ := decoded
    dsimp only at decoded
    split at decoded
    case isTrue fits =>
      cases decoded
      rw [Bool.and_eq_true] at fits
      exact fits.1
    case isFalse => cases decoded

/-- Texts are read as modules whose sections fit together. -/
theorem isValid_of_ofText? {text : String} {m : Module}
    (read : ofText? text = some m) : m.isValid = true := by
  unfold ofText? at read
  split at read
  · exact isValid_of_decode? read
  · simp only [Option.bind_eq_bind, Option.bind_eq_some_iff] at read
    obtain ⟨words, -, trees, -, read⟩ := read
    split at read
    · obtain ⟨m', -, read⟩ := Option.bind_eq_some_iff.1 read
      split at read
      case isTrue valid =>
        cases read
        exact valid
      case isFalse => cases read
    · cases read

end Wasm.Module

/-- How deep calls may nest in so many bytes of stack, if every activation takes sixteen. -/
def Interpreter.activations (room : Nat) : Nat :=
  room / 16 + 1

/-- The engine that steps through threads. -/
instance interpreter : Engine where
  decode? := Wasm.Module.decode?
  ofText? := Wasm.Module.ofText?
  Thread := Wasm.Thread
  start type code args room := .start type code args (Interpreter.activations room)
  step := Wasm.Thread.step
  resume := Wasm.Thread.resume
  push := Wasm.Thread.push
  fuel := 1099511627776
  owed := Wasm.Thread.owed
  isValid_of_decode? := Wasm.Module.isValid_of_decode?
  isValid_of_ofText? := Wasm.Module.isValid_of_ofText?
  owed_start _ _ _ _ := rfl
  owed_resume _ _ := rfl
  owed_push _ _ := rfl
  step_keeps := Wasm.Thread.step_keeps
  step_honours := Wasm.Thread.step_honours

end Embedder
