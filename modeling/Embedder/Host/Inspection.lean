import Embedder.Host.State

namespace Embedder

/-!
# Looking at an instance

What a host reads and changes of an instance between calls. Each operation needs the instance's
store and fails while another operation holds it.

* `HostM.getGlobal`, `HostM.setGlobal`: exported globals as cells of a host type.
* `HostM.exception?`, `HostM.setException`, `HostM.clearException`: the latched fault.
* `HostM.memorySize`, `HostM.heapStats`: the exported memory and the app heap.
-/

variable {σ : Type}

/-- Check the declared type of a global against the category that is asked for. -/
def checkGlobal (kind : NumType) (declared : Wasm.ValType) : Except Error Unit :=
  match NumType.ofValType declared with
  | some k => if k = kind then .ok () else .error (.typeMismatch kind.name k.name)
  | none => .error (.typeMismatch kind.name "non-numeric global")

namespace HostM

/-! ### Globals -/

/-- The store of an instance, and the number and type of an exported global in it. -/
def exportedGlobal (id : Nat) (name : String) : HostM σ (Store × Nat × Wasm.GlobalType) := do
  let s ← store id
  let (i, type) ← ofOption (.notFound .global name) (s.guest.exportedGlobal? name)
  pure (s, i, type)

/-- The value of an exported global. -/
def getGlobal (id : Nat) (name : String) (type : HostType) : HostM σ HostValue := do
  let (s, i, declared) ← exportedGlobal id name
  ofExcept (checkGlobal type.kind declared.type)
  let v ← ofOption (.notFound .global name) s.guest.globals[i]?
  ofExcept (Wire.ofValue v >>= type.decode)

/-- Set an exported global. -/
def setGlobal (id : Nat) (name : String) (value : HostValue) : HostM σ Unit := do
  let (s, i, declared) ← exportedGlobal id name
  ofExcept (checkGlobal value.type.kind declared.type)
  if !declared.isMutable then
    throw (.typeMismatch "mutable global" ("immutable global `" ++ name ++ "`"))
  putStore id { s with guest := s.guest.setGlobal i value.encode.toValue }

/-! ### The latch -/

/-- The latched fault, if there is one. -/
def exception? (id : Nat) : HostM σ (Option Fault) := do
  pure (← store id).latch

/-- Latch a fault, in place of any earlier one. -/
def setException (id : Nat) (fault : Fault) : HostM σ Unit := do
  putStore id { ← store id with latch := some fault }

/-- Clear the latch; the answer is what was latched. -/
def clearException (id : Nat) : HostM σ (Option Fault) := do
  let s ← store id
  putStore id { s with latch := none }
  pure s.latch

/-! ### Sizes -/

/-- The size of the exported memory; without one, nothing. -/
def memorySize (id : Nat) : HostM σ Nat := do
  let s ← store id
  let memory := (← inst id).memory
  pure (((memory.bind fun i => s.guest.memories[i]?).map Wasm.Memory.size).getD 0)

/-- What is live in the app heap, if there is one. -/
def heapStats (id : Nat) : HostM σ (Option HeapStats) := do
  pure ((← store id).heap.map Heap.stats)

end HostM

end Embedder
