import Embedder.Host.State

namespace Embedder

/-!
# Guest memory as the host sees it

Access of the host to an instance's exported memory and to its app heap.

* `HostM.readBytes`, `HostM.writeBytes`, `HostM.zeroBytes`: a stretch of the memory.
* `HostM.allocBlock`, `Host.freeBlock`: a block of the app heap.
-/

variable {σ : Type}

/-- The error of a stretch that does not lie inside a memory of a size. -/
def outside (address count size : Nat) : Error :=
  .outOfBounds (address + count) size

namespace HostM

/-- The exported memory of an instance, together with the store it belongs to. -/
def exportedMemory (id : Nat) : HostM σ (Store × Nat × Wasm.Memory) := do
  let i ← ofOption (.notFound .memory memoryExport) (← inst id).memory
  let s ← store id
  let m ← ofOption (.notFound .memory memoryExport) s.guest.memories[i]?
  pure (s, i, m)

/-- The bytes of a stretch of an instance's memory. -/
def readBytes (id address count : Nat) : HostM σ Bytes := do
  let (_, _, m) ← exportedMemory id
  ofOption (outside address count m.size) (m.read? address count)

/-- Replace the bytes of a stretch of an instance's memory. -/
def writeBytes (id address : Nat) (bytes : Bytes) : HostM σ Unit := do
  let (s, i, m) ← exportedMemory id
  let m ← ofOption (outside address bytes.length m.size) (m.write? address bytes)
  putStore id { s with guest := s.guest.setMemory i m }

/-- Put zero bytes all over a stretch of an instance's memory. -/
def zeroBytes (id address count : Nat) : HostM σ Unit := do
  let (s, i, m) ← exportedMemory id
  let m ← ofOption (outside address count m.size) (m.fill? address count 0)
  putStore id { s with guest := s.guest.setMemory i m }

/-- Take a block of an instance's app heap; the answer is its address. -/
def allocBlock (id bytes : Nat) : HostM σ Nat := do
  if addressRange ≤ bytes then throw (.allocation bytes .beyondRange)
  let s ← store id
  let heap ← ofOption (.allocation bytes .noHeap) s.heap
  let (address, heap) ← ofOption (.allocation bytes .exhausted) (heap.alloc? bytes)
  putStore id { s with heap := some heap }
  pure address

end HostM

/-- Return a block to an instance's app heap. It stays taken while another operation holds the
instance. -/
def Host.freeBlock (h : Host σ) (id address : Nat) : Host σ :=
  match (h.instance? id).bind Instance.store with
  | none => h
  | some s =>
    match s.heap.bind fun heap => heap.free? address with
    | none => h
    | some (_, heap) =>
      h.modifyInstance id fun i => { i with store := some { s with heap := some heap } }

end Embedder
