import Embedder.Wasm.ByteTree

namespace Embedder.Wasm

/-!
# Linear memory

A memory of some size in bytes, which only grows. Every access says whether it lies inside.

* `Memory.byteAt`: the view through which a memory is seen.
* `Memory.read?`, `Memory.write?`, `Memory.fill?`: access to stretches of bytes.
* `Memory.grow`: more bytes, all zero, at the end.
-/

/-- The size of a page. -/
def pageSize : Nat := 65536

/-- The most pages that 32-bit addresses reach. -/
def maxPages : Nat := 65536

/-- The height of a memory's tree: addresses have 32 bits. -/
def addressBits : Nat := 32

/-- A memory: its size, its declared maximum if it has one (both in bytes), and its bytes. -/
structure Memory where
  size : Nat
  maximum : Option Nat
  bytes : ByteTree
  deriving Repr

namespace Memory

/-- A memory of no bytes. -/
def empty (maximum : Option Nat) : Memory :=
  ⟨0, maximum, .uniform 0⟩

/-- The byte at an address. -/
def byteAt (m : Memory) (address : Nat) : UInt8 :=
  m.bytes.get addressBits address

/-- The bytes from an address on, `count` of them. -/
def bytesFrom (m : Memory) (address count : Nat) : Bytes :=
  (List.range' address count).map m.byteAt

/-- The bytes of a stretch, if it lies inside. -/
def read? (m : Memory) (address count : Nat) : Option Bytes :=
  if address + count ≤ m.size then some (m.bytesFrom address count) else none

/-- The tree with bytes from an address on replaced. -/
def setBytes : ByteTree → Nat → Bytes → ByteTree
  | t, _, [] => t
  | t, address, b :: bs => setBytes (t.set addressBits address b) (address + 1) bs

/-- The memory with the bytes of a stretch replaced, if it lies inside. -/
def write? (m : Memory) (address : Nat) (bytes : Bytes) : Option Memory :=
  if address + bytes.length ≤ m.size then
    some { m with bytes := setBytes m.bytes address bytes }
  else none

/-- The memory with one byte all over a stretch, if it lies inside. -/
def fill? (m : Memory) (address count : Nat) (b : UInt8) : Option Memory :=
  if address + count ≤ m.size then
    some { m with bytes := m.bytes.fill addressBits address (address + count) b }
  else none

/-- The memory with a larger size; the bytes added are zero. -/
def grow (m : Memory) (size : Nat) : Memory :=
  { m with size, bytes := m.bytes.fill addressBits m.size size 0 }

/-- The size in pages. -/
def pages (m : Memory) : Nat :=
  m.size / pageSize

/-- The most bytes the memory may ever have: its maximum, if it has one, and no more than there are
addresses. -/
def limit (m : Memory) : Nat :=
  min (m.maximum.getD (maxPages * pageSize)) (maxPages * pageSize)

/-- The bytes from an address up to the first zero byte, if there is one inside; looks at `count`
bytes at most. -/
def untilZero (m : Memory) (address : Nat) : (count : Nat) → Option Bytes
  | 0 => none
  | count + 1 =>
    let b := m.byteAt address
    if b = 0 then some [] else (untilZero m (address + 1) count).map (b :: ·)

/-- The text from an address up to the first zero byte, if there is one inside the memory. -/
def cString? (m : Memory) (address : Nat) : Option Bytes :=
  m.untilZero address (m.size - address)

end Memory

end Embedder.Wasm
