namespace Embedder

/-!
# Block heaps

An allocator for a region of 32-bit addresses. Blocks start at multiples of eight and are multiples
of eight long; address zero is never handed out, so it can stand for no block. The free blocks are
kept in ascending order and coalesced.

* `Heap.manage`: the heap of a region.
* `Heap.alloc?`, `Heap.free?`: first fit, and the return of a block.
* `Heap.blockSize?`, `Heap.stats`: what is live.
-/

/-- Addresses from `start` on, `size` of them. -/
structure Span where
  start : Nat
  size : Nat
  deriving DecidableEq, Repr

/-- The first address after a span. -/
def Span.stop (s : Span) : Nat :=
  s.start + s.size

/-- The unit of addresses and sizes. -/
def blockAlign : Nat := 8

/-- The number of 32-bit addresses. -/
def addressRange : Nat := 4294967296

/-- The next multiple of the unit, if it is a 32-bit number. -/
def alignUp? (n : Nat) : Option Nat :=
  if n + (blockAlign - 1) < addressRange then
    some ((n + (blockAlign - 1)) / blockAlign * blockAlign)
  else none

/-- The last multiple of the unit. -/
def alignDown (n : Nat) : Nat :=
  n / blockAlign * blockAlign

/-- A region with its free and its live blocks, each in ascending order of address. -/
structure Heap where
  base : Nat
  capacity : Nat
  free : List Span
  live : List Span
  deriving DecidableEq, Repr

/-- How many blocks are live, how many bytes they have, and how many the region has. -/
structure HeapStats where
  live : Nat
  used : Nat
  capacity : Nat
  deriving DecidableEq, Repr

-- A zero is the numeral, whatever else is imported.
attribute [local instance (1100)] Zero.ofOfNat0

namespace Heap

/-! ### Lists of spans -/

/-- A list of spans with one more, in ascending order of address. -/
def insertSpan (s : Span) : List Span → List Span
  | [] => [s]
  | t :: ts => if s.start < t.start then s :: t :: ts else t :: insertSpan s ts

/-- Cut the first span of at least `size` addresses: the address found, and what is left. -/
def cutFirstFit (size : Nat) : List Span → Option (Nat × List Span)
  | [] => none
  | s :: ss =>
    if size ≤ s.size then
      some (s.start, if size < s.size then ⟨s.start + size, s.size - size⟩ :: ss else ss)
    else (cutFirstFit size ss).map fun (address, rest) => (address, s :: rest)

/-- Put a span before a list, joined with the list's first span if they touch. -/
def joinNext (s : Span) : List Span → List Span
  | [] => [s]
  | t :: ts => if s.stop = t.start then ⟨s.start, s.size + t.size⟩ :: ts else s :: t :: ts

/-- Put a span into an ascending list, joined with the neighbours that it touches. -/
def coalesce (s : Span) : List Span → List Span
  | [] => [s]
  | t :: ts =>
    if s.start < t.start then joinNext s (t :: ts)
    else if t.stop = s.start then joinNext ⟨t.start, t.size + s.size⟩ ts
    else t :: coalesce s ts

/-- Take the span that starts at an address out of a list. -/
def removeSpan (address : Nat) : List Span → Option (Span × List Span)
  | [] => none
  | s :: ss =>
    if s.start = address then some (s, ss)
    else (removeSpan address ss).map fun (found, rest) => (found, s :: rest)

/-! ### The allocator -/

/-- The heap of `length` addresses from `base` on, without address zero and without what is left
over at either end of the last whole unit. -/
def manage (base length : Nat) : Heap :=
  let stop := alignDown (min (base + length) (addressRange - 1))
  let start := min ((alignUp? (max base 1)).getD stop) stop
  { base := start
    capacity := stop - start
    free := if start < stop then [⟨start, stop - start⟩] else []
    live := [] }

/-- The size of the block that serves a request. -/
def blockSizeFor? (size : Nat) : Option Nat :=
  alignUp? (max size 1)

/-- Take the first free block that is large enough. A request for nothing takes a block, too. -/
def alloc? (h : Heap) (size : Nat) : Option (Nat × Heap) := do
  let size ← blockSizeFor? size
  let (address, free) ← cutFirstFit size h.free
  pure (address, { h with free, live := insertSpan ⟨address, size⟩ h.live })

/-- Return the live block that starts at an address; the answer is its size. -/
def free? (h : Heap) (address : Nat) : Option (Nat × Heap) := do
  let (block, live) ← removeSpan address h.live
  pure (block.size, { h with free := coalesce block h.free, live })

/-- The size of the live block that starts at an address. -/
def blockSize? (h : Heap) (address : Nat) : Option Nat :=
  (h.live.find? fun s => s.start = address).map Span.size

/-- What is live. -/
def stats (h : Heap) : HeapStats where
  live := h.live.length
  used := (h.live.map Span.size).sum
  capacity := h.capacity

end Heap

end Embedder
