import Embedder.Host.Ownership

namespace Embedder

/-!
# Blocks of guest memory

Values and arrays that the host keeps in an instance's app heap.

* `HostM.allocate`, `HostM.allocateArray`: a new block, or nothing taken.
* `HostM.readValue`, `HostM.writeValue`: the one value of a block.
* `HostM.readAll`, `HostM.writeAll`, `HostM.getElement`, `HostM.setElement`: an array's values. All
  of them at once are found by cutting the array into slots, which panics if these are empty.
-/

-- Powers are those of the core library, whatever else is imported.
attribute [local instance (1100)] instPowNat

variable {σ : Type}

namespace GuestType

/-- Whether the block heap can give the alignment. -/
def isAligned (t : GuestType) : Bool :=
  t.align = 1 || t.align = 2 || t.align = 4 || t.align = blockAlign

/-- The bytes of values in a row, each in a slot of its own. -/
def row (t : GuestType) (values : List Datum) : Attempt Bytes :=
  (Bytes.chunks t.size (List.replicate (values.length * t.size) 0)).map fun _ =>
    values.flatMap t.store

theorem row_of_pos {t : GuestType} (pos : 0 < t.size) (values : List Datum) :
    t.row values = .returns (values.flatMap t.store) := by
  rw [row, Bytes.chunks_of_pos pos, Attempt.map]

end GuestType

namespace Block

/-- The number of elements; one value is one element. -/
def length (b : Block) : Nat :=
  b.count.getD 1

/-- The address of the block. -/
def start (b : Block) : Nat :=
  b.address.value

/-- The address of an element, if there is one of that index. -/
def elementAddress (b : Block) (i : Nat) : Except Error Nat :=
  if i < b.length then .ok (b.start + i * b.type.size)
  else .error (.outOfBounds i b.length)

/-- The diagnostic form of a block. -/
def debug (b : Block) : String :=
  match b.count with
  | none =>
    Error.record "TypedMemoryPointer"
      [("guest_address", toString b.start), ("size", toString b.type.size)]
  | some count =>
    Error.record "TypedMemoryArray"
      [("guest_address", toString b.start), ("len", toString count),
        ("element_size", toString b.type.size)]

end Block

namespace HostM

/-! ### Allocation -/

/-- A block of bytes for values of a type. -/
def takeBlock (id : Nat) (t : GuestType) (bytes : Nat) : HostM σ Nat :=
  if t.isAligned then allocBlock id bytes
  else throw (.allocation bytes (.badAlignment t.align))

/-- Keep a block that has been taken, once its first contents are written. -/
def keepBlock (b : Block) (write : HostM σ Unit) : HostM σ Nat := do
  tryCatch write fun e => do
    modify (·.freeBlock b.inst b.start)
    throw e
  modify (·.retainInstance b.inst)
  let h ← get
  let (blocks, id) := h.blocks.insert b
  set { h with blocks }
  pure id

/-- Allocate one value. -/
def allocate (id : Nat) (t : GuestType) (value : Datum) : HostM σ Nat := do
  let address ← takeBlock id t t.size
  keepBlock ⟨id, t, none, ⟨address⟩⟩ (writeBytes id address (t.store value))

/-- The number of elements that an array keeps: as many as were asked for, or else as many as 32 bits
can tell. -/
def keptCount (count : Nat) : Nat :=
  min count (addressRange - 1)

/-- Allocate an array of values, all of whose bytes are zero. -/
def allocateArray (id : Nat) (t : GuestType) (count : Nat) : HostM σ Nat := do
  let bytes := count * t.size
  if addressRange ≤ bytes then
    throw (.allocation (min bytes (2 ^ (64 : Nat) - 1)) (.tooManyElements count t.size))
  let address ← takeBlock id t bytes
  keepBlock ⟨id, t, some (keptCount count), ⟨address⟩⟩ (zeroBytes id address bytes)

/-! ### Access -/

/-- The first value of a block. -/
def readValue (b : Block) : HostM σ Datum := do
  pure (b.type.load (← readBytes b.inst b.start b.type.size))

/-- Overwrite the first value of a block. -/
def writeValue (b : Block) (value : Datum) : HostM σ Unit :=
  writeBytes b.inst b.start (b.type.store value)

/-- The value at an index. -/
def getElement (b : Block) (i : Nat) : HostM σ Datum := do
  let address ← ofExcept (b.elementAddress i)
  pure (b.type.load (← readBytes b.inst address b.type.size))

/-- Overwrite the value at an index. -/
def setElement (b : Block) (i : Nat) (value : Datum) : HostM σ Unit := do
  let address ← ofExcept (b.elementAddress i)
  writeBytes b.inst address (b.type.store value)

/-- All values of an array in order. -/
def readAll (b : Block) : HostM σ (Attempt (List Datum)) := do
  let bytes ← readBytes b.inst b.start (b.length * b.type.size)
  pure ((Bytes.chunks b.type.size bytes).map (·.map b.type.load))

/-- Overwrite all values of an array; there have to be as many. They are put in a row before the
memory is looked for. -/
def writeAll (b : Block) (values : List Datum) : HostM σ (Attempt Unit) := do
  if values.length ≠ b.length then throw (.sizeMismatch b.length values.length)
  (b.type.row values).andThen fun bytes => writeBytes b.inst b.start bytes

/-- There are no slots to put values of no bytes into. -/
theorem writeAll_of_empty {b : Block} {values : List Datum} (same : values.length = b.length)
    (empty : b.type.size = 0) :
    (writeAll b values : HostM σ (Attempt Unit)) = pure (.panics Bytes.emptySlots) := by
  unfold writeAll
  rw [if_neg (fun other => other same), GuestType.row, empty, Bytes.chunks_zero]
  rfl

end HostM

end Embedder
