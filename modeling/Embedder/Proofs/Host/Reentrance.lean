import Embedder.Host.Counters
import Embedder.Proofs.Host.Access
import Embedder.Proofs.Host.Pending

namespace Embedder

/-!
# Operations on an instance whose store is away

While one operation holds the store of an instance, no other one gets it. What needs the store fails,
at the latest when it asks for it, and nothing has been done before. A block that is dropped
meanwhile is forgotten: its values are not released, and it stays taken.

* `Host.Locked`: the store of an instance is away.
* `Needs`: the operations that need the store, and what they find wrong before they ask for it.
* `Needs.exec`, `call_of_locked`, `dropBlock_of_locked`: how they end, further calls and drops included.
-/

-- Powers are those of the core library, whatever else is imported.
attribute [local instance (1100)] instPowNat

variable {σ : Type}

/-- The store of an instance is away. If there are blocks of the instance, it exports a memory. -/
structure Host.Locked (h : Host σ) (id : Nat) : Prop where
  away : ∃ i, h.instance? id = some i ∧ i.store = none
  exports : ∀ j b i, h.blocks.get? j = some b → b.inst = id → h.instance? id = some i →
    i.memory.isSome

/-- What is wrong with a block of so many bytes, whatever heap it is for. -/
def GuestType.misfit? (t : GuestType) (bytes : Nat) : Option Error :=
  if !t.isAligned then some (.allocation bytes (.badAlignment t.align))
  else if addressRange ≤ bytes then some (.allocation bytes .beyondRange)
  else none

/-- The operations that need the store of an instance, each with what it finds wrong, if it does,
before it asks for the store. -/
inductive Needs (h : Host σ) (id : Nat) : (α : Type) → HostM σ α → Option Error → Prop
  | getGlobal (name : String) (type : HostType) :
      Needs h id HostValue (HostM.getGlobal id name type) none
  | setGlobal (name : String) (value : HostValue) :
      Needs h id Unit (HostM.setGlobal id name value) none
  | exception : Needs h id (Option Fault) (HostM.exception? id) none
  | setException (fault : Fault) : Needs h id Unit (HostM.setException id fault) none
  | clearException : Needs h id (Option Fault) (HostM.clearException id) none
  | memorySize : Needs h id Nat (HostM.memorySize id) none
  | heapStats : Needs h id (Option HeapStats) (HostM.heapStats id) none
  | readCounter : Needs h id UInt64 (HostM.readCounter id) none
  | readCounters : Needs h id Counters (HostM.readCounters id) none
  | resetCounters : Needs h id Unit (HostM.resetCounters id) none
  | allocate (t : GuestType) (value : Datum) :
      Needs h id Nat (HostM.allocate id t value) (t.misfit? t.size)
  | allocateArray (t : GuestType) (count : Nat) :
      Needs h id Nat (HostM.allocateArray id t count)
        (if addressRange ≤ count * t.size then
          some (.allocation (min (count * t.size) (2 ^ (64 : Nat) - 1)) (.tooManyElements count t.size))
        else t.misfit? (count * t.size))
  | readValue {j : Nat} {b : Block} (block : h.blocks.get? j = some b) (own : b.inst = id) :
      Needs h id Datum (HostM.readValue b) none
  | writeValue {j : Nat} {b : Block} (block : h.blocks.get? j = some b) (own : b.inst = id)
      (value : Datum) : Needs h id Unit (HostM.writeValue b value) none
  | getElement {j : Nat} {b : Block} (block : h.blocks.get? j = some b) (own : b.inst = id)
      (i : Nat) : Needs h id Datum (HostM.getElement b i)
        (if i < b.length then none else some (.outOfBounds i b.length))
  | setElement {j : Nat} {b : Block} (block : h.blocks.get? j = some b) (own : b.inst = id)
      (i : Nat) (value : Datum) : Needs h id Unit (HostM.setElement b i value)
        (if i < b.length then none else some (.outOfBounds i b.length))
  | readAll {j : Nat} {b : Block} (block : h.blocks.get? j = some b) (own : b.inst = id) :
      Needs h id (Attempt (List Datum)) (HostM.readAll b) none
  | writeAll {j : Nat} {b : Block} (block : h.blocks.get? j = some b) (own : b.inst = id)
      (values : List Datum) (filled : values.length = b.length → 0 < b.type.size) :
      Needs h id (Attempt Unit) (HostM.writeAll b values)
        (if values.length = b.length then none else some (.sizeMismatch b.length values.length))

variable {h : Host σ} {id : Nat}

/-! ### Operations -/

/-- A memory whose store is away can not be accessed. -/
theorem exec_exportedMemory_of_away {i : Instance} {memory : Nat} (there : h.instance? id = some i)
    (away : i.store = none) (exported : i.memory = some memory) :
    exec (HostM.exportedMemory id) h = (.error .busy, h) := by
  have look : exec (get : HostM σ (Host σ)) h = (.ok h, h) := rfl
  simp only [HostM.exportedMemory, HostM.store, HostM.inst, exec_bind, look, there, exec_ofOption,
    exported, away]
  rfl

/-- A block of which the instance's store is away has no slots that could be released. -/
theorem releasedSlots_of_away {b : Block} {i : Instance} {memory : Nat}
    (there : h.instance? b.inst = some i) (away : i.store = none)
    (exported : i.memory = some memory) : h.releasedSlots b = .returns [] := by
  have unread : exec (HostM.readBytes b.inst b.address.value (Host.blockBytes b)) h =
      (.error .busy, h) := by
    simp only [HostM.readBytes, exec_bind, exec_exportedMemory_of_away there away exported]
  have ended : ((HostM.readBytes b.inst b.address.value (Host.blockBytes b)).run h).1 =
      .error .busy := congrArg Prod.fst unread
  rw [Host.releasedSlots, ended]

section

variable (locked : h.Locked id)
include locked

/-- The store of an instance in a call can not be looked at. -/
theorem exec_store_of_locked : exec (HostM.store id) h = (.error .busy, h) := by
  obtain ⟨i, there, away⟩ := locked.away
  have look : exec (get : HostM σ (Host σ)) h = (.ok h, h) := rfl
  simp only [HostM.store, HostM.inst, exec_bind, look, there, exec_ofOption, away]
  rfl

/-- Its globals can not be read. -/
theorem exec_getGlobal_of_locked (name : String) (type : HostType) :
    exec (HostM.getGlobal id name type) h = (.error .busy, h) := by
  simp only [HostM.getGlobal, HostM.exportedGlobal, exec_bind, exec_store_of_locked locked]

/-- Nor can they be written. -/
theorem exec_setGlobal_of_locked (name : String) (value : HostValue) :
    exec (HostM.setGlobal id name value) h = (.error .busy, h) := by
  simp only [HostM.setGlobal, HostM.exportedGlobal, exec_bind, exec_store_of_locked locked]

/-- Nor can its counter be read. -/
theorem exec_readCounter_of_locked : exec (HostM.readCounter id) h = (.error .busy, h) := by
  simp only [HostM.readCounter, HostM.getUInt64, exec_bind, exec_getGlobal_of_locked locked]

/-- A block is taken from the heap only after its layout has been looked at. -/
theorem exec_takeBlock_of_locked (t : GuestType) (bytes : Nat) :
    exec (HostM.takeBlock id t bytes) h = (.error ((t.misfit? bytes).getD .busy), h) := by
  unfold HostM.takeBlock GuestType.misfit?
  cases t.isAligned
  · rfl
  · unfold HostM.allocBlock
    simp only [if_true, Bool.not_true, Bool.false_eq_true, if_false]
    split
    · rfl
    · simp only [exec_bind, exec_store_of_locked locked]
      rfl

section

variable {j : Nat} {b : Block} (block : h.blocks.get? j = some b) (own : b.inst = id)
include block own

/-- Its memory can not be accessed. -/
theorem exec_exportedMemory_of_locked :
    exec (HostM.exportedMemory b.inst) h = (.error .busy, h) := by
  subst own
  obtain ⟨i, there, away⟩ := locked.away
  obtain ⟨memory, exported⟩ := Option.isSome_iff_exists.1 (locked.exports j b i block rfl there)
  exact exec_exportedMemory_of_away there away exported

/-- No bytes can be read from it. -/
theorem exec_readBytes_of_locked (address count : Nat) :
    exec (HostM.readBytes b.inst address count) h = (.error .busy, h) := by
  simp only [HostM.readBytes, exec_bind, exec_exportedMemory_of_locked locked block own]

/-- No bytes can be written to it. -/
theorem exec_writeBytes_of_locked (address : Nat) (bytes : Bytes) :
    exec (HostM.writeBytes b.inst address bytes) h = (.error .busy, h) := by
  simp only [HostM.writeBytes, exec_bind, exec_exportedMemory_of_locked locked block own]

end

/-- **Operations.** An operation that needs the store of an instance that is away ends with what it
finds wrong before it asks for the store, or else because the instance is busy. It changes nothing. -/
theorem Needs.exec {α : Type} {x : HostM σ α} {wrong : Option Error} (needs : Needs h id α x wrong) :
    exec x h = (.error (wrong.getD .busy), h) := by
  have store := exec_store_of_locked locked
  -- Every operation asks for the store first, but for those that check their arguments before.
  cases needs with
  | getGlobal name type => exact exec_getGlobal_of_locked locked name type
  | setGlobal name value => exact exec_setGlobal_of_locked locked name value
  | exception => simp only [HostM.exception?, exec_bind, store, Option.getD_none]
  | setException => simp only [HostM.setException, exec_bind, store, Option.getD_none]
  | clearException => simp only [HostM.clearException, exec_bind, store, Option.getD_none]
  | memorySize => simp only [HostM.memorySize, exec_bind, store, Option.getD_none]
  | heapStats => simp only [HostM.heapStats, exec_bind, store, Option.getD_none]
  | readCounter => exact exec_readCounter_of_locked locked
  | readCounters =>
    simp only [HostM.readCounters, exec_bind, exec_readCounter_of_locked locked, Option.getD_none]
  | resetCounters =>
    simp only [HostM.resetCounters, exec_bind, exec_setGlobal_of_locked locked, Option.getD_none]
  | allocate t value => simp only [HostM.allocate, exec_bind, exec_takeBlock_of_locked locked]
  | allocateArray t count =>
    unfold HostM.allocateArray
    dsimp only
    split
    · rfl
    · simp only [exec_bind, exec_takeBlock_of_locked locked]
  | readValue block own =>
    simp only [HostM.readValue, exec_bind, exec_readBytes_of_locked locked block own,
      Option.getD_none]
  | writeValue block own => exact exec_writeBytes_of_locked locked block own _ _
  | getElement block own i =>
    unfold HostM.getElement Block.elementAddress
    split
    · simp only [exec_bind, exec_ofExcept, exec_readBytes_of_locked locked block own,
        Option.getD_none]
    · rfl
  | setElement block own i =>
    unfold HostM.setElement Block.elementAddress
    split
    · simp only [exec_bind, exec_ofExcept, exec_writeBytes_of_locked locked block own,
        Option.getD_none]
    · rfl
  | readAll block own =>
    simp only [HostM.readAll, exec_bind, exec_readBytes_of_locked locked block own,
      Option.getD_none]
  | @writeAll _ b block own values filled =>
    unfold HostM.writeAll
    by_cases same : values.length = b.length
    · rw [if_pos same, if_neg (not_not.2 same), GuestType.row_of_pos (filled same)]
      simp only [Attempt.andThen, exec_bind, exec_writeBytes_of_locked locked block own,
        Option.getD_none]
    · rw [if_neg same, if_pos same]
      rfl

/-! ### Calls and drops -/

/-- **Further calls.** A call through another environment of the instance, or the same one, is turned
away. -/
theorem call_of_locked [Engine] (printer : Printer σ) {v : Invoker} {e : Environment}
    (bound : h.environments.get? v.environment = some e) (own : e.inst = id) (name : String)
    (args : List HostValue) (results : List HostType) :
    v.call printer name args results h = (.error .busy, v.ready, h) := by
  obtain ⟨i, there, away⟩ := locked.away
  refine Invoker.call_refused bound ?_
  simp only [Host.callee, own, there, away]

/-- So nothing is cut when such a block is dropped, and nothing panics. -/
theorem dropPanics_of_locked {j : Nat} {b : Block} (block : h.blocks.get? j = some b)
    (own : b.inst = id) : h.dropPanics j = false := by
  subst own
  obtain ⟨i, there, away⟩ := locked.away
  obtain ⟨memory, exported⟩ := Option.isSome_iff_exists.1 (locked.exports j b i block rfl there)
  rw [Host.dropPanics, block, Option.any_some, releasedSlots_of_away there away exported,
    Attempt.isPanic, Bool.and_false]

/-- **Drops.** A block that is dropped is forgotten: nothing happens but that it gives up its hold on
the instance. -/
theorem dropBlock_of_locked {j : Nat} {b : Block} (block : h.blocks.get? j = some b)
    (own : b.inst = id) :
    h.dropBlock j = ({ h with blocks := h.blocks.erase j } : Host σ).releaseInstance id := by
  subst own
  obtain ⟨i, there, away⟩ := locked.away
  obtain ⟨memory, exported⟩ := Option.isSome_iff_exists.1 (locked.exports j b i block rfl there)
  generalize erased : ({ h with blocks := h.blocks.erase j } : Host σ) = h'
  have there' : h'.instance? b.inst = some i := erased ▸ there
  -- A store that is away is neither read nor given memory back, so the block is dropped without
  -- either.
  have unreleased : h'.releaseValues b = h' := by
    rw [Host.releaseValues, releasedSlots_of_away there' away exported]
    split
    · rfl
    · simp
  have unfreed : ∀ address, h'.freeBlock b.inst address = h' := by
    intro address
    unfold Host.freeBlock
    rw [there', Option.bind_some, away]
  unfold Host.dropBlock
  rw [block]
  dsimp only
  rw [erased, unreleased, ite_self]
  split
  · rw [unfreed]
  · rfl

end

end Embedder
