import Embedder.Proofs.Host.Creation
import Embedder.Proofs.Host.Reckoning

namespace Embedder

/-!
# Blocks that come and go

While its instance is at rest, a block that is dropped has its values released, each in its turn and
as it is in memory, and then goes back to the app heap, where it is found. An allocation that fails
leaves everything as it is.

* `Bytes.slots_bytesFrom`, `Block.blockSlots_bytesFrom`: the slots of a stretch of memory, and those
  of a block.
* `Config.Orderly.disposes`: what becomes of a block that is dropped.
* `Allocates`, `Config.Orderly.allocates`: allocations, and those that fail.
-/

-- Powers are those of the core library, whatever else is imported.
attribute [local instance (1100)] instPowNat

/-! ### Slots -/

namespace Wasm.Memory

/-- A stretch of memory is a first slot and the rest. -/
theorem bytesFrom_add (m : Memory) (address size count : Nat) :
    m.bytesFrom address (size + count) =
      m.bytesFrom address size ++ m.bytesFrom (address + size) count := by
  rw [bytesFrom, bytesFrom, bytesFrom, ← List.map_append]
  congr 1
  have append := @List.range'_append address size count 1
  rw [Nat.one_mul] at append
  exact append.symm

end Wasm.Memory

/-- The slots of a stretch of memory, by induction on how many there are. -/
theorem Bytes.slots_bytesFrom (m : Wasm.Memory) (address size count : Nat) :
    Bytes.slots size count (m.bytesFrom address (count * size)) =
      (List.range count).map fun k => m.bytesFrom (address + k * size) size := by
  induction count generalizing address with
  | zero => rfl
  | succ count ih =>
    have length := m.length_bytesFrom address size
    rw [Nat.succ_mul, Nat.add_comm (count * size), m.bytesFrom_add, slots, List.take_left' length,
      List.drop_left' length, ih, List.range_succ_eq_map, List.map_cons, List.map_map]
    refine congrArg₂ List.cons (by simp) (List.map_congr_left fun k _ => ?_)
    rw [Function.comp_apply, Nat.succ_mul, Nat.add_assoc, Nat.add_comm size]

/-- A block in memory, whose slots are not empty, is found in them. -/
theorem Block.blockSlots_bytesFrom (b : Block) (m : Wasm.Memory) (pos : 0 < b.type.size) :
    Host.blockSlots b (m.bytesFrom b.start (Host.blockBytes b)) =
      .returns ((List.range b.length).map fun k =>
        m.bytesFrom (b.start + k * b.type.size) b.type.size) := by
  have slots := Bytes.slots_bytesFrom m b.start b.type.size b.length
  unfold Host.blockSlots
  cases counted : b.count with
  | none => simp [Host.blockBytes, Block.length, counted]
  | some count =>
    refine (Bytes.chunks_of_length pos (m.length_bytesFrom b.start (Host.blockBytes b))).trans ?_
    exact congrArg Attempt.returns slots

variable {σ : Type}

/-- The values of a block in memory, whose slots are not empty, are released without a panic. -/
theorem Host.releasedSlots_eq {h : Host σ} {b : Block} {m : Wasm.Memory} (pos : 0 < b.type.size)
    (memory : h.memory? b.inst = some m) (within : b.span.stop ≤ m.size) :
    h.releasedSlots b = .returns ((List.range b.length).map fun k =>
      m.bytesFrom (b.start + k * b.type.size) b.type.size) := by
  have read := exec_readBytes (n := Host.blockBytes b) memory within
  change (HostM.readBytes b.inst b.address.value (Host.blockBytes b)).run h = _ at read
  rw [Host.releasedSlots, read]
  exact b.blockSlots_bytesFrom m pos

section

variable [Holder σ] [Rule σ] {h : Host σ} {g : Pending} {id j : Nat} {b : Block}

/-! ### Drops -/

omit [Holder σ] [Rule σ] in
/-- What becomes of a block that is dropped while its instance is at rest. Its slots are read one
after another, each is released if that has an effect, and then the app heap takes back the block,
which it finds. -/
def Host.Disposes (h : Host σ) (j : Nat) (b : Block) (store : Store) : Prop :=
  ∃ (slot : Nat → Bytes) (heap : Heap) (size : Nat) (heap' : Heap),
    (∀ k, k < b.length → exec (HostM.readBytes b.inst (b.start + k * b.type.size) b.type.size) h =
      (.ok (slot k), h)) ∧
    store.heap = some heap ∧ heap.free? b.start = some (size, heap') ∧ b.span.size ≤ size ∧
    h.dropBlock j = Host.releaseInstance
      { h with
        blocks := h.blocks.erase j
        released := h.released ++ if b.type.released then (List.range b.length).map slot else []
        instances := h.instances.modify b.inst fun c =>
          { c with value := { c.value with store := some { store with heap := some heap' } } } }
      b.inst

/-- **Drops.** A block that is dropped while its instance is at rest is released slot by slot, and
given back. -/
theorem Config.Orderly.disposes (ha : Config.Orderly ⟨h, g⟩) {i : Instance} {store : Store}
    (present : h.blocks.get? j = some b) (there : h.instance? b.inst = some i)
    (idle : i.store = some store) (pos : 0 < b.type.size) : h.Disposes j b store := by
  have claimed := Config.mem_claims (g := g) present rfl
  obtain ⟨start, heap, size, heap', here, found, enough, -⟩ := ha.finds there idle claimed
  obtain ⟨m, memory, within⟩ := ha.inside there idle claimed
  have slot : ∀ k, k < b.length → b.start + k * b.type.size + b.type.size ≤ m.size :=
    fun k lt => Nat.le_trans (Block.element_le lt) within
  refine ⟨fun k => m.bytesFrom (b.start + k * b.type.size) b.type.size, heap, size, heap',
    fun k lt => exec_readBytes memory (slot k lt), here, found, enough, ?_⟩
  -- The block owns its memory, so that dropping it reads the values, frees the memory and gives
  -- the share back, in this order.
  have own : b.address.isNull = false := decide_eq_false (Nat.ne_of_gt start)
  unfold Host.dropBlock
  rw [present]
  dsimp only
  rw [own, if_neg Bool.false_ne_true, Handle.deleted, own, if_neg Bool.false_ne_true]
  dsimp only
  have values : ({ h with blocks := h.blocks.erase j } : Host σ).releaseValues b =
      { h with
        blocks := h.blocks.erase j
        released := h.released ++ if b.type.released then
          (List.range b.length).map fun k => m.bytesFrom (b.start + k * b.type.size) b.type.size
          else [] } := by
    have memory' : ({ h with blocks := h.blocks.erase j } : Host σ).memory? b.inst = some m := memory
    rw [Host.releaseValues, Host.releasedSlots_eq pos memory' within]
    cases b.type.released with
    | false => simp
    | true => rfl
  rw [values]
  refine congrArg (fun k : Host σ => k.releaseInstance b.inst) ?_
  exact Host.freeBlock_of_found there idle here found

/-- Nor does such a drop panic, if the slots are not empty. -/
theorem Config.Orderly.dropPanics_of_pos (ha : Config.Orderly ⟨h, g⟩) {i : Instance} {store : Store}
    (present : h.blocks.get? j = some b) (there : h.instance? b.inst = some i)
    (idle : i.store = some store) (pos : 0 < b.type.size) : h.dropPanics j = false := by
  obtain ⟨m, memory, within⟩ := ha.inside there idle (Config.mem_claims (g := g) present rfl)
  rw [Host.dropPanics, present, Option.any_some, Host.releasedSlots_eq pos memory within,
    Attempt.isPanic, Bool.and_false]

/-! ### Allocations -/

omit [Holder σ] [Rule σ] in
/-- No array is allocated that has more bytes than there are addresses. -/
theorem exec_allocateArray_of_large {type : GuestType} {count : Nat}
    (large : addressRange ≤ count * type.size) :
    exec (HostM.allocateArray id type count) h = (.error (.allocation (min (count * type.size)
      (2 ^ (64 : Nat) - 1)) (.tooManyElements count type.size)), h) := by
  unfold HostM.allocateArray
  dsimp only
  rw [if_pos large]
  rfl

omit [Holder σ] [Rule σ] in
theorem fits_of_allocateArray {type : GuestType} {count : Nat} {t : Host σ}
    (done : exec (HostM.allocateArray id type count) h = (.ok j, t)) :
    count * type.size < addressRange := by
  by_contra fits
  cases (exec_allocateArray_of_large (Nat.le_of_not_lt fits)).symm.trans done

omit [Holder σ] [Rule σ] in
/-- The ways of allocating a block of an instance. -/
inductive Allocates (id : Nat) : HostM σ Nat → Prop
  | value (type : GuestType) (value : Datum) : Allocates id (HostM.allocate id type value)
  | array (type : GuestType) (count : Nat) : Allocates id (HostM.allocateArray id type count)

omit [Holder σ] [Rule σ] in
/-- A block is taken from an instance at rest, which it stays; or else nothing happens. -/
theorem ends_takeBlock (id : Nat) (type : GuestType) (bytes : Nat) :
    Ends (HostM.takeBlock id type bytes) h
      (fun _ t => ∃ i s, t.instance? id = some i ∧ i.store = some s) fun _ t => t = h := by
  unfold HostM.takeBlock HostM.allocBlock
  split
  · split
    · exact rfl
    · simp only [ends_bind_iff, ends_pure, ends_store, ends_ofOption, ends_putStore, implies_true,
        and_true]
      intro i there s idle heap present cut fits
      refine ⟨{ i with store := some { s with heap := some cut.2 } }, _, ?_, rfl⟩
      rw [Host.instance?_modifyInstance, if_pos rfl, there]
      rfl
  · exact rfl

/-- An instance that is not in a call has a holder besides those in hand of calls. -/
theorem Config.Orderly.shared (ha : Config.Orderly ⟨h, g⟩) (rest : g.held id = none)
    (present : (h.instance? id).isSome) : Config.Shared ⟨h, g⟩ id := by
  have has : h.has .inst id := by simpa [Host.has, Host.instance?] using present
  have pos := (ha.sound.has_iff (by decide)).1 has
  have counted : h.holders .inst id = Holder.holds h.app .inst id + g.pins .inst id +
      h.inner .inst id + g.loaned .inst id := ha.sound.counted _ _ (by decide)
  have loaned : g.loaned .inst id = 0 := by simp [Pending.loaned, rest]
  show 0 < Holder.holds h.app .inst id + g.pins .inst id + h.inner .inst id
  omega

/-- A block that is taken lies in the instance's memory. -/
theorem Config.Orderly.takes (ha : Config.Orderly ⟨h, g⟩) (rest : g.held id = none)
    (type : GuestType) (bytes : Nat) :
    Ends (HostM.takeBlock id type bytes) h
      (fun address t => ∃ m, t.memory? id = some m ∧ address + bytes ≤ m.size) fun _ t => t = h := by
  have lead : Ends (HostM.takeBlock id type bytes) h
      (fun address t => Leads (fun _ => True) ⟨h, g⟩ ⟨t, g.take id ⟨address, bytes⟩⟩)
      fun _ _ => True := by
    unfold HostM.takeBlock
    split
    · exact (ends_allocBlock id bytes (ha.shared rest)).mono (fun _ _ taken => taken.2) fun _ _ _ => trivial
    · exact trivial
  refine ((ends_takeBlock id type bytes).and lead).mono ?_ fun _ _ failed => failed.1
  rintro address t ⟨⟨i, s, there, idle⟩, lead⟩
  have claimed : ⟨address, bytes⟩ ∈ Config.claims ⟨t, g.take id ⟨address, bytes⟩⟩ id :=
    List.mem_append_left _ (by simp)
  exact (lead.orderly ha).inside there idle claimed

omit [Holder σ] [Rule σ] in
/-- A block whose first contents can be written is kept. -/
theorem ends_keepBlock_of_writes {write : HostM σ Unit}
    (writes : Ends write h (fun _ _ => True) fun _ _ => False) :
    Ends (HostM.keepBlock b write) h (fun _ _ => True) fun _ _ => False := by
  unfold HostM.keepBlock
  simp only [ends_bind_iff]
  exact ends_tryCatch (writes.mono (fun _ _ _ => trivial) fun _ _ failed => failed)
    fun _ _ => False.elim

omit [Holder σ] [Rule σ] in
theorem ends_writeBytes_inside {m : Wasm.Memory} {address : Nat} {bytes : Bytes}
    (memory : h.memory? id = some m) (inside : address + bytes.length ≤ m.size) :
    Ends (HostM.writeBytes id address bytes) h (fun _ _ => True) fun _ _ => False := by
  obtain ⟨m', t, -, done, -⟩ := exec_writeBytes memory inside
  unfold Ends
  rw [done]
  trivial

omit [Holder σ] [Rule σ] in
theorem ends_zeroBytes_inside {m : Wasm.Memory} {address count : Nat}
    (memory : h.memory? id = some m) (inside : address + count ≤ m.size) :
    Ends (HostM.zeroBytes id address count) h (fun _ _ => True) fun _ _ => False := by
  obtain ⟨i, s, number, there, idle, known, found⟩ := Host.memory?_eq_some memory
  unfold HostM.zeroBytes
  rw [ends_bind_of_ok (exec_exportedMemory there idle known found)]
  simp only [Wasm.Memory.fill?, if_pos inside, ends_bind_iff, ends_ofOption, ends_putStore,
    implies_true, reduceCtorEq, false_imp_iff, and_true]

/-- **Allocations.** An allocation that fails leaves everything as it is. -/
theorem Config.Orderly.allocates (ha : Config.Orderly ⟨h, g⟩) (rest : g.held id = none)
    {x : HostM σ Nat} (allocates : Allocates id x) :
    Ends x h (fun _ _ => True) fun _ t => t = h := by
  cases allocates with
  | value type value =>
    -- A block that was taken lies inside of memory, so what is written first can not fail.
    refine ends_bind (ha.takes rest type type.size) fun address t taken => ?_
    obtain ⟨m, memory, inside⟩ := taken
    refine (ends_keepBlock_of_writes (ends_writeBytes_inside memory ?_)).mono (fun _ _ _ => trivial)
      fun _ _ => False.elim
    rw [GuestType.length_store]
    exact inside
  | array type count =>
    unfold HostM.allocateArray
    dsimp only
    split
    · exact rfl
    · refine ends_bind (ha.takes rest type (count * type.size)) fun address t taken => ?_
      obtain ⟨m, memory, inside⟩ := taken
      exact (ends_keepBlock_of_writes (ends_zeroBytes_inside memory inside)).mono
        (fun _ _ _ => trivial) fun _ _ => False.elim

end

end Embedder
