import Embedder.Proofs.Host.Disposal
import Embedder.Proofs.Layout

namespace Embedder

open Wasm (addressBits)

/-!
# The contents of blocks

Through a layout, a block is a list of values. It can be read one by one and all at once, and both
give the same; a value that is set is there afterwards, and no other one has changed.

* `Layout.read`, `Layout.write`, `Layout.get`, `Layout.set`, `Layout.toList`, `Layout.copyFrom`: access
  through a layout. For the layouts of guest types it is the host's own (`Block.own`).
* `Block.Housed`: where a block can be read and written.
* `Layout.Holds`: the values in a block.
-/

-- Powers are those of the core library, whatever else is imported.
attribute [local instance (1100)] instPowNat

variable {σ α β : Type}

/-! ### Access through a layout -/

namespace Layout

/-- The value in the slot at an address. -/
def read (l : Layout α) (id address : Nat) : HostM σ α := do
  pure (l.load (← HostM.readBytes id address l.size))

/-- Store a value in the slot at an address. -/
def write (l : Layout α) (id address : Nat) (v : α) : HostM σ Unit := do
  HostM.writeBytes id address (l.store v (← HostM.readBytes id address l.size))

/-- The address of a block's slot, if there is one of that index. -/
def slotAddress (l : Layout α) (b : Block) (i : Nat) : Except Error Nat :=
  if i < b.length then .ok (b.start + i * l.size) else .error (.outOfBounds i b.length)

/-- The value at an index. -/
def get (l : Layout α) (b : Block) (i : Nat) : HostM σ α := do
  l.read b.inst (← HostM.ofExcept (l.slotAddress b i))

/-- Overwrite the value at an index. -/
def set (l : Layout α) (b : Block) (i : Nat) (v : α) : HostM σ Unit := do
  l.write b.inst (← HostM.ofExcept (l.slotAddress b i)) v

/-- All values of an array in order. -/
def toList (l : Layout α) (b : Block) : HostM σ (Attempt (List α)) := do
  let bytes ← HostM.readBytes b.inst b.start (b.length * l.size)
  pure ((Bytes.chunks l.size bytes).map (·.map l.load))

/-- The bytes of values in a row, each stored in a slot of zero bytes. -/
def encode (l : Layout α) (vs : List α) : Bytes :=
  vs.flatMap fun v => l.store v (List.replicate l.size 0)

/-- The same, as they come from cutting as many zero bytes into slots. -/
def row (l : Layout α) (vs : List α) : Attempt Bytes :=
  (Bytes.chunks l.size (List.replicate (vs.length * l.size) 0)).map fun _ => l.encode vs

/-- Overwrite all values of an array; there have to be as many. -/
def copyFrom (l : Layout α) (b : Block) (vs : List α) : HostM σ (Attempt Unit) := do
  if vs.length ≠ b.length then throw (.sizeMismatch b.length vs.length)
  (l.row vs).andThen fun bytes => HostM.writeBytes b.inst b.start bytes

/-- Allocate one value; the host knows its type as `t`. -/
def allocate (l : Layout α) (id : Nat) (t : GuestType) (v : α) : HostM σ Nat := do
  let address ← HostM.takeBlock id t l.size
  HostM.keepBlock ⟨id, t, none, ⟨address⟩⟩ (l.write id address v)

end Layout

/-! ### The host's own access -/

/-- Computations that end alike from all states are the same. -/
theorem eq_of_exec_eq {ε S : Type} {x y : ExceptT ε (StateM S) α} (same : ∀ s, exec x s = exec y s) :
    x = y :=
  funext same

/-- An instance is there, and no call is in flight on it. -/
def Host.Quiet (h : Host σ) (id : Nat) : Prop :=
  ∃ i s, h.instance? id = some i ∧ i.store = some s

/-- To look for an instance's memory changes nothing, and takes that the instance is at rest. -/
theorem ends_exportedMemory (h : Host σ) (id : Nat) :
    Ends (HostM.exportedMemory id) h (fun _ t => t = h ∧ h.Quiet id) fun _ t => t = h := by
  simp only [HostM.exportedMemory, ends_bind_iff, ends_pure, ends_inst, ends_store, ends_ofOption,
    implies_true, and_true, true_and]
  intro _ _ _ _ i there s idle _ _
  exact ⟨i, s, there, idle⟩

namespace GuestType

variable (t : GuestType)

/-- Values of a guest type fill their slots, so it does not matter what was there. -/
theorem store_layout (d : Datum) {slot : Bytes} (length : slot.length = t.size) :
    t.layout.store d slot = t.store d := by
  show t.store d ++ slot.drop t.size = t.store d
  rw [List.drop_of_length_le (Nat.le_of_eq length), List.append_nil]

/-- The host writes a value through the layout of its type. -/
theorem write_layout (id address : Nat) (d : Datum) :
    t.layout.write id address d = (HostM.writeBytes id address (t.store d) : HostM σ Unit) := by
  refine eq_of_exec_eq fun h => ?_
  have look := ends_exportedMemory h id
  have length := t.length_store d
  simp only [Layout.write, HostM.readBytes, HostM.writeBytes, exec_bind]
  rcases found : exec (HostM.exportedMemory id) h with ⟨e | ⟨s, i, m⟩, h'⟩
  · rfl
  · have same : h' = h := (look.of_ok found).1
    subst same
    dsimp only
    by_cases inside : address + t.size ≤ m.size
    · have slot := t.store_layout d (m.length_bytesFrom address t.size)
      rw [show t.layout.size = t.size from rfl, m.read?_eq_some inside]
      simp only [exec_ofOption, slot, found]
    · have unread : m.read? address t.size = none := if_neg inside
      have unwritten : m.write? address (t.store d) = none := if_neg (length.symm ▸ inside)
      rw [show t.layout.size = t.size from rfl, unread, unwritten, length]
      rfl

/-- The bytes of values in a row are those of each, one after the other. -/
theorem encode_layout (ds : List Datum) : t.layout.encode ds = ds.flatMap t.store :=
  List.flatMap_congr fun d _ => t.store_layout d List.length_replicate

end GuestType

/-- The host's own access to a block is that through the layout of the block's type. -/
structure Block.Own (b : Block) (σ : Type) : Prop where
  read : (HostM.readValue b : HostM σ Datum) = b.type.layout.read b.inst b.start
  write : ∀ d, (HostM.writeValue b d : HostM σ Unit) = b.type.layout.write b.inst b.start d
  get : ∀ i, (HostM.getElement b i : HostM σ Datum) = b.type.layout.get b i
  set : ∀ i d, (HostM.setElement b i d : HostM σ Unit) = b.type.layout.set b i d
  toList : (HostM.readAll b : HostM σ (Attempt (List Datum))) = b.type.layout.toList b
  copyFrom : ∀ ds,
    (HostM.writeAll b ds : HostM σ (Attempt Unit)) = b.type.layout.copyFrom b ds

/-- All access of the host to a block is through the layout of its type. -/
theorem Block.own (b : Block) : b.Own σ where
  read := rfl
  write d := (b.type.write_layout b.inst b.start d).symm
  get i := rfl
  set i d := by
    unfold HostM.setElement Layout.set
    simp only [GuestType.write_layout]
    rfl
  toList := rfl
  copyFrom ds := by
    unfold HostM.writeAll Layout.copyFrom GuestType.row Layout.row
    rw [GuestType.encode_layout]
    rfl

/-- The host allocates a value through the layout of its type. -/
theorem GuestType.allocate_layout (t : GuestType) (id : Nat) (d : Datum) :
    (HostM.allocate id t d : HostM σ Nat) = t.layout.allocate id t d := by
  unfold HostM.allocate Layout.allocate
  simp only [GuestType.write_layout]
  rfl

/-! ### Stretches that are replaced -/

namespace Wasm.Memory

/-- The bytes of a stretch are those at its addresses. -/
theorem getElem_bytesFrom (m : Memory) (address count i : Nat)
    (lt : i < (m.bytesFrom address count).length) :
    (m.bytesFrom address count)[i] = m.byteAt (address + i) := by
  simp only [bytesFrom, List.getElem_map, List.getElem_range', Nat.one_mul]

/-- A memory of which a stretch has been replaced. -/
structure Replaced (m : Memory) (address : Nat) (bytes : Bytes) (m' : Memory) : Prop where
  size : m'.size = m.size
  here : m'.bytesFrom address bytes.length = bytes
  beside : ∀ a n, a + n ≤ 2 ^ addressBits → a + n ≤ address ∨ address + bytes.length ≤ a →
    m'.bytesFrom a n = m.bytesFrom a n

variable {m m' : Memory} {address count : Nat} {bytes : Bytes} {b : UInt8}

/-- To write bytes replaces a stretch, and leaves the rest. -/
theorem replaced_of_write? (written : m.write? address bytes = some m')
    (fits : address + bytes.length ≤ 2 ^ addressBits) : m.Replaced address bytes m' := by
  obtain ⟨size, beside⟩ := byteAt_write? written fits
  refine ⟨size, ?_, fun a n inside away => bytesFrom_congr fun i low high => ?_⟩
  · unfold write? at written
    split at written
    · cases written
      refine List.ext_getElem (length_bytesFrom _ _ _) fun i _ lt => ?_
      rw [getElem_bytesFrom]
      exact get_setBytes_inside m.bytes fits lt
    · cases written
  · exact beside i (by omega) (by omega)

/-- To fill replaces a stretch with copies of a byte. -/
theorem replaced_of_fill? (filled : m.fill? address count b = some m')
    (fits : address + count ≤ 2 ^ addressBits) :
    m.Replaced address (List.replicate count b) m' := by
  unfold fill? at filled
  split at filled
  · cases filled
    have byte : ∀ i, i < 2 ^ addressBits → byteAt { m with
        bytes := m.bytes.fill addressBits address (address + count) b } i =
          if address ≤ i ∧ i < address + count then b else m.byteAt i := fun i lt =>
      ByteTree.get_fill m.bytes address (address + count) b lt
    refine ⟨rfl, ?_, fun a n inside away => bytesFrom_congr fun i low high => ?_⟩
    · rw [List.length_replicate]
      refine List.eq_replicate_iff.2 ⟨length_bytesFrom _ _ _, fun x there => ?_⟩
      obtain ⟨i, inside, rfl⟩ := List.mem_map.1 there
      rw [List.mem_range'_1] at inside
      rw [byte i (by omega), if_pos inside]
    · rw [List.length_replicate] at away
      rw [byte i (by omega), if_neg (by omega)]
  · cases filled

end Wasm.Memory

/-- What a host is after a stretch of an instance's memory has been replaced, and nothing else. -/
structure Host.Replaced [Holder σ] [Rule σ] (h : Host σ) (id : Nat) (m : Wasm.Memory) (address : Nat)
    (bytes : Bytes) (t : Host σ) : Prop where
  memory : ∃ m', m.Replaced address bytes m' ∧
    ∀ j, t.memory? j = if j = id then some m' else h.memory? j
  blocks : t.blocks = h.blocks
  alike : SharesAlike h t
  leads : ∀ g, Leads (fun _ => True) ⟨h, g⟩ ⟨t, g⟩

section

variable [Holder σ] [Rule σ] {h : Host σ} {id address count : Nat} {m m' : Wasm.Memory} {bytes : Bytes}

/-- A change of a stretch that can be made replaces the stretch. -/
theorem exec_changeMemory (memory : h.memory? id = some m) (e : Wasm.Memory → Error)
    {change : Wasm.Memory → Option Wasm.Memory}
    (shape : ∀ m m', change m = some m' → m'.size = m.size ∧ m'.maximum = m.maximum)
    (changed : change m = some m') (replaced : m.Replaced address bytes m') :
    ∃ t, exec (do
        let (s, i, m) ← HostM.exportedMemory id
        let m ← HostM.ofOption (e m) (change m)
        HostM.putStore id { s with guest := s.guest.setMemory i m }) h = (.ok (), t) ∧
      h.Replaced id m address bytes t := by
  obtain ⟨i, s, number, there, idle, known, found⟩ := Host.memory?_eq_some memory
  have look := exec_exportedMemory there idle known found
  let s' : Store := { s with guest := s.guest.setMemory number m' }
  have done : exec (do
        let (s, i, m) ← HostM.exportedMemory id
        let m ← HostM.ofOption (e m) (change m)
        HostM.putStore id { s with guest := s.guest.setMemory i m }) h =
      (.ok (), h.modifyInstance id fun i => { i with store := some s' }) := by
    simp only [exec_bind, look, changed, exec_ofOption]
    rfl
  obtain ⟨alike, leads⟩ : SharesAlike h _ ∧ ∀ g, Leads (fun _ => True) ⟨h, g⟩ ⟨_, g⟩ :=
    (ends_changeMemory id e change shape).of_ok done
  refine ⟨_, done, ⟨m', replaced, fun j => ?_⟩, rfl, alike, leads⟩
  -- Only this instance has another memory than before.
  rw [Host.memory?, Host.instance?_modifyInstance]
  split
  case isTrue own =>
    subst own
    have set : s'.guest.memories[number]? = some m' := by
      rw [Wasm.Guest.getElem?_setMemory, if_pos rfl, found]
      rfl
    simp only [there, Option.map_some, Option.bind_some, Instance.exported?, known, set,
      Option.bind_eq_bind]
  case isFalse => rfl

/-- To write bytes inside of the memory succeeds, and replaces the stretch. -/
theorem exec_writeBytes_replaced (memory : h.memory? id = some m) (address : Nat) (bytes : Bytes)
    (inside : address + bytes.length ≤ m.size) (fits : address + bytes.length ≤ 2 ^ addressBits) :
    ∃ t, exec (HostM.writeBytes id address bytes) h = (.ok (), t) ∧
      h.Replaced id m address bytes t := by
  obtain ⟨m', written⟩ := Wasm.Memory.write?_eq_some inside
  exact exec_changeMemory memory (fun m => outside address bytes.length m.size)
    (fun _ _ => Wasm.Guest.write?_shape) written (Wasm.Memory.replaced_of_write? written fits)

/-- To zero bytes inside of the memory succeeds, and replaces the stretch. -/
theorem exec_zeroBytes_replaced (memory : h.memory? id = some m)
    (inside : address + count ≤ m.size) (fits : address + count ≤ 2 ^ addressBits) :
    ∃ t, exec (HostM.zeroBytes id address count) h = (.ok (), t) ∧
      h.Replaced id m address (List.replicate count 0) t := by
  have filled : ∃ m', m.fill? address count 0 = some m' := ⟨_, if_pos inside⟩
  obtain ⟨m', filled⟩ := filled
  exact exec_changeMemory memory (fun m => outside address count m.size)
    (fun _ _ => Wasm.Guest.fill?_shape) filled (Wasm.Memory.replaced_of_fill? filled fits)

end

/-! ### The values of a block -/

/-- A block that lies in the memory of its instance, which is at rest. -/
structure Block.Housed (b : Block) (h : Host σ) (m : Wasm.Memory) : Prop where
  memory : h.memory? b.inst = some m
  inside : b.span.stop ≤ m.size
  addressable : b.span.stop ≤ 2 ^ addressBits

namespace Layout

/-- A layout for the values of a block: it has slots of the right size, which are not empty. -/
structure Suits (l : Layout α) (b : Block) : Prop where
  size : l.size = b.type.size
  pos : 0 < l.size

/-- A block holds values: they can be read all at once, and one by one. -/
structure Holds (l : Layout α) (b : Block) (h : Host σ) (vs : List α) : Prop where
  length : vs.length = b.length
  list : exec (l.toList b) h = (.ok (.returns vs), h)
  get : ∀ i (lt : i < vs.length), exec (l.get b i) h = (.ok vs[i], h)

/-- The values in the slots of a block. -/
def values (l : Layout α) (b : Block) (m : Wasm.Memory) : List α :=
  (Bytes.slots l.size b.length (m.bytesFrom b.start (b.length * l.size))).map l.load

variable {l : Layout α} {b : Block} {h : Host σ} {m m' : Wasm.Memory} {vs : List α}

/-- The values of a block are loaded slot by slot. -/
theorem values_eq (l : Layout α) (b : Block) (m : Wasm.Memory) :
    l.values b m =
      (List.range b.length).map fun k => l.load (m.bytesFrom (b.start + k * l.size) l.size) := by
  rw [values, Bytes.slots_bytesFrom, List.map_map]
  rfl

@[simp] theorem length_values : (l.values b m).length = b.length := by
  rw [values_eq, List.length_map, List.length_range]

/-- The value at an index is loaded from its slot. -/
theorem getElem_values {i : Nat} (lt : i < (l.values b m).length) :
    (l.values b m)[i] = l.load (m.bytesFrom (b.start + i * l.size) l.size) := by
  simp only [values_eq, List.getElem_map, List.getElem_range]

/-- A slot lies in the block's span. -/
theorem Suits.slot_le (suits : l.Suits b) {i : Nat} (lt : i < b.length) :
    b.start + i * l.size + l.size ≤ b.span.stop := by
  rw [suits.size]
  exact Block.element_le lt

/-- The slots take up the whole block. -/
theorem Suits.stop (suits : l.Suits b) : b.span.stop = b.start + b.length * l.size := by
  rw [suits.size]
  rfl

/-- **Reading.** A block in memory holds the values in its slots. -/
theorem holds_values (suits : l.Suits b) (housed : b.Housed h m) : l.Holds b h (l.values b m) := by
  refine ⟨length_values, ?_, fun i lt => ?_⟩
  · have inside : b.start + b.length * l.size ≤ m.size := suits.stop ▸ housed.inside
    have cut := Bytes.chunks_of_length suits.pos (m.length_bytesFrom b.start (b.length * l.size))
    simp only [toList, exec_bind, exec_readBytes housed.memory inside, cut]
    rfl
  · have lt' : i < b.length := length_values ▸ lt
    have inside := Nat.le_trans (suits.slot_le lt') housed.inside
    rw [getElem_values lt]
    simp only [get, slotAddress, if_pos lt', read, exec_bind, exec_ofExcept,
      exec_readBytes housed.memory inside]
    rfl

/-- What is read at an index that there is not is refused, be the instance at rest or not. -/
theorem exec_get_of_le (l : Layout α) {i : Nat} (out : b.length ≤ i) (h : Host σ) :
    exec (l.get b i) h = (.error (.outOfBounds i b.length), h) := by
  rw [get, slotAddress, if_neg (Nat.not_lt_of_le out)]
  rfl

/-- A slot of zero bytes with a value stored in it. -/
theorem length_store_zeros (l : Layout α) (v : α) : (l.store v (List.replicate l.size 0)).length = l.size :=
  l.length_store v _ List.length_replicate

/-- Values in a row take up as many slots. -/
theorem length_encode (l : Layout α) (vs : List α) : (l.encode vs).length = vs.length * l.size := by
  induction vs with
  | nil => simp [encode]
  | cons v vs ih =>
    rw [encode, List.flatMap_cons, List.length_append, length_store_zeros, List.length_cons,
      Nat.succ_mul, Nat.add_comm]
    exact congrArg (· + l.size) ih

/-- With slots that are not empty, values in a row are stored without a panic. -/
theorem row_of_pos (pos : 0 < l.size) (vs : List α) : l.row vs = .returns (l.encode vs) := by
  rw [row, Bytes.chunks_of_pos pos, Attempt.map]

/-- The slots of values in a row are those that the values were stored in. -/
theorem slots_encode (l : Layout α) (vs : List α) :
    Bytes.slots l.size vs.length (l.encode vs) =
      vs.map fun v => l.store v (List.replicate l.size 0) := by
  induction vs with
  | nil => rfl
  | cons v vs ih =>
    have first := l.length_store_zeros v
    rw [encode, List.flatMap_cons, List.length_cons, Bytes.slots, List.take_left' first,
      List.drop_left' first, List.map_cons]
    exact congrArg _ ih

/-- Values that are loaded as they were stored are loaded from a row of them. -/
theorem load_encode (undone : ∀ v ∈ vs, l.Undoes v) :
    (Bytes.slots l.size vs.length (l.encode vs)).map l.load = vs := by
  rw [slots_encode, List.map_map]
  refine (List.map_congr_left fun v there => ?_).trans (List.map_id vs)
  exact undone v there _ List.length_replicate

/-- Where a slot is replaced, so is the one value in it. -/
theorem values_set (suits : l.Suits b) (fits : b.span.stop ≤ 2 ^ addressBits) {i : Nat}
    {slot : Bytes} (length : slot.length = l.size)
    (replaced : m.Replaced (b.start + i * l.size) slot m') :
    l.values b m' = (l.values b m).set i (l.load slot) := by
  have here := replaced.here
  rw [length] at here
  refine List.ext_getElem ?_ fun k lt' _ => ?_
  · rw [List.length_set, length_values, length_values]
  · rw [length_values] at lt'
    rw [getElem_values, List.getElem_set]
    split
    case isTrue own => rw [← own, here]
    case isFalse other =>
      -- the slots of different indices are apart
      have away : b.start + k * l.size + l.size ≤ b.start + i * l.size ∨
          b.start + i * l.size + slot.length ≤ b.start + k * l.size := by
        rcases Nat.lt_or_gt_of_ne other with before | after
        · have le := Nat.mul_le_mul_right l.size (Nat.succ_le_of_lt before)
          rw [Nat.succ_mul] at le
          omega
        · have le := Nat.mul_le_mul_right l.size (Nat.succ_le_of_lt after)
          rw [Nat.succ_mul] at le
          omega
      rw [getElem_values]
      exact congrArg l.load (replaced.beside _ _ (Nat.le_trans (suits.slot_le lt') fits) away)

end Layout

/-! ### Edits -/

/-- What overwrites values of a block. -/
inductive Edit (α : Type) where
  | set (i : Nat) (v : α)
  | copyFrom (vs : List α)

namespace Edit

/-- The host's operation. -/
def run (l : Layout α) (b : Block) : Edit α → HostM σ (Attempt Unit)
  | .set i v => .returns <$> l.set b i v
  | .copyFrom vs => l.copyFrom b vs

/-- Whether there is what is to be overwritten, among so many values. -/
def Fits (n : Nat) : Edit α → Prop
  | .set i _ => i < n
  | .copyFrom vs => vs.length = n

/-- What is wrong with an edit that does not fit. -/
def misfit (n : Nat) : Edit α → Error
  | .set i _ => .outOfBounds i n
  | .copyFrom vs => .sizeMismatch n vs.length

/-- Whether all values to be stored are loaded as they were stored. -/
def Undone (l : Layout α) : Edit α → Prop
  | .set _ v => l.Undoes v
  | .copyFrom vs => ∀ v ∈ vs, l.Undoes v

/-- The values afterwards; an edit that does not fit leaves them as they are. -/
def apply : Edit α → List α → List α
  | .set i v, vs => vs.set i v
  | .copyFrom ws, vs => if ws.length = vs.length then ws else vs

/-- What does not fit changes no value. -/
theorem apply_of_misfit {e : Edit α} {vs : List α} (misfit : ¬ e.Fits vs.length) : e.apply vs = vs := by
  cases e with
  | set i v => exact List.set_eq_of_length_le (Nat.le_of_not_lt misfit)
  | copyFrom ws => exact if_neg misfit

variable {l : Layout α} {b : Block} {h : Host σ} {m : Wasm.Memory} {e : Edit α}

/-- **Bounds.** An edit that does not fit is refused, and nothing happens, be the instance at rest or
not. -/
theorem exec_run_of_misfit (l : Layout α) (misfit : ¬ e.Fits b.length) (h : Host σ) :
    exec (e.run l b) h = (.error (e.misfit b.length), h) := by
  cases e with
  | set i v =>
    have out : ¬ i < b.length := misfit
    show exec (Attempt.returns <$> l.set b i v) h = _
    rw [Layout.set, Layout.slotAddress, if_neg out]
    rfl
  | copyFrom vs =>
    have other : vs.length ≠ b.length := misfit
    show exec (l.copyFrom b vs) h = _
    rw [Layout.copyFrom, if_pos other]
    rfl

/-- **Edits.** An edit that fits replaces a stretch of the block, and changes its values as it says. -/
theorem exec_run [Holder σ] [Rule σ] (suits : l.Suits b) (housed : b.Housed h m)
    (fits : e.Fits b.length) :
    ∃ a bytes t, exec (e.run l b) h = (.ok (.returns ()), t) ∧ h.Replaced b.inst m a bytes t ∧ b.start ≤ a ∧
      a + bytes.length ≤ b.span.stop ∧
      ∀ m', m.Replaced a bytes m' → e.Undone l → l.values b m' = e.apply (l.values b m) := by
  cases e with
  | set i v =>
    have lt : i < b.length := fits
    have slot := suits.slot_le lt
    have inside := Nat.le_trans slot housed.inside
    have old := m.length_bytesFrom (b.start + i * l.size) l.size
    have length := l.length_store v _ old
    obtain ⟨t, done, replaced⟩ := exec_writeBytes_replaced housed.memory (b.start + i * l.size)
      (l.store v (m.bytesFrom (b.start + i * l.size) l.size)) (by rwa [length])
      (by rw [length]; exact Nat.le_trans slot housed.addressable)
    refine ⟨_, _, t, ?_, replaced, Nat.le_add_right _ _, by rwa [length], fun m' changed undone => ?_⟩
    -- The slot is read before it is written, because a value need not fill it.
    · show exec (Attempt.returns <$> l.set b i v) h = _
      simp only [← bind_pure_comp, Layout.set, Layout.slotAddress, if_pos lt, Layout.write, exec_bind,
        exec_ofExcept, exec_readBytes housed.memory inside, done]
      rfl
    · rw [Layout.values_set suits housed.addressable length changed, undone _ old]
      rfl
  | copyFrom vs =>
    have same : vs.length = b.length := fits
    have length : (l.encode vs).length = b.length * l.size := by rw [l.length_encode, same]
    have stop := suits.stop
    have inside := housed.inside
    have addressable := housed.addressable
    obtain ⟨t, done, replaced⟩ := exec_writeBytes_replaced housed.memory b.start (l.encode vs)
      (by omega) (by omega)
    refine ⟨_, _, t, ?_, replaced, Nat.le_refl _, by omega, fun m' changed undone => ?_⟩
    · show exec (l.copyFrom b vs) h = _
      rw [Layout.copyFrom, if_neg (not_not_intro same), Layout.row_of_pos suits.pos]
      simp only [Attempt.andThen, exec_bind, done]
      rfl
    · have here := changed.here
      rw [length] at here
      rw [Layout.values, here, ← same, Layout.load_encode undone]
      exact (if_pos (same.trans (Layout.length_values).symm)).symm

/-- An edit of a block whose instance is not at rest does nothing. -/
theorem run_of_not_quiet (l : Layout α) (e : Edit α) (away : ¬ h.Quiet b.inst) :
    (exec (e.run l b) h).2 = h := by
  -- Every edit looks for the memory before it writes anything.
  have look : ∀ {β : Type} (rest : Store × Nat × Wasm.Memory → HostM σ β),
      Ends (HostM.exportedMemory b.inst >>= rest) h (fun _ t => t = h) fun _ t => t = h :=
    fun rest => ends_bind (ends_exportedMemory h b.inst) fun _ _ done => absurd done.2 away
  refine Ends.state (P := fun t => t = h) ?_
  cases e with
  | set i v =>
    show Ends (Attempt.returns <$> l.set b i v) h _ _
    rw [ends_map, Layout.set, ends_bind_iff, ends_ofExcept]
    refine ⟨fun address _ => ?_, fun _ _ => rfl⟩
    refine ends_bind (P := fun _ t => t = h) (look _) ?_
    rintro slot t rfl
    exact look _
  | copyFrom vs =>
    show Ends (l.copyFrom b vs) h _ _
    unfold Layout.copyFrom
    split
    · exact rfl
    · cases l.row vs with
      | returns bytes => exact ends_bind (look _) fun _ _ => id
      | panics message => exact rfl

end Edit

end Embedder
