import Embedder.Proofs.Host.Backing
import Embedder.Proofs.Host.Liveness
import Embedder.Proofs.Wasm.Access

namespace Embedder

open Wasm (pageSize addressBits)

/-!
# Reading and writing blocks

While the instance of a block is at rest, the host reads and writes the block in the instance's
exported memory, at addresses of the block and at no others.

* `Host.memory?`, `Host.heap?`, `Host.byte?`: what the host sees of an instance at rest.
* `Block.Lies`: where a block lies.
* `Block.Reads`, `Block.Writes`: what reads and writes a block.
* `Block.Reads.succeeds`, `Block.Writes.succeeds`, `Block.Writes.frame`, `Block.Writes.reads`: they
  succeed, and leave everything outside the block as it is.
-/

-- Powers are those of the core library, whatever else is imported.
attribute [local instance (1100)] instPowNat

variable {σ : Type}

/-! ### What the host sees of an instance at rest -/

/-- The exported memory of an instance at rest. -/
def Instance.exported? (i : Instance) : Option Wasm.Memory := do
  let s ← i.store
  let memory ← i.memory
  s.guest.memories[memory]?

namespace Host

/-- The exported memory of an instance at rest. -/
def memory? (h : Host σ) (id : Nat) : Option Wasm.Memory :=
  (h.instance? id).bind Instance.exported?

/-- The app heap of an instance at rest. -/
def heap? (h : Host σ) (id : Nat) : Option Heap :=
  ((h.instance? id).bind Instance.store).bind Store.heap

/-- The byte at an address of an instance at rest, if its memory reaches so far. -/
def byte? (h : Host σ) (id a : Nat) : Option UInt8 :=
  (h.memory? id).bind fun m => if a < m.size then some (m.byteAt a) else none

/-- A memory that can be accessed belongs to an instance at rest. -/
theorem memory?_eq_some {h : Host σ} {id : Nat} {m : Wasm.Memory} (present : h.memory? id = some m) :
    ∃ i s memory, h.instance? id = some i ∧ i.store = some s ∧ i.memory = some memory ∧
      s.guest.memories[memory]? = some m := by
  obtain ⟨i, there, exported⟩ := Option.bind_eq_some_iff.1 present
  simp only [Instance.exported?, Option.bind_eq_bind, Option.bind_eq_some_iff] at exported
  obtain ⟨s, store, memory, number, found⟩ := exported
  exact ⟨i, s, memory, there, store, number, found⟩

end Host

/-! ### Stretches of bytes -/

section

variable {h : Host σ} {id a n : Nat} {m m' : Wasm.Memory} {bytes : Bytes}

theorem exec_ofOption {α : Type} (e : Error) (a : α) :
    exec (HostM.ofOption e (some a)) h = (.ok a, h) := rfl

theorem exec_ofExcept {α : Type} (a : α) : exec (HostM.ofExcept (.ok a)) h = (.ok a, h) := rfl

/-- The exported memory of an instance at rest is found. -/
theorem exec_exportedMemory {i : Instance} {s : Store} {memory : Nat}
    (there : h.instance? id = some i) (store : i.store = some s) (number : i.memory = some memory)
    (found : s.guest.memories[memory]? = some m) :
    exec (HostM.exportedMemory id) h = (.ok (s, memory, m), h) := by
  have inst : exec (HostM.inst id) h = (.ok i, h) := by
    have look : exec (get : HostM σ (Host σ)) h = (.ok h, h) := rfl
    simp only [HostM.inst, exec_bind, look, there, exec_ofOption]
  simp only [HostM.exportedMemory, HostM.store, exec_bind, inst, number, store, found,
    exec_ofOption]
  rfl

/-- Bytes inside of the memory are read. -/
theorem exec_readBytes (present : h.memory? id = some m) (inside : a + n ≤ m.size) :
    exec (HostM.readBytes id a n) h = (.ok (m.bytesFrom a n), h) := by
  obtain ⟨i, s, memory, there, store, number, found⟩ := Host.memory?_eq_some present
  simp only [HostM.readBytes, exec_bind, exec_exportedMemory there store number found,
    Wasm.Memory.read?_eq_some inside, exec_ofOption]

/-- A write changes one memory, and no instance otherwise. -/
theorem exec_writeBytes (present : h.memory? id = some m) (inside : a + bytes.length ≤ m.size) :
    ∃ m' t, m.write? a bytes = some m' ∧ exec (HostM.writeBytes id a bytes) h = (.ok (), t) ∧
      ∀ j, t.memory? j = if j = id then some m' else h.memory? j := by
  obtain ⟨i, s, memory, there, store, number, found⟩ := Host.memory?_eq_some present
  obtain ⟨m', written⟩ := Wasm.Memory.write?_eq_some inside
  refine ⟨m', h.modifyInstance id fun i =>
    { i with store := some { s with guest := s.guest.setMemory memory m' } }, written, ?_, ?_⟩
  · simp only [HostM.writeBytes, exec_bind, exec_exportedMemory there store number found, written,
      exec_ofOption]
    rfl
  -- Of the memories, only the one of this instance has changed.
  · intro j
    rw [Host.memory?, Host.instance?_modifyInstance]
    split
    case isTrue e =>
      subst e
      have set : (s.guest.setMemory memory m').memories[memory]? = some m' := by
        rw [Wasm.Guest.getElem?_setMemory, if_pos rfl, found]
        rfl
      simp only [there, Option.map_some, Option.bind_some, Instance.exported?, number, set,
        Option.bind_eq_bind]
    case isFalse => rfl

end

/-! ### Blocks -/

namespace Block

/-- Where a block lies: at an aligned address that is not zero, in the region of its instance's app
heap, which is that of some pages of the exported memory. -/
structure Lies (b : Block) (h : Host σ) (heap : Heap) (m : Wasm.Memory) : Prop where
  memory_eq : h.memory? b.inst = some m
  heap_eq : h.heap? b.inst = some heap
  start_pos : 0 < b.start
  aligned : b.type.align ∣ b.start
  base_le : heap.base ≤ b.start
  stop_le : b.span.stop ≤ heap.base + heap.capacity
  pages : ∃ before count, heap.region = (Heap.ofPages before count).region ∧
    before * pageSize ≤ b.start ∧ b.span.stop ≤ (before + count) * pageSize ∧
    (before + count) * pageSize ≤ m.size
  in_range : b.span.stop < addressRange

/-- The reads of a block with a valid index, each with what is said of its result. An array can only
be cut into slots that are not empty. -/
inductive Reads (b : Block) : (α : Type) → (α → Prop) → HostM σ α → Prop
  | value (pos : 0 < b.length) : Reads b Datum (fun _ => True) (HostM.readValue b)
  | element {i : Nat} (lt : i < b.length) : Reads b Datum (fun _ => True) (HostM.getElement b i)
  | all : Reads b (Attempt (List Datum))
      (fun r => 0 < b.type.size → ∃ ds, r = .returns ds ∧ ds.length = b.length) (HostM.readAll b)

/-- The writes of a block, each with the condition that its index or its length is valid, and with
its result if it is. -/
inductive Writes (b : Block) : (α : Type) → Prop → α → HostM σ α → Prop
  | value (pos : 0 < b.length) (v : Datum) : Writes b Unit True () (HostM.writeValue b v)
  | element (i : Nat) (v : Datum) : Writes b Unit (i < b.length) () (HostM.setElement b i v)
  | all (vs : List Datum) : Writes b (Attempt Unit) (vs.length = b.length ∧ 0 < b.type.size)
      (.returns ()) (HostM.writeAll b vs)

variable {b c : Block} {h : Host σ} {α β : Type} {valid : Prop} {done : α} {good : β → Prop}

/-- The last address that a block spans is that of its last element. -/
theorem stop_span (b : Block) : b.span.stop = b.start + b.length * b.type.size := rfl

/-- An element lies in the block's span. -/
theorem element_le {i : Nat} (lt : i < b.length) :
    b.start + i * b.type.size + b.type.size ≤ b.span.stop := by
  have le := Nat.mul_le_mul_right b.type.size (Nat.succ_le_of_lt lt)
  rw [Nat.succ_mul] at le
  rw [stop_span]
  omega

/-- Values in a row take up as many times their size. -/
theorem length_stores (t : GuestType) (vs : List Datum) :
    (vs.flatMap t.store).length = vs.length * t.size := by
  induction vs with
  | nil => simp
  | cons v vs ih => rw [List.flatMap_cons, List.length_append, ih, GuestType.length_store,
      List.length_cons, Nat.succ_mul, Nat.add_comm]

/-- A read looks at a stretch of the block, and gives what is said of it. -/
theorem Reads.stretch {y : HostM σ β} (reads : b.Reads β good y) : ∃ (a n : Nat) (f : Bytes → β),
    b.start ≤ a ∧ a + n ≤ b.span.stop ∧ y = f <$> HostM.readBytes b.inst a n ∧
      ∀ bytes : Bytes, bytes.length = n → good (f bytes) := by
  -- Each read is one of a stretch of bytes, and then loads what it has got.
  cases reads with
  | value pos =>
    have le := element_le pos
    exact ⟨b.start, b.type.size, b.type.load, Nat.le_refl _, by omega, bind_pure_comp _ _,
      fun _ _ => trivial⟩
  | @element i lt =>
    refine ⟨b.start + i * b.type.size, b.type.size, b.type.load, Nat.le_add_right _ _,
      element_le lt, ?_, fun _ _ => trivial⟩
    rw [HostM.getElement, elementAddress, if_pos lt]
    rfl
  | all =>
    refine ⟨b.start, b.length * b.type.size, fun bytes =>
      (Bytes.chunks b.type.size bytes).map (·.map b.type.load), Nat.le_refl _, Nat.le_refl _,
      bind_pure_comp _ _, fun bytes length pos =>
        ⟨(Bytes.slots b.type.size b.length bytes).map b.type.load, ?_, ?_⟩⟩
    · dsimp only
      rw [Bytes.chunks_of_length pos length, Attempt.map]
    · rw [List.length_map, Bytes.length_slots]

/-- A write replaces a stretch of the block, or ends right away: it fails or panics. -/
theorem Writes.stretch {x : HostM σ α} (writes : b.Writes α valid done x) :
    (∃ a bytes, b.start ≤ a ∧ a + bytes.length ≤ b.span.stop ∧
      x = (fun _ => done) <$> HostM.writeBytes b.inst a bytes) ∨
        ¬ valid ∧ ((∃ e, x = throw e) ∨ ∃ r, x = pure r) := by
  -- Each write is one of a stretch of bytes, unless what is to be written does not fit.
  cases writes with
  | value pos v =>
    have le := element_le pos
    refine .inl ⟨b.start, b.type.store v, Nat.le_refl _, ?_, (id_map _).symm⟩
    rw [GuestType.length_store]
    omega
  | element i v =>
    by_cases lt : i < b.length
    · refine .inl ⟨b.start + i * b.type.size, b.type.store v, Nat.le_add_right _ _, ?_, ?_⟩
      · rw [GuestType.length_store]
        exact element_le lt
      · rw [HostM.setElement, elementAddress, if_pos lt]
        exact (id_map _).symm
    · refine .inr ⟨lt, .inl ⟨.outOfBounds i b.length, ?_⟩⟩
      rw [HostM.setElement, elementAddress, if_neg lt]
      rfl
  | all vs =>
    by_cases same : vs.length = b.length
    · by_cases pos : 0 < b.type.size
      · refine .inl ⟨b.start, vs.flatMap b.type.store, Nat.le_refl _, ?_, ?_⟩
        · exact Nat.le_of_eq (by rw [length_stores, same, stop_span])
        · rw [HostM.writeAll, if_neg (not_not_intro same), GuestType.row_of_pos pos]
          exact bind_pure_comp _ _
      · exact .inr ⟨fun valid => pos valid.2, .inr
          ⟨_, HostM.writeAll_of_empty same (Nat.eq_zero_of_not_pos pos)⟩⟩
    · refine .inr ⟨fun valid => same valid.1, .inl ⟨.sizeMismatch b.length vs.length, ?_⟩⟩
      rw [HostM.writeAll, if_pos same]
      rfl

/-! ### Blocks that lie in memory -/

section

variable {heap heap' : Heap} {m m' : Wasm.Memory} {x : HostM σ α} {y : HostM σ β}

/-- A block that lies in a heap lies in the memory. -/
theorem Lies.stop_le_size (lies : b.Lies h heap m) : b.span.stop ≤ m.size := by
  obtain ⟨before, count, -, -, le, size⟩ := lies.pages
  exact Nat.le_trans le size

/-- A valid read succeeds and changes nothing. -/
theorem Reads.succeeds (reads : b.Reads β good y) (lies : b.Lies h heap m) :
    ∃ v, exec y h = (.ok v, h) ∧ good v := by
  obtain ⟨a, n, f, -, stop, rfl, gives⟩ := reads.stretch
  have inside : a + n ≤ m.size := Nat.le_trans stop lies.stop_le_size
  refine ⟨f (m.bytesFrom a n), ?_, gives _ (m.length_bytesFrom a n)⟩
  rw [← bind_pure_comp, exec_bind, exec_readBytes lies.memory_eq inside]
  rfl

/-- What a write does to the memories. -/
theorem Writes.run (writes : b.Writes α valid done x) (lies : b.Lies h heap m) :
    ((exec x h).2 = h ∧ ¬ valid) ∨
      ∃ m' t, exec x h = (.ok done, t) ∧ (∀ j, t.memory? j = if j = b.inst then some m' else h.memory? j) ∧
        m'.size = m.size ∧ ∀ a, a < addressRange → ¬ b.span.Covers a → m'.byteAt a = m.byteAt a := by
  rcases writes.stretch with ⟨a, bytes, start, stop, rfl⟩ | ⟨invalid, ⟨e, rfl⟩ | ⟨r, rfl⟩⟩
  · have inside : a + bytes.length ≤ m.size := Nat.le_trans stop lies.stop_le_size
    have range : (addressRange : Nat) = 2 ^ addressBits := rfl
    have in_range := lies.in_range
    obtain ⟨m', t, written, ended, memories⟩ := exec_writeBytes lies.memory_eq inside
    obtain ⟨size, beside⟩ := Wasm.Memory.byteAt_write? written (by omega)
    refine .inr ⟨m', t, ?_, memories, size, fun i hi away => beside i (range ▸ hi) ?_⟩
    · rw [← bind_pure_comp, exec_bind, ended]
      rfl
    · simp only [Span.Covers, span, Span.stop] at *
      omega
  · exact .inl ⟨rfl, invalid⟩
  · exact .inl ⟨rfl, invalid⟩

/-- A valid write succeeds. -/
theorem Writes.succeeds (writes : b.Writes α valid done x) (lies : b.Lies h heap m) (ok : valid) :
    (exec x h).1 = .ok done := by
  rcases writes.run lies with ⟨-, invalid⟩ | ⟨m', t, ended, -⟩
  · exact absurd ok invalid
  · rw [ended]

/-- A write changes no byte outside the block. -/
theorem Writes.frame (writes : b.Writes α valid done x) (lies : b.Lies h heap m) {id a : Nat}
    (range : a < addressRange) (outside : id = b.inst → ¬ b.span.Covers a) :
    (exec x h).2.byte? id a = h.byte? id a := by
  rcases writes.run lies with ⟨failed, -⟩ | ⟨m', t, ended, memories, size, same⟩
  · rw [failed]
  · rw [ended, Host.byte?, Host.byte?, memories]
    split
    case isTrue e =>
      rw [e, lies.memory_eq, Option.bind_some, Option.bind_some, size, same a range (outside e)]
    case isFalse => rfl

/-- What is read of a block is not changed by a write of a block apart from it. -/
theorem Writes.reads (writes : b.Writes α valid done x) (lies : b.Lies h heap m)
    (reads : c.Reads β good y)
    (lies' : c.Lies h heap' m') (apart : b.inst = c.inst → b.span.Apart c.span) :
    (exec y (exec x h).2).1 = (exec y h).1 := by
  rcases writes.run lies with ⟨failed, -⟩ | ⟨written, t, ended, memories, size, same⟩
  · rw [failed]
  obtain ⟨a, n, f, start, stop, rfl, -⟩ := reads.stretch
  -- The stretch that is read lies in a memory that is as large as it was.
  have inside : a + n ≤ m'.size := Nat.le_trans stop lies'.stop_le_size
  have before := exec_readBytes lies'.memory_eq inside
  have after := memories c.inst
  rw [ended, ← bind_pure_comp, exec_bind, exec_bind, before]
  split at after
  case isTrue e =>
    have own : m' = m := Option.some.inj (lies'.memory_eq.symm.trans (e ▸ lies.memory_eq))
    subst own
    have bytes : written.bytesFrom a n = m'.bytesFrom a n := by
      have in_range := lies'.in_range
      have apart := apart e.symm
      refine Wasm.Memory.bytesFrom_congr fun i low high => same i (by omega) fun covers => ?_
      simp only [Span.Covers, Span.Apart, span, Span.stop] at *
      omega
    rw [exec_readBytes after (size.symm ▸ inside), bytes]
    rfl
  case isFalse =>
    rw [exec_readBytes (after.trans lies'.memory_eq) inside]
    rfl

end

end Block

/-! ### Every block lies in memory -/

/-- An alignment that the app heap can give divides its unit. -/
theorem GuestType.align_dvd {t : GuestType} (aligned : t.isAligned) : t.align ∣ blockAlign := by
  simp only [isAligned, Bool.or_eq_true, decide_eq_true_eq] at aligned
  rcases aligned with ((e | e) | e) | e <;> rw [e] <;> decide

section

variable [Holder σ] [Rule σ] {h : Host σ} {j k : Nat} {b c : Block}

omit [Holder σ] [Rule σ] in
/-- A block that is there claims its span. -/
theorem Config.mem_claims {id : Nat} {g : Pending} (present : h.blocks.get? j = some b)
    (inst : b.inst = id) : b.span ∈ Config.claims ⟨h, g⟩ id := by
  refine List.mem_append_right _ (List.mem_map_of_mem (List.mem_filter.2 ⟨?_, by simp [inst]⟩))
  exact Pool.mem_values.2 ⟨j, present⟩

/-- The instance of a block is there, at rest. -/
theorem Config.Sound.inst_of_block (sound : Config.Sound ⟨h, .none⟩)
    (present : h.blocks.get? j = some b) : ∃ i s, h.instance? b.inst = some i ∧ i.store = some s ∧
      Config.custody? ⟨h, .none⟩ b.inst = some ⟨i, none, []⟩ := by
  have refs : 0 < h.refs .block j .inst b.inst := by
    simp [Host.refs, present, Block.refs, Holds.on]
  obtain ⟨c, there⟩ := Option.isSome_iff_exists.1 (sound.has_of_refs refs)
  have custody := Config.custody?_of_get? (c := ⟨h, .none⟩) there
  obtain ⟨s, idle⟩ := Option.isSome_iff_exists.1 ((sound.custody _ _ custody).idle rfl)
  exact ⟨c.value, s, by simp [Host.instance?, there], idle, custody⟩

/-- While nothing is in hand, every block lies in its instance's memory. -/
theorem Config.Backed.lies (backed : Config.Backed ⟨h, .none⟩) (sound : Config.Sound ⟨h, .none⟩)
    (placed : ∀ id x, Config.custody? ⟨h, .none⟩ id = some x → x.Placed)
    (aligned : h.blocks.All fun b => b.type.isAligned) (present : h.blocks.get? j = some b) :
    ∃ heap m, b.Lies h heap m := by
  obtain ⟨i, s, there, idle, custody⟩ := sound.inst_of_block present
  have store : Custody.store? ⟨i, none, []⟩ = some s := Custody.store?_idle rfl idle
  obtain ⟨t, live, start, size⟩ :=
    (backed.backs _ _ custody).exists_live (Config.mem_claims present rfl)
  have placed := placed _ _ custody
  rw [Custody.live, store, Option.map_some, Option.getD_some, Store.live] at live
  -- something is live, so there is a heap
  cases heap : s.heap with
  | none =>
    rw [heap] at live
    cases live
  | some hp =>
    rw [heap, Option.map_some, Option.getD_some] at live
    obtain ⟨memory, m, exported, found, inside⟩ := placed.placed s store hp heap
    have number : i.memory = some memory := (placed.idle s idle).trans exported
    obtain ⟨before, count, region, within⟩ := inside.pages
    have block := inside.tiled.live_block t live
    have pos := block.pos
    have base := block.base_le
    have stop := block.stop_le
    obtain ⟨base_eq, capacity_eq⟩ := Prod.mk.inj region
    have start : t.start = b.start := start
    have first := @Heap.inside_ofPages before count t.start
    have last := @Heap.inside_ofPages before count (t.stop - 1)
    refine ⟨hp, m, ?_, ?_, ?_, ?_, ?_, ?_, ⟨before, count, region, ?_, ?_, within⟩, ?_⟩
    · simp only [Host.memory?, there, Option.bind_some, Instance.exported?, idle, number, found,
        Option.bind_eq_bind]
    · simp only [Host.heap?, there, Option.bind_some, idle, heap]
    · exact start ▸ block.start_pos
    · exact start ▸ Nat.dvd_trans (GuestType.align_dvd (aligned j b present)) block.start_aligned
    all_goals
      simp only [Block.span, Span.stop] at *
      omega

/-- The live spans of an instance's app heap are apart. -/
theorem Custody.Placed.live_apart {x : Custody} (hx : x.Placed) : x.live.Pairwise Span.Apart := by
  rw [Custody.live]
  cases store : x.store? with
  | none => exact .nil
  | some s =>
    rw [Option.map_some, Option.getD_some, Store.live]
    cases heap : s.heap with
    | none => exact .nil
    | some hp =>
      obtain ⟨memory, m, -, -, inside⟩ := hx.placed s store hp heap
      exact (List.pairwise_append.1 inside.tiled.apart).2.1

/-- While nothing is in hand, two blocks of one instance are apart. -/
theorem Config.Backed.apart (backed : Config.Backed ⟨h, .none⟩) (sound : Config.Sound ⟨h, .none⟩)
    (placed : ∀ id x, Config.custody? ⟨h, .none⟩ id = some x → x.Placed) (ne : j ≠ k)
    (hj : h.blocks.get? j = some b) (hk : h.blocks.get? k = some c) (inst : b.inst = c.inst) :
    b.span.Apart c.span := by
  obtain ⟨i, s, -, -, custody⟩ := sound.inst_of_block hj
  have first := Host.owned_erase hj b.inst
  rw [if_pos rfl] at first
  have still : ({ h with blocks := h.blocks.erase j } : Host σ).blocks.get? k = some c := by
    rw [Pool.get?_erase, if_neg (Ne.symm ne)]
    exact hk
  have second := Host.owned_erase still b.inst
  rw [if_pos inst.symm] at second
  have both := (first.trans (second.cons b.span)).symm
  exact ((backed.backs _ _ custody).perm both).apart (placed _ _ custody).live_apart

end

end Embedder
