import Embedder.Host.Blocks
import Embedder.Host.Counters
import Embedder.Proofs.Monad
import Embedder.Proofs.Table

namespace Embedder

/-!
# Operations on one instance

Most of what a host does with an instance goes by the instance alone, and changes nothing else: in
two hosts that have the instance in common such an operation ends in the same way, whatever other
objects there are and however many hold the instance.

* `Counted.Like`: the same value with more holders.
* `Local`: an operation on one instance.
* `local_bind`, `local_tryCatch`: operations on the same instance, one after another.
* `local_getGlobal`, `local_readBytes`, `local_writeBytes`, `local_resetCounters`: the operations.
* `Numbers`: what takes a block, and then gives it its number.
-/

variable {σ α β : Type} {id : Nat}

/-! ### The same value with more holders -/

/-- Two counted values are the same, and the first one has so many holders more. -/
structure Counted.Like (n : Nat) (c d : Counted α) : Prop where
  value : d.value = c.value
  holders : c.holders = d.holders + n

/-- One more holder in both hosts leaves the difference as it is. -/
theorem Counted.Like.retain {n : Nat} {c d : Counted α} (like : c.Like n d) :
    c.retain.Like n d.retain :=
  ⟨like.value, by rw [Counted.retain, Counted.retain, like.holders, Nat.add_right_comm]⟩

/-- A change of the value leaves the difference as it is. -/
theorem Counted.Like.map {n : Nat} {c d : Counted α} (like : c.Like n d) (f : α → α) :
    Counted.Like n { c with value := f c.value } { d with value := f d.value } :=
  ⟨congrArg f like.value, like.holders⟩

/-- With no more holders it is the same altogether. -/
theorem Counted.rel_like_zero {c d : Option (Counted α)} : Option.Rel (Counted.Like 0) c d ↔ d = c := by
  constructor
  · intro like
    cases like with
    | @some c d like =>
      obtain ⟨value, holders⟩ := c
      obtain ⟨value', holders'⟩ := d
      cases like.value
      cases like.holders
      rfl
    | none => rfl
  · rintro rfl
    cases d with
    | none => exact .none
    | some c => exact .some ⟨rfl, rfl⟩

/-- What is there in both hosts or in neither has the same value. -/
theorem Counted.map_value_of_rel {n : Nat} {c d : Option (Counted α)}
    (like : Option.Rel (Counted.Like n) c d) : d.map Counted.value = c.map Counted.value := by
  cases like with
  | some like => exact congrArg Option.some like.value
  | none => rfl

/-! ### Pools that differ in one place -/

/-- Two pools are the same aside from one number, which stands for something in both or in neither. -/
structure Pool.Aside (id : Nat) (p q : Pool α) : Prop where
  next : q.next = p.next
  there : (q.get? id).isSome = (p.get? id).isSome
  others : ∀ j, j ≠ id → q.get? j = p.get? j

/-- A pool is the same as itself, aside from any number. -/
theorem Pool.Aside.refl (p : Pool α) : p.Aside id p :=
  ⟨rfl, rfl, fun _ _ => rfl⟩

/-- What is the same aside from a number, step by step, is so in the end. -/
theorem Pool.Aside.trans {p q r : Pool α} (first : p.Aside id q) (second : q.Aside id r) :
    p.Aside id r :=
  ⟨second.next.trans first.next, second.there.trans first.there,
    fun j other => (second.others j other).trans (first.others j other)⟩

/-- A change of one value leaves the others. -/
theorem Pool.aside_modify (p : Pool α) (id : Nat) (f : α → α) : p.Aside id (p.modify id f) where
  next := p.next_modify id f
  there := by rw [get?_modify, if_pos rfl, Option.isSome_map]
  others j other := by rw [get?_modify, if_neg other]

/-! ### Operations on one instance -/

/-- An operation goes by one instance, and changes nothing but this instance. -/
structure Local (id : Nat) (x : HostM σ α) : Prop where
  like : ∀ {n : Nat} {h k : Host σ},
    Option.Rel (Counted.Like n) (h.instances.get? id) (k.instances.get? id) →
      (exec x k).1 = (exec x h).1 ∧ Option.Rel (Counted.Like n) ((exec x h).2.instances.get? id)
        ((exec x k).2.instances.get? id)
  alone : ∀ h : Host σ, ∃ p, (exec x h).2 = { h with instances := p } ∧ h.instances.Aside id p

/-- In two hosts with the instance in common the operation ends in the same way. -/
theorem Local.alike {x : HostM σ α} (own : Local id x) {h k : Host σ}
    (same : k.instances.get? id = h.instances.get? id) :
    (exec x k).1 = (exec x h).1 ∧
      (exec x k).2.instances.get? id = (exec x h).2.instances.get? id := by
  obtain ⟨ended, after⟩ := own.like (Counted.rel_like_zero.2 same)
  exact ⟨ended, Counted.rel_like_zero.1 after⟩

/-! ### Composition -/

section

variable {x : HostM σ α} {f : α → HostM σ β}

/-- To return something is an operation on any instance. -/
theorem local_pure (a : α) : Local id (pure a : HostM σ α) :=
  ⟨fun same => ⟨rfl, same⟩, fun h => ⟨h.instances, rfl, .refl _⟩⟩

/-- To fail is an operation on any instance. -/
theorem local_throw (e : Error) : Local id (throw e : HostM σ α) :=
  ⟨fun same => ⟨rfl, same⟩, fun h => ⟨h.instances, rfl, .refl _⟩⟩

/-- One operation on an instance after another is one, too: the second starts from an instance
that ended up the same in both hosts. -/
theorem local_bind (first : Local id x) (rest : ∀ a, Local id (f a)) : Local id (x >>= f) where
  like := by
    intro n h k same
    obtain ⟨ended, after⟩ := first.like same
    rw [exec_bind, exec_bind]
    generalize exec x h = r at ended after ⊢
    generalize exec x k = q at ended after ⊢
    obtain ⟨e | a, h'⟩ := r <;> obtain ⟨e' | a', k'⟩ := q <;> cases ended
    · exact ⟨rfl, after⟩
    · exact (rest a).like after
  alone := by
    intro h
    obtain ⟨p, after, aside⟩ := first.alone h
    rw [exec_bind]
    generalize exec x h = r at after ⊢
    obtain ⟨e | a, h'⟩ := r <;> cases after
    · exact ⟨p, rfl, aside⟩
    · obtain ⟨q, after, aside'⟩ := (rest a).alone { h with instances := p }
      exact ⟨q, after, aside.trans aside'⟩

/-- So it is with an operation on the instance that handles an error. -/
theorem local_tryCatch {handler : Error → HostM σ α} (first : Local id x)
    (handled : ∀ e, Local id (handler e)) : Local id (tryCatch x handler) where
  like := by
    intro n h k same
    obtain ⟨ended, after⟩ := first.like same
    rw [exec_tryCatch, exec_tryCatch]
    generalize exec x h = r at ended after ⊢
    generalize exec x k = q at ended after ⊢
    -- It fails in both hosts or in neither.
    obtain ⟨e | a, h'⟩ := r <;> obtain ⟨e' | a', k'⟩ := q <;> cases ended
    · exact (handled e).like after
    · exact ⟨rfl, after⟩
  alone := by
    intro h
    obtain ⟨p, after, aside⟩ := first.alone h
    rw [exec_tryCatch]
    generalize exec x h = r at after ⊢
    obtain ⟨e | a, h'⟩ := r <;> cases after
    · obtain ⟨q, after, aside'⟩ := (handled e).alone { h with instances := p }
      exact ⟨q, after, aside.trans aside'⟩
    · exact ⟨p, rfl, aside⟩

end

/-- What is missing is missed in any host. -/
theorem local_ofOption (e : Error) (a : Option α) : Local id (HostM.ofOption e a : HostM σ α) := by
  cases a with
  | none => exact local_throw e
  | some a => exact local_pure a

/-- What has failed fails in any host. -/
theorem local_ofExcept (a : Except Error α) : Local id (HostM.ofExcept a : HostM σ α) := by
  cases a with
  | error e => exact local_throw e
  | ok a => exact local_pure a

/-! ### The instance and its store -/

/-- An instance is looked up. -/
theorem local_inst : Local id (HostM.inst id : HostM σ Instance) where
  like := by
    intro n h k same
    have there : k.instance? id = h.instance? id := Counted.map_value_of_rel same
    have look : ∀ g : Host σ,
        exec (HostM.inst id) g = exec (HostM.ofOption .badHandle (g.instance? id)) g := fun _ => rfl
    rw [look, look, there]
    exact (local_ofOption .badHandle (h.instance? id)).like same
  alone h := by
    have look : exec (HostM.inst id) h = exec (HostM.ofOption .badHandle (h.instance? id)) h := rfl
    rw [look]
    exact (local_ofOption .badHandle (h.instance? id)).alone h

/-- The store of an instance is looked up. -/
theorem local_store : Local id (HostM.store id : HostM σ Store) :=
  local_bind local_inst fun _ => local_ofOption _ _

/-- What is the same but for its holders is so after a change of both. -/
theorem rel_like_map {n : Nat} {f : Counted α → Counted α}
    (keeps : ∀ c d : Counted α, c.Like n d → (f c).Like n (f d)) {c d : Option (Counted α)}
    (like : Option.Rel (Counted.Like n) c d) :
    Option.Rel (Counted.Like n) (c.map f) (d.map f) := by
  cases like with
  | some like => exact .some (keeps _ _ like)
  | none => exact .none

/-- A change of one instance. -/
theorem local_modify {f : Counted Instance → Counted Instance}
    (keeps : ∀ n (c d : Counted Instance), c.Like n d → (f c).Like n (f d)) :
    Local id (modify fun h : Host σ => { h with instances := h.instances.modify id f }) where
  like := by
    intro n h k like
    refine ⟨rfl, ?_⟩
    show Option.Rel _ ((h.instances.modify id f).get? id) ((k.instances.modify id f).get? id)
    rw [Pool.get?_modify, Pool.get?_modify, if_pos rfl, if_pos rfl]
    exact rel_like_map (keeps n) like
  alone h := ⟨_, rfl, h.instances.aside_modify id f⟩

theorem local_modifyInstance (f : Instance → Instance) :
    Local id (modify fun h : Host σ => h.modifyInstance id f) :=
  local_modify fun _ _ _ like => like.map f

/-- An instance gets another store. -/
theorem local_putStore (s : Store) : Local id (HostM.putStore id s : HostM σ Unit) :=
  local_modifyInstance _

/-! ### Memory -/

/-- The exported memory is found in the store of the instance. -/
theorem local_exportedMemory :
    Local id (HostM.exportedMemory id : HostM σ (Store × Nat × Wasm.Memory)) :=
  local_bind local_inst fun _ => local_bind (local_ofOption _ _) fun _ =>
    local_bind local_store fun _ => local_bind (local_ofOption _ _) fun _ => local_pure _

/-- Bytes are read from the memory of the instance. -/
theorem local_readBytes (address count : Nat) :
    Local id (HostM.readBytes id address count : HostM σ Bytes) :=
  local_bind local_exportedMemory fun _ => local_ofOption _ _

/-- Bytes are written to the memory of the instance. -/
theorem local_writeBytes (address : Nat) (bytes : Bytes) :
    Local id (HostM.writeBytes id address bytes : HostM σ Unit) :=
  local_bind local_exportedMemory fun _ => local_bind (local_ofOption _ _) fun _ =>
    local_putStore _

theorem local_zeroBytes (address count : Nat) :
    Local id (HostM.zeroBytes id address count : HostM σ Unit) :=
  local_bind local_exportedMemory fun _ => local_bind (local_ofOption _ _) fun _ =>
    local_putStore _

/-- The size of the memory is a matter of the instance. -/
theorem local_memorySize : Local id (HostM.memorySize id : HostM σ Nat) :=
  local_bind local_store fun _ => local_bind local_inst fun _ => local_pure _

/-- Statistics are taken from the app heap of the instance. -/
theorem local_heapStats : Local id (HostM.heapStats id : HostM σ (Option HeapStats)) :=
  local_bind local_store fun _ => local_pure _

/-! ### Globals and the latch -/

/-- The exported global is found in the store of the instance. -/
theorem local_exportedGlobal (name : String) :
    Local id (HostM.exportedGlobal id name : HostM σ (Store × Nat × Wasm.GlobalType)) :=
  local_bind local_store fun _ => local_bind (local_ofOption _ _) fun _ => local_pure _

/-- A global is read as it is in the store of the instance. -/
theorem local_getGlobal (name : String) (type : HostType) :
    Local id (HostM.getGlobal id name type : HostM σ HostValue) :=
  local_bind (local_exportedGlobal name) fun _ => local_bind (local_ofExcept _) fun _ =>
    local_bind (local_ofOption _ _) fun _ => local_ofExcept _

/-- A global is written in the store of the instance. -/
theorem local_setGlobal (name : String) (value : HostValue) :
    Local id (HostM.setGlobal id name value : HostM σ Unit) := by
  refine local_bind (local_exportedGlobal name) fun _ => local_bind (local_ofExcept _) fun _ => ?_
  dsimp only
  split
  · exact local_throw _
  · exact local_putStore _

/-- Whether an exception is latched is a matter of the instance. -/
theorem local_exception? : Local id (HostM.exception? id : HostM σ (Option Fault)) :=
  local_bind local_store fun _ => local_pure _

/-- An exception is latched in the instance. -/
theorem local_setException (fault : Fault) :
    Local id (HostM.setException id fault : HostM σ Unit) :=
  local_bind local_store fun _ => local_putStore _

/-- The latched exception is taken from the instance. -/
theorem local_clearException : Local id (HostM.clearException id : HostM σ (Option Fault)) :=
  local_bind local_store fun _ => local_bind (local_putStore _) fun _ => local_pure _

/-- A counter is read from two globals of the instance. -/
theorem local_getUInt64 (name : String) : Local id (HostM.getUInt64 id name : HostM σ UInt64) := by
  refine local_bind (local_getGlobal name .u64) fun v => ?_
  cases v <;> first | exact local_pure _ | exact local_throw _

/-- Counter and threshold are read from globals of the instance. -/
theorem local_readCounters : Local id (HostM.readCounters id : HostM σ Counters) := by
  refine local_bind (local_getUInt64 _) fun _ => local_tryCatch
    (local_bind (local_getUInt64 _) fun _ => local_pure _) fun e => ?_
  split
  · exact local_pure _
  · exact local_throw _

/-- Counter and threshold are set to zero in globals of the instance. -/
theorem local_resetCounters : Local id (HostM.resetCounters id : HostM σ Unit) := by
  refine local_bind (local_setGlobal _ _) fun _ => local_tryCatch (local_setGlobal _ _) fun e => ?_
  split
  · exact local_pure _
  · exact local_throw _

/-! ### Blocks -/

section

variable (b : Block)

/-- The value of a block is read from the memory of its instance. -/
theorem local_readValue : Local b.inst (HostM.readValue b : HostM σ Datum) :=
  local_bind (local_readBytes _ _) fun _ => local_pure _

/-- The values of an array are read from the memory of its instance. -/
theorem local_readAll : Local b.inst (HostM.readAll b : HostM σ (Attempt (List Datum))) :=
  local_bind (local_readBytes _ _) fun _ => local_pure _

/-- An element is read from the memory of its instance. -/
theorem local_getElement (i : Nat) : Local b.inst (HostM.getElement b i : HostM σ Datum) :=
  local_bind (local_ofExcept _) fun _ => local_bind (local_readBytes _ _) fun _ => local_pure _

/-- The value of a block is written to the memory of its instance. -/
theorem local_writeValue (value : Datum) : Local b.inst (HostM.writeValue b value : HostM σ Unit) :=
  local_writeBytes _ _

/-- An element is written to the memory of its instance. -/
theorem local_setElement (i : Nat) (value : Datum) :
    Local b.inst (HostM.setElement b i value : HostM σ Unit) :=
  local_bind (local_ofExcept _) fun _ => local_writeBytes _ _

/-- The values of an array are written to the memory of its instance. -/
theorem local_writeAll (values : List Datum) :
    Local b.inst (HostM.writeAll b values : HostM σ (Attempt Unit)) := by
  unfold HostM.writeAll
  split
  · exact local_throw _
  · cases b.type.row values with
    | returns bytes => exact local_bind (local_writeBytes _ _) fun _ => local_pure _
    | panics message => exact local_pure _

end

/-- A block is taken from the app heap of the instance. -/
theorem local_takeBlock (t : GuestType) (bytes : Nat) :
    Local id (HostM.takeBlock id t bytes : HostM σ Nat) := by
  unfold HostM.takeBlock
  split
  · unfold HostM.allocBlock
    split
    · exact local_throw _
    · exact local_bind local_store fun _ => local_bind (local_ofOption _ _) fun _ =>
        local_bind (local_ofOption _ _) fun _ => local_bind (local_putStore _) fun _ => local_pure _
  · exact local_throw _

/-- A block goes back to the app heap of the instance. -/
theorem local_freeBlock (address : Nat) :
    Local id (modify fun h : Host σ => h.freeBlock id address) where
  like := by
    intro n h k like
    refine ⟨rfl, ?_⟩
    have there : k.instance? id = h.instance? id := Counted.map_value_of_rel like
    show Option.Rel _ ((h.freeBlock id address).instances.get? id)
      ((k.freeBlock id address).instances.get? id)
    -- Whether there is a heap that takes the block depends on the store of the instance.
    unfold Host.freeBlock
    rw [there]
    split
    · exact like
    · split
      · exact like
      · exact ((local_modifyInstance _).like like).2
  alone h := by
    show ∃ p, h.freeBlock id address = { h with instances := p } ∧ _
    unfold Host.freeBlock
    split
    · exact ⟨h.instances, rfl, .refl _⟩
    · split
      · exact ⟨h.instances, rfl, .refl _⟩
      · exact ⟨_, rfl, h.instances.aside_modify id _⟩

/-- The first contents of a block are written, or else the block goes back; then the block holds its
instance. -/
def HostM.fillBlock (b : Block) (write : HostM σ Unit) : HostM σ Unit := do
  tryCatch write fun e => do
    modify (·.freeBlock b.inst b.start)
    throw e
  modify (·.retainInstance b.inst)

/-- A block gets its number. -/
def HostM.numberBlock (b : Block) : HostM σ Nat := do
  let h ← get
  let (blocks, id) := h.blocks.insert b
  set { h with blocks }
  pure id

/-- A block is filled first, and numbered when that has succeeded. -/
theorem keepBlock_eq (b : Block) (write : HostM σ Unit) :
    HostM.keepBlock b write = HostM.fillBlock b write >>= fun _ => HostM.numberBlock b := by
  simp only [HostM.fillBlock, bind_assoc]
  rfl

/-- The first contents of a block are a matter of its instance, and so is the way back. -/
theorem local_fillBlock {b : Block} (own : b.inst = id) {write : HostM σ Unit}
    (wrote : Local id write) : Local id (HostM.fillBlock b write) := by
  subst own
  exact local_bind (local_tryCatch wrote fun _ => local_bind (local_freeBlock _) fun _ =>
    local_throw _) fun _ => local_modify fun _ _ _ like => like.retain

/-- An operation takes a block from an instance, and then gives it its number. -/
def Numbers (id : Nat) (x : HostM σ Nat) : Prop :=
  ∃ (y : HostM σ Nat) (block : Nat → Block), Local id y ∧ (∀ address, (block address).inst = id) ∧
    x = y >>= fun address => HostM.numberBlock (block address)

/-- What takes a block, fills it and keeps it gives it its number at last. -/
theorem numbers_keepBlock {take : HostM σ Nat} {block : Nat → Block} {write : Nat → HostM σ Unit}
    (taken : Local id take) (own : ∀ address, (block address).inst = id)
    (wrote : ∀ address, Local id (write address)) :
    Numbers id (take >>= fun address => HostM.keepBlock (block address) (write address)) := by
  refine ⟨take >>= fun address => HostM.fillBlock (block address) (write address) >>= fun _ =>
    pure address, block, ?_, own, ?_⟩
  · exact local_bind taken fun address =>
      local_bind (local_fillBlock (own address) (wrote address)) fun _ => local_pure _
  · simp only [keepBlock_eq, bind_assoc, pure_bind]

/-- An allocation takes a block from one instance, and then gives it its number. -/
theorem numbers_allocate (t : GuestType) (value : Datum) :
    Numbers id (HostM.allocate id t value : HostM σ Nat) :=
  numbers_keepBlock (local_takeBlock t _) (fun _ => rfl) fun _ => local_writeBytes _ _

/-- So does the allocation of an array. -/
theorem numbers_allocateArray (t : GuestType) (count : Nat) :
    Numbers id (HostM.allocateArray id t count : HostM σ Nat) := by
  unfold HostM.allocateArray
  dsimp only
  split
  · exact ⟨throw _, fun address => ⟨id, t, some (HostM.keptCount count), ⟨address⟩⟩, local_throw _,
      fun _ => rfl, rfl⟩
  · exact numbers_keepBlock (local_takeBlock t _) (fun _ => rfl) fun _ => local_zeroBytes _ _

end Embedder
