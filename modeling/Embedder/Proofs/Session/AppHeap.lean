import Embedder.Proofs.Host.Disposal
import Embedder.Proofs.Host.Pages
import Embedder.Proofs.Host.Standing
import Embedder.Proofs.Session.Blocks

namespace Embedder

open Session (Step Slots hookedPrinter runWith empty)
open Wasm (pageSize maxPages addressBits)

/-!
# App heaps of new instances

An instance that is made with an app heap is the one that would be made without, but for new pages at
the end of its memory, which are all zero and which the app heap manages.

* `HostM.enroll`, `HostM.startUp`, `HostM.furnish`: the parts of making an instance.
* `Host.Furnished`, `furnished_of_instantiate`: what an app heap adds to an instance.
* `Host.Furnished.serves`: the first block that is taken of it.
* `Host.Provides`, `appHeap_of_instantiate`: how large an app heap is that was asked for.
-/

-- Powers are those of the core library, whatever else is imported.
attribute [local instance (1100)] instPowNat

variable {σ : Type} {printer : Printer σ} {h t : Host σ} {id : Nat} {m : Wasm.Memory} {heap : Heap}

/-! ### The parts of making an instance -/

section

variable [Engine]

namespace HostM

/-- An instance that is yet to be brought up, with what it is made of. -/
def enroll (module stack : Nat) : HostM σ (Nat × Runtime × LoadedModule) := do
  let m ← HostM.module module
  let r ← runtime m.runtime
  lease m.commons stack .inst
  modify (·.retainModule module)
  let h ← get
  let (instances, id) := h.instances.insert ⟨{
    module
    commons := m.commons
    stackSize := stack
    limiter := .empty
    memory := none
    store := none }, 1⟩
  set { h with instances }
  pure (id, r, m)

/-- The store of an instance when its start function is over. -/
def startUp (printer : Printer σ) (id : Nat) (r : Runtime) (m : LoadedModule) : HostM σ Store := do
  let failed (cause : String) : Error := .initFailed .inst (.instantiation cause)
  let imported ← ofExcept ((link r.natives m.wasm).mapError failed)
  let (result, s) ← inFlight (.ofGuest (.bare m.wasm imported))
    (FlightM.populate printer ⟨id, m.commons, true⟩ r.config.maxWasmStack.toNat m.wasm)
  ofExcept (result.mapError failed)
  pure s

/-- The instance gets its store, and an app heap if one is asked for. -/
def furnish (id : Nat) (m : LoadedModule) (heap : Nat) (s : Store) : HostM σ Unit := do
  let memory := s.guest.exportedMemory? memoryExport
  let s ← if heap = 0 then pure s else appendHeap ⟨id, m.commons, true⟩ memory heap s
  modify fun h => h.modifyInstance id fun i => { i with memory, store := some s }

end HostM

theorem bringUp_eq (printer : Printer σ) (id : Nat) (r : Runtime) (m : LoadedModule) (bytes : Nat) :
    HostM.bringUp printer id r m bytes =
      (HostM.startUp printer id r m >>= HostM.furnish id m bytes) := by
  simp only [HostM.bringUp, HostM.startUp, HostM.furnish, bind_assoc, pure_bind]

theorem instantiate_eq (printer : Printer σ) (module stack bytes : Nat) :
    HostM.instantiate printer module stack bytes = (do
      let (id, r, m) ← HostM.enroll module stack
      HostM.orUndo (·.releaseInstance id) (HostM.bringUp printer id r m bytes)
      pure id) := by
  simp only [HostM.instantiate, HostM.enroll, bind_assoc, pure_bind]

/-- An instance is made in three parts. -/
theorem exec_instantiate_eq_ok {module stack bytes : Nat}
    (done : exec (HostM.instantiate printer module stack bytes) h = (.ok id, t)) :
    ∃ r m h₁ s h₂, exec (HostM.enroll module stack) h = (.ok (id, r, m), h₁) ∧
      exec (HostM.startUp printer id r m) h₁ = (.ok s, h₂) ∧
      exec (HostM.furnish id m bytes s) h₂ = (.ok (), t) := by
  rw [instantiate_eq, exec_bind] at done
  rcases enrolled : exec (HostM.enroll module stack) h with ⟨e | ⟨id', r, m⟩, h₁⟩ <;>
    rw [enrolled] at done
  · cases done
  simp only [HostM.orUndo, bringUp_eq, exec_bind, exec_tryCatch] at done
  rcases started : exec (HostM.startUp printer id' r m) h₁ with ⟨e | s, h₂⟩ <;>
    rw [started] at done
  · cases done
  dsimp only at done
  rcases furnished : exec (HostM.furnish id' m bytes s) h₂ with ⟨e | u, h₃⟩ <;>
    rw [furnished] at done
  · cases done
  cases done
  exact ⟨r, m, h₁, s, _, rfl, started, furnished⟩

theorem exec_instantiate_of_ok {module stack bytes : Nat} {r : Runtime} {m : LoadedModule}
    {h₁ h₂ : Host σ} {s : Store} (enrolled : exec (HostM.enroll module stack) h = (.ok (id, r, m), h₁))
    (started : exec (HostM.startUp printer id r m) h₁ = (.ok s, h₂))
    (furnished : exec (HostM.furnish id m bytes s) h₂ = (.ok (), t)) :
    exec (HostM.instantiate printer module stack bytes) h = (.ok id, t) := by
  simp only [instantiate_eq, HostM.orUndo, bringUp_eq, exec_bind, exec_tryCatch, enrolled, started,
    furnished]
  rfl

/-- After the start function, the memories of the guest have whole pages. -/
theorem ends_startUp (r : Runtime) (m : LoadedModule) :
    Ends (HostM.startUp printer id r m) h (fun s _ => s.guest.Whole) fun _ _ => True := by
  simp only [HostM.startUp, ends_bind_iff, ends_ofExcept, ends_inFlight, ends_pure, implies_true,
    and_true]
  intro imported _ _ _
  exact whole_of_populate rfl

end

/-! ### New pages -/

/-- A memory that grows keeps its bytes, and the bytes added are zero. -/
theorem Wasm.Memory.byteAt_grow {size a : Nat} (lt : a < 2 ^ addressBits) :
    (m.grow size).byteAt a = if m.size ≤ a ∧ a < size then 0 else m.byteAt a :=
  ByteTree.get_fill m.bytes m.size size 0 lt

/-- What an app heap adds to an instance: so many new pages, which are zero and in which the app heap
is. The app heap has all of their bytes but for a unit at address zero, and one at the end of all
addresses. -/
structure Host.Furnished (t₀ t : Host σ) (id bytes : Nat) (m₀ m : Wasm.Memory) (heap : Heap) :
    Prop where
  start : t₀.memory? id = some m₀
  memory : t.memory? id = some m
  managed : t.heap? id = some heap
  whole : pageSize ∣ m₀.size
  size : m.size = m₀.size + pagesFor bytes * pageSize
  enough : bytes ≤ pagesFor bytes * pageSize ∧ pagesFor bytes * pageSize < bytes + pageSize
  addressable : m.size ≤ addressRange
  kept : ∀ a, a < m₀.size → m.byteAt a = m₀.byteAt a
  zero : ∀ a, m₀.size ≤ a → a < m.size → m.byteAt a = 0
  inside : m₀.size ≤ heap.base ∧ heap.base + heap.capacity ≤ m.size
  capacity : heap.capacity + Heap.lacking m₀.size m.size = pagesFor bytes * pageSize
  unused : heap.live = []
  tiled : heap.Tiled
  /-- Any first block that is not larger than the app heap can be had. -/
  first : ∀ n, (heap.alloc? n).isSome ↔ n ≤ heap.capacity

/-- With an app heap, the instance gets its store with the memory that its module exports grown by
whole pages, and the app heap in them. -/
theorem ends_furnish_grown {bytes : Nat} {s : Store} (pos : 0 < bytes) (l : LoadedModule) :
    Ends (HostM.furnish id l bytes s) h
      (fun _ t => ∃ number m₀ u, s.guest.exportedMemory? memoryExport = some number ∧
        s.guest.memories[number]? = some m₀ ∧
        m₀.size + pagesFor bytes * pageSize ≤ maxPages * pageSize ∧
        (h.instance? id).isSome ∧ (Host.instance? u id).isSome ∧
        t = u.modifyInstance id fun i => { i with
          memory := some number
          store := some { s with
            guest := s.guest.setMemory number (m₀.grow (m₀.size + pagesFor bytes * pageSize))
            heap := some (.ofPages m₀.pages (pagesFor bytes)) } })
      fun _ _ => True := by
  unfold HostM.furnish
  rw [if_neg (Nat.pos_iff_ne_zero.1 pos)]
  refine ends_bind (ends_appendHeap_grown _ _ bytes s) ?_
  rintro _ u ⟨number, m₀, exported, found, fits, rfl, there, there'⟩
  rw [ends_modify]
  exact ⟨number, m₀, u, exported, found, fits, there, there', by rw [exported]⟩

/-- The pages of an app heap have room for what was asked for, and no page is one too many. -/
theorem le_pagesFor (bytes : Nat) :
    bytes ≤ pagesFor bytes * pageSize ∧ pagesFor bytes * pageSize < bytes + pageSize := by
  simp only [pagesFor, pageSize]
  omega

theorem furnished_of_furnish {bytes : Nat} {l : LoadedModule} {s : Store} (pos : 0 < bytes)
    (whole : s.guest.Whole) (done : exec (HostM.furnish id l bytes s) h = (.ok (), t)) :
    ∃ t₀ m₀ m heap, exec (HostM.furnish id l 0 s) h = (.ok (), t₀) ∧
      t₀.Furnished t id bytes m₀ m heap := by
  obtain ⟨number, m₀, u, exported, found, fits, there, there', rfl⟩ :=
    (ends_furnish_grown pos l).of_ok done
  obtain ⟨i, there⟩ := Option.isSome_iff_exists.1 there
  obtain ⟨j, there'⟩ := Option.isSome_iff_exists.1 there'
  -- The app heap is the pages added at the end of the memory: it begins where the memory ended.
  have pages : m₀.pages * pageSize = m₀.size := Nat.div_mul_cancel (whole number m₀ found)
  have enough := le_pagesFor bytes
  have some_pages : 0 < pagesFor bytes := by
    simp only [pageSize] at enough
    omega
  have few : m₀.pages + pagesFor bytes ≤ maxPages := by
    simp only [pageSize, maxPages] at *
    omega
  obtain ⟨low, high, capacity⟩ := Heap.region_ofPages some_pages few
  rw [Nat.add_mul, pages] at high capacity
  rw [pages] at low
  refine ⟨_, m₀, m₀.grow (m₀.size + pagesFor bytes * pageSize), .ofPages m₀.pages (pagesFor bytes), rfl,
    ?_⟩
  exact
    { start := by
        show ((h.modifyInstance id _).instance? id).bind Instance.exported? = _
        simp [Host.instance?_modifyInstance, there, Instance.exported?, exported, found]
      memory := by
        simp [Host.memory?, Host.instance?_modifyInstance, there', Instance.exported?,
          Wasm.Guest.getElem?_setMemory, found]
      managed := by simp [Host.heap?, Host.instance?_modifyInstance, there']
      whole := whole number m₀ found
      size := rfl
      enough
      addressable := fits
      kept := by
        intro a lt
        rw [Wasm.Memory.byteAt_grow (by simp only [pageSize, maxPages, addressBits] at *; omega)]
        exact if_neg (by omega)
      zero := by
        intro a low high
        have lt : a < m₀.size + pagesFor bytes * pageSize := high
        rw [Wasm.Memory.byteAt_grow (by simp only [pageSize, maxPages, addressBits] at *; omega)]
        exact if_pos ⟨low, lt⟩
      inside := ⟨low, high⟩
      capacity := capacity
      unused := rfl
      tiled := Heap.tiled_manage _ _
      first := Heap.isSome_alloc?_iff some_pages few }

/-- An instance with an app heap is the one without, furnished with it. -/
theorem furnished_of_instantiate [Engine] {module stack bytes : Nat} (pos : 0 < bytes)
    (done : exec (HostM.instantiate printer module stack bytes) h = (.ok id, t)) :
    ∃ t₀ m₀ m heap, exec (HostM.instantiate printer module stack 0) h = (.ok id, t₀) ∧
      t₀.Furnished t id bytes m₀ m heap := by
  obtain ⟨r, l, h₁, s, h₂, enrolled, started, furnished⟩ := exec_instantiate_eq_ok done
  obtain ⟨t₀, m₀, m, heap, bare, furnished⟩ :=
    furnished_of_furnish pos ((ends_startUp r l).of_ok started) furnished
  exact ⟨t₀, m₀, m, heap, exec_instantiate_of_ok enrolled started bare, furnished⟩

/-! ### The first block -/

/-- The ways of asking for a block of so many bytes. -/
inductive Asks (id : Nat) : Nat → HostM σ Nat → Prop
  | value (type : GuestType) (value : Datum) (aligned : type.isAligned) :
    Asks id type.size (HostM.allocate id type value)
  | array (type : GuestType) (count : Nat) (aligned : type.isAligned) :
    Asks id (count * type.size) (HostM.allocateArray id type count)

/-- The size of an instance's memory can be told. -/
theorem exec_memorySize (memory : h.memory? id = some m) :
    exec (HostM.memorySize id) h = (.ok m.size, h) := by
  obtain ⟨i, s, number, there, idle, known, found⟩ := Host.memory?_eq_some memory
  refine exec_eq_of_ends ?_
  simp [HostM.memorySize, ends_bind_iff, there, idle, known, found]

namespace Host.Furnished

variable {t₀ : Host σ} {bytes n : Nat} {m₀ : Wasm.Memory}

/-- The app heap never is all of the memory. -/
theorem capacity_lt (furnished : t₀.Furnished t id bytes m₀ m heap) : heap.capacity < addressRange := by
  have size := furnished.size
  have most := furnished.addressable
  have capacity := furnished.capacity
  unfold Heap.lacking at capacity
  split at capacity <;> simp only [blockAlign] at capacity <;> omega

/-- The first block is taken if the app heap is as large, and lies in the memory. -/
theorem ends_takeBlock (furnished : t₀.Furnished t id bytes m₀ m heap) {type : GuestType}
    (aligned : type.isAligned) :
    Ends (HostM.takeBlock id type n) t
      (fun a u => n ≤ heap.capacity ∧ u.memory? id = some m ∧ a + n ≤ m.size)
      fun _ u => heap.capacity < n ∧ u = t := by
  obtain ⟨i, s, number, there, idle, known, found⟩ := Host.memory?_eq_some furnished.memory
  have own : s.heap = some heap := by simpa [Host.heap?, there, idle] using furnished.managed
  have store : t.store? id = some s := by rw [Host.store?, there, Option.bind_some, idle]
  unfold HostM.takeBlock HostM.allocBlock
  rw [if_pos aligned]
  split
  case isTrue beyond => exact ⟨Nat.lt_of_lt_of_le furnished.capacity_lt beyond, rfl⟩
  dsimp only
  -- What remains is the answer of the app heap, which is at the end of the memory and unused so
  -- far.
  rw [ends_bind_of_ok (exec_store store), own]
  simp only [ends_bind_iff, ends_pure, ends_ofOption, ends_putStore, Option.some.injEq, forall_eq',
    reduceCtorEq, false_imp_iff, and_true]
  constructor
  · rintro ⟨a, heap'⟩ cut
    have fits := (furnished.tiled.isLeast_alloc? cut).1
    have whole : n ≤ Heap.wholeUnits n := by
      simp only [Heap.wholeUnits, blockAlign]
      omega
    refine ⟨(furnished.first n).1 (by rw [cut]; rfl), ?_, ?_⟩
    · simp [Host.memory?, Host.instance?_modifyInstance, there, Instance.exported?, known, found]
    · have low := fits.stop_le
      have high := furnished.inside.2
      show a + n ≤ m.size
      omega
  · intro none
    rw [← Nat.not_le, ← furnished.first n, none]
    exact Bool.false_ne_true

/-- **The first block.** It can be had if the app heap is as large, and else nothing happens. -/
theorem serves (furnished : t₀.Furnished t id bytes m₀ m heap) {x : HostM σ Nat}
    (asks : Asks id n x) :
    Ends x t (fun _ _ => n ≤ heap.capacity) fun _ u => heap.capacity < n ∧ u = t := by
  -- A value and an array are both taken from the heap and then written; an array may be refused
  -- before that, by its size.
  cases asks with
  | value type value aligned =>
    refine ends_bind (furnished.ends_takeBlock aligned) ?_
    rintro a u ⟨le, memory, inside⟩
    refine (ends_keepBlock_of_writes (ends_writeBytes_inside memory ?_)).mono (fun _ _ _ => le)
      fun _ _ => False.elim
    rw [GuestType.length_store]
    exact inside
  | array type count aligned =>
    unfold HostM.allocateArray
    dsimp only
    split
    case isTrue beyond => exact ⟨Nat.lt_of_lt_of_le furnished.capacity_lt beyond, rfl⟩
    refine ends_bind (furnished.ends_takeBlock aligned) ?_
    rintro a u ⟨le, memory, inside⟩
    exact (ends_keepBlock_of_writes (ends_zeroBytes_inside memory inside)).mono (fun _ _ _ => le)
      fun _ _ => False.elim

end Host.Furnished

/-! ### App heaps as they are asked for -/

/-- An instance with an app heap, compared with the one without. -/
structure Host.Provides (t₀ t : Host σ) (id bytes : Nat) (m₀ m : Wasm.Memory) (heap : Heap) : Prop
    extends t₀.Furnished t id bytes m₀ m heap where
  /-- The size that the start function has left the memory with. -/
  before : exec (HostM.memorySize id) t₀ = (.ok m₀.size, t₀)
  grown : exec (HostM.memorySize id) t = (.ok (m₀.size + pagesFor bytes * pageSize), t)
  stats : exec (HostM.heapStats id) t = (.ok (some ⟨0, 0, heap.capacity⟩), t)
  ample : bytes ≤ heap.capacity + Heap.lacking m₀.size m.size
  serves : ∀ n x, Asks id n x →
    Ends x t (fun _ _ => n ≤ heap.capacity) fun _ u => heap.capacity < n ∧ u = t

/-- **The app heap is as large as requested.** An instance that is made with an app heap is the one that is
made without, with as many new pages as the bytes that are asked for need. These are zero, and the app
heap has all of them, but for a unit at address zero and one at the end of all addresses. A first block
can be had if it is not larger than that. -/
theorem appHeap_of_instantiate [Engine] (printer : Printer σ) (h t : Host σ)
    (module stack bytes id : Nat)
    (pos : 0 < bytes) (done : exec (HostM.instantiate printer module stack bytes) h = (.ok id, t)) :
    ∃ t₀ m₀ m heap, exec (HostM.instantiate printer module stack 0) h = (.ok id, t₀) ∧
      t₀.Provides t id bytes m₀ m heap := by
  obtain ⟨t₀, m₀, m, heap, bare, furnished⟩ := furnished_of_instantiate pos done
  exact ⟨t₀, m₀, m, heap, bare, {
    furnished with
    before := exec_memorySize furnished.start
    grown := by
      rw [← furnished.size]
      exact exec_memorySize furnished.memory
    stats := by
      rw [exec_heapStats furnished.managed, Heap.stats, furnished.unused]
      rfl
    ample := by
      rw [furnished.capacity]
      exact furnished.enough.1
    serves := fun n x => furnished.serves }⟩

/-- A program with a memory that has no pages. -/
def pageless : Bytes :=
  [0x00, 0x61, 0x73, 0x6d, 0x01, 0x00, 0x00, 0x00,
    -- one memory
    0x05, 0x03, 0x01, 0x00, 0x00,
    -- it is exported
    0x07, 0x0a, 0x01, 0x06] ++ Bytes.ofText memoryExport ++ [0x02, 0x00]

/-- Such a program, before there is an instance of it. -/
def pagelessLoaded : Session :=
  (runWith hookedPrinter [.createRuntime "rt" {} [] [] none [], .runtime "rt" (.load "m" pageless)]
    empty).2

theorem appHeap_of_pageless :
    ∃ t, exec (HostM.instantiate hookedPrinter 0 1 100000) pagelessLoaded = (.ok 0, t) ∧
      ∃ t₀ m₀ m heap, exec (HostM.instantiate hookedPrinter 0 1 0) pagelessLoaded = (.ok 0, t₀) ∧
        t₀.Provides t 0 100000 m₀ m heap := by
  have done : (exec (HostM.instantiate hookedPrinter 0 1 100000) pagelessLoaded).1 = .ok 0 := by
    decide +kernel
  have made : exec (HostM.instantiate hookedPrinter 0 1 100000) pagelessLoaded =
      (.ok 0, (exec (HostM.instantiate hookedPrinter 0 1 100000) pagelessLoaded).2) := Prod.ext done rfl
  exact ⟨_, made, appHeap_of_instantiate hookedPrinter pagelessLoaded _ 0 1 100000 0 (by decide) made⟩

/-- Of a memory that starts with the app heap's page, the app heap lacks a unit: a block of the bytes that
were asked for cannot be had. -/
theorem appHeap_lacks_address_zero :
    let made := exec (HostM.instantiate hookedPrinter 0 1 65536) pagelessLoaded
    made.1.toOption = some 0 ∧ (made.2.heap? 0).map Heap.capacity = some 65528 ∧
      (exec (HostM.allocateArray 0 (.unsigned 1) 65536) made.2).1.toOption = none := by
  decide +kernel

end Embedder
