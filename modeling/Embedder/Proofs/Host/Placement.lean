import Embedder.Proofs.Heap.Tiling
import Embedder.Proofs.Host.Lineage

namespace Embedder

open Wasm (pageSize)

/-!
# The app heap and the memory around it

An app heap manages addresses of its instance's exported memory. Its blocks tile what it manages, and
memories never get smaller, so its blocks stay inside whatever code does.

* `Heap.ofPages`, `Heap.Inside`: a heap whose region is that of some pages of a memory.
* `Store.Placed`, `Custody.Placed`: the heap of a store lies in the exported memory.
* `Change.placed`: the invariant.
* `Leads.manages`: the region of a heap stays.
-/

/-! ### Regions -/

namespace Heap

/-- The first address and the number of the addresses that a heap manages. -/
def region (h : Heap) : Nat × Nat :=
  (h.base, h.capacity)

/-- The heap of some pages of a memory, after those before them. -/
def ofPages (before count : Nat) : Heap :=
  .manage (before * pageSize) (min (count * pageSize) (addressRange - 1))

/-- An app heap lies in the pages that it was given. -/
theorem inside_ofPages {before count a : Nat} (low : (ofPages before count).base ≤ a)
    (high : a < (ofPages before count).base + (ofPages before count).capacity) :
    before * pageSize ≤ a ∧ a < (before + count) * pageSize ∧ a + 1 < addressRange := by
  have := (isRegion_manage (before * pageSize)
    (min (count * pageSize) (addressRange - 1))).inside a low high
  rw [Nat.add_mul]
  omega

/-- A heap whose blocks tile its region, which is that of some pages of a memory of a size. -/
structure Inside (h : Heap) (size : Nat) : Prop where
  tiled : h.Tiled
  pages : ∃ before count, h.region = (ofPages before count).region ∧
    (before + count) * pageSize ≤ size

namespace Inside

variable {h h' : Heap} {size : Nat}

/-- What lies inside of a memory does so after the memory has grown. -/
theorem mono {size' : Nat} (inside : h.Inside size) (le : size ≤ size') : h.Inside size' where
  tiled := inside.tiled
  pages := by
    obtain ⟨before, count, region, within⟩ := inside.pages
    exact ⟨before, count, region, Nat.le_trans within le⟩

/-- A new heap of pages lies where the pages do. -/
theorem of_pages {before count : Nat} (le : (before + count) * pageSize ≤ size) :
    (ofPages before count).Inside size where
  tiled := tiled_manage _ _
  pages := ⟨before, count, rfl, le⟩

/-- A heap stays inside when it serves a request. -/
theorem alloc {n address : Nat} (inside : h.Inside size) (fits : h.alloc? n = some (address, h')) :
    h'.Inside size where
  tiled := inside.tiled.alloc? fits
  pages := by
    obtain ⟨n, -, pre, s, post, -, -, -, rfl⟩ := alloc?_eq_some fits
    exact inside.pages

/-- A heap stays inside when it takes a block back. -/
theorem free {address n : Nat} (inside : h.Inside size) (found : h.free? address = some (n, h')) :
    h'.Inside size where
  tiled := inside.tiled.free? found
  pages := by
    obtain ⟨s, pre, post, -, -, -, rfl⟩ := free?_eq_some found
    exact inside.pages

end Inside

end Heap

/-! ### Stores -/

/-- The heap of a store, if there is one, lies in the exported memory. -/
def Store.Placed (s : Store) : Prop :=
  ∀ heap, s.heap = some heap → ∃ memory m, s.guest.exportedMemory? memoryExport = some memory ∧
    s.guest.memories[memory]? = some m ∧ heap.Inside m.size

/-- The exports of a guest are those of its module. -/
theorem Wasm.Guest.Extends.exportedMemory? {ν : Type} {g g' : Wasm.Guest ν} (h : g.Extends g')
    (name : String) : g'.exportedMemory? name = g.exportedMemory? name := by
  rw [Wasm.Guest.exportedMemory?, Wasm.Guest.exportedMemory?, h.module]

/-- A heap stays in place in a guest that is extended. -/
theorem Store.Placed.extend {s s' : Store} (placed : s.Placed) (guest : s.guest.Extends s'.guest)
    (heap : s'.heap = s.heap) : s'.Placed := by
  intro hp there
  obtain ⟨memory, m, exported, present, inside⟩ := placed hp (heap ▸ there)
  obtain ⟨m', present', size, -⟩ := guest.shape memory m present
  exact ⟨memory, m', (guest.exportedMemory? _).trans exported, present', size ▸ inside⟩

/-- More memory leaves a heap where it is. -/
theorem Store.Placed.grow {s : Store} {memory : Nat} {m : Wasm.Memory} (placed : s.Placed)
    (present : s.guest.memories[memory]? = some m) (added : Nat) :
    Store.Placed { s with guest := s.guest.setMemory memory (m.grow (m.size + added)) } := by
  intro hp there
  obtain ⟨i, k, exported, present', inside⟩ := placed hp there
  refine ⟨i, if i = memory then m.grow (m.size + added) else k, exported, ?_, ?_⟩
  · rw [Wasm.Guest.getElem?_setMemory, present']
    split <;> rfl
  · split
    case isTrue e =>
      subst e
      cases present.symm.trans present'
      exact inside.mono (Nat.le_add_right _ _)
    case isFalse => exact inside

/-! ### Instances -/

/-- The store of an instance, wherever it is. -/
def Custody.store? (x : Custody) : Option Store :=
  match x.held with
  | some loan => some loan.store
  | none => x.record.store

/-- The heap of an instance lies in its exported memory, which a complete instance knows. -/
structure Custody.Placed (x : Custody) : Prop where
  placed : ∀ s, x.store? = some s → s.Placed
  idle : ∀ s, x.record.store = some s →
    x.record.memory = s.guest.exportedMemory? memoryExport
  held : ∀ loan, x.held = some loan → loan.ready = true →
    x.record.memory = loan.store.guest.exportedMemory? memoryExport

variable {allowed : Effect → Prop}

/-- The store of an instance at rest is its own. -/
theorem Custody.store?_idle {x : Custody} {s : Store} (free : x.held = none)
    (idle : x.record.store = some s) : x.store? = some s := by
  rw [store?, free]
  exact idle

/-- The store of an instance in a call is the one in flight. -/
theorem Custody.store?_held {x : Custody} {loan : Loan} (held : x.held = some loan) :
    x.store? = some loan.store := by
  rw [store?, held]

namespace Custody.Placed

variable {x : Custody} {s : Store} {loan : Loan}

/-- An instance at rest is placed if its store is. -/
theorem of_idle (free : x.held = none) (idle : x.record.store = some s) (placed : s.Placed)
    (memory : x.record.memory = s.guest.exportedMemory? memoryExport) : x.Placed where
  placed := by
    intro s' there
    rw [store?_idle free idle] at there
    cases there
    exact placed
  idle := by
    intro s' idle'
    cases idle.symm.trans idle'
    exact memory
  held := by
    intro loan held
    rw [free] at held
    cases held

/-- An instance in a call is placed if the store in flight is. -/
theorem of_held (held : x.held = some loan) (away : x.record.store = none)
    (placed : loan.store.Placed)
    (memory : loan.ready = true →
      x.record.memory = loan.store.guest.exportedMemory? memoryExport) : x.Placed where
  placed := by
    intro s there
    rw [store?_held held] at there
    cases there
    exact placed
  idle := by
    intro s idle
    rw [away] at idle
    cases idle
  held := by
    intro loan' held'
    cases held.symm.trans held'
    exact memory

end Custody.Placed

/-- What happens to an instance leaves its heap in place. -/
theorem Evolves.placed {id paid : Nat} {x y : Custody} (step : Evolves allowed id x paid y)
    (sound : x.Sound) (hx : x.Placed) : y.Placed := by
  have at_rest : ∀ {s}, x.record.store = some s → s.Placed := fun idle =>
    hx.placed _ (Custody.store?_idle (sound.free idle) idle)
  have in_hand : ∀ {loan}, x.held = some loan → loan.store.Placed := fun held =>
    hx.placed _ (Custody.store?_held held)
  -- The blocks of a heap change only at rest; a store in hand may grow, but keeps its heap.
  cases step with
  | edit idle guest heap =>
    have memory := hx.idle _ idle
    exact .of_idle (sound.free idle) rfl ((at_rest idle).extend guest heap)
      (memory.trans (guest.exportedMemory? _).symm)
  | latch idle =>
    have placed := at_rest idle
    have memory := hx.idle _ idle
    exact .of_idle (sound.free idle) rfl placed memory
  | alloc idle present fits =>
    have memory := hx.idle _ idle
    refine .of_idle (sound.free idle) rfl (fun hp there => ?_) memory
    cases there
    obtain ⟨memory, m, exported, present', inside⟩ := at_rest idle _ present
    exact ⟨memory, m, exported, present', inside.alloc fits⟩
  | free idle present taken found =>
    have memory := hx.idle _ idle
    refine .of_idle (sound.free idle) rfl (fun hp there => ?_) memory
    cases there
    obtain ⟨memory, m, exported, present', inside⟩ := at_rest idle _ present
    exact ⟨memory, m, exported, present', inside.free found⟩
  | enter idle =>
    have placed := at_rest idle
    have memory := hx.idle _ idle
    exact .of_held rfl rfl placed fun _ => memory
  | leave held =>
    have placed := in_hand held
    have memory := hx.held _ held rfl
    exact .of_idle rfl rfl placed memory
  | run held guest heap =>
    have placed := (in_hand held).extend guest heap
    have memory := hx.held _ held
    exact .of_held rfl (sound.held _ held).1 placed
      fun ready => (memory ready).trans (guest.exportedMemory? _).symm
  | grow held present =>
    have placed := (in_hand held).grow present paid
    have memory := hx.held _ held
    exact .of_held rfl (sound.held _ held).1 placed memory
  | @manage s commons memory before pages m held empty exported present size =>
    refine .of_held rfl (sound.held _ held).1 (fun hp there => ?_) nofun
    cases there
    refine ⟨memory, m, exported, present, .of_pages ?_⟩
    have le := Nat.div_mul_le_self m.size pageSize
    have pages_eq : m.size / pageSize = before + pages := size
    rwa [pages_eq] at le
  | complete held =>
    have placed := in_hand held
    exact .of_idle rfl rfl placed rfl

variable {σ : Type} [Holder σ] [Rule σ] {a b : Config σ}

/-- **Placement.** The heap of every instance lies in its exported memory. -/
theorem Change.placed (step : Change allowed a b) (sound : a.Sound)
    (ha : ∀ id x, a.custody? id = some x → x.Placed) :
    ∀ id x, b.custody? id = some x → x.Placed := by
  refine step.custody_induct sound (fun _ _ _ hx => ⟨hx.placed, hx.idle, hx.held⟩)
    (fun _ _ _ _ sound step hx => step.placed sound hx) ?_ ha
  intro id x made
  cases made with
  | made module runtime commons linked limiter store memory =>
    exact .of_held rfl store (fun _ there => nomatch there) nofun

/-! ### The region stays -/

/-- The region of a store's heap, if it has one. -/
def Store.region? (s : Store) : Option (Nat × Nat) :=
  s.heap.map Heap.region

/-- An instance that is complete, and whose heap manages a region. -/
def Custody.Manages (x : Custody) (region : Option (Nat × Nat)) : Prop :=
  (∀ loan, x.held = some loan → loan.ready = true) ∧
    ∀ s, x.store? = some s → s.region? = region

omit [Holder σ] [Rule σ] in
/-- What happens to an instance leaves its heap the same region. -/
theorem Evolves.manages {id paid : Nat} {x y : Custody} {region : Option (Nat × Nat)}
    (step : Evolves allowed id x paid y) (sound : x.Sound) (hx : x.Manages region) :
    y.Manages region := by
  obtain ⟨ready, same⟩ := hx
  have at_rest : ∀ {s}, x.record.store = some s → s.region? = region := fun idle =>
    same _ (Custody.store?_idle (sound.free idle) idle)
  have in_hand : ∀ {loan}, x.held = some loan → loan.store.region? = region := fun held =>
    same _ (Custody.store?_held held)
  -- What is left to show is that the store that `y` has manages the region, and that it is ready.
  suffices keeps : (∀ loan, y.held = some loan → loan.ready = true ∧ loan.store.region? = region) ∧
      (y.held = none → ∀ s, y.record.store = some s → s.region? = region) by
    refine ⟨fun loan held => (keeps.1 loan held).1, fun s there => ?_⟩
    unfold Custody.store? at there
    split at there
    case h_1 loan held =>
      cases there
      exact (keeps.1 loan held).2
    case h_2 free => exact keeps.2 free s there
  have still : ∀ loan, x.held = some loan → loan.ready = true ∧ loan.store.region? = region :=
    fun loan held => ⟨ready loan held, in_hand held⟩
  cases step with
  | edit idle guest heap =>
    refine ⟨still, fun _ s there => ?_⟩
    cases there
    rw [Store.region?, heap]
    exact at_rest idle
  | latch idle =>
    have region := at_rest idle
    refine ⟨still, fun _ s there => ?_⟩
    cases there
    exact region
  | alloc idle present fits =>
    have region := at_rest idle
    refine ⟨still, fun _ s there => ?_⟩
    cases there
    obtain ⟨n, -, pre, s, post, -, -, -, rfl⟩ := Heap.alloc?_eq_some fits
    rw [Store.region?, present] at region
    exact region
  | free idle present taken found =>
    have region := at_rest idle
    refine ⟨still, fun _ s there => ?_⟩
    cases there
    obtain ⟨s, pre, post, -, -, -, rfl⟩ := Heap.free?_eq_some found
    rw [Store.region?, present] at region
    exact region
  | enter idle =>
    have region := at_rest idle
    refine ⟨fun loan held => ?_, nofun⟩
    cases held
    exact ⟨rfl, region⟩
  | leave held =>
    have region := in_hand held
    refine ⟨nofun, fun _ s there => ?_⟩
    cases there
    exact region
  | run held guest heap =>
    have ready := ready _ held
    refine ⟨fun loan there => ?_, nofun⟩
    cases there
    refine ⟨ready, ?_⟩
    rw [Store.region?, heap]
    exact in_hand held
  | grow held =>
    have region := in_hand held
    have ready := ready _ held
    refine ⟨fun loan there => ?_, nofun⟩
    cases there
    exact ⟨ready, region⟩
  | manage held => cases ready _ held
  | complete held => cases ready _ held

/-- The region of a complete instance's heap stays as long as the instance does. -/
theorem Leads.manages {id : Nat} {x y : Custody} {region : Option (Nat × Nat)}
    (lead : Leads allowed a b) (ha : a.Sound) (before : a.custody? id = some x)
    (hx : x.Manages region) (after : b.custody? id = some y) : y.Manages region :=
  lead.instance_induct ha (fun _ _ hx => hx) (fun _ _ _ sound step => step.manages sound)
    before hx after

end Embedder
