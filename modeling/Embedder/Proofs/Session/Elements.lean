import Embedder.Proofs.Heap.Arithmetic
import Embedder.Proofs.Session.Contents

namespace Embedder

open Session (Passes empty hookedPrinter passes_runWith recycled runWith traced_of_any)

/-!
# The addresses of elements

The size of an array and the addresses of its elements are computed in 32-bit numbers, without a look
at whether they fit. They do: an array lies within a live block of its heap, and all blocks end below
the last address.

* `Block.sizeChecked`, `Block.elementAddressChecked`: the same computations with checks.
* `Block.Exact`, `Block.exact_of_fits`: that no check fails, for arrays that a live block has room for.
* `Heap.Addresses`: what holds of a heap and of arrays over it.
* `Config.Orderly.block_exact`, `addresses_of_passes`: heaps of their own, and the blocks of a session.
-/

/-! ### Arrays over a heap -/

namespace Block

/-- The size of an array in bytes. -/
def sizeChecked (b : Block) : Checked Nat :=
  Checked.product b.length b.type.size

/-- The address of an element, if there is one of that index. -/
def elementAddressChecked (b : Block) (i : Nat) : Checked (Except Error Nat) :=
  if i < b.length then do
    pure (.ok (← Checked.sum b.start (← Checked.product i b.type.size)))
  else pure (.error (.outOfBounds i b.length))

/-- The arithmetic of an array is exact: its size is its number of elements times theirs, and the
address of each element is what it is without limits. -/
structure Exact (b : Block) : Prop where
  size : b.sizeChecked = .ok (b.length * b.type.size)
  element : ∀ i, b.elementAddressChecked i = .ok (b.elementAddress i)

variable {b : Block}

/-- An array that ends below the last address has exact arithmetic. -/
theorem exact_of_stop_lt (stop : b.span.stop < addressRange) : b.Exact where
  size := by
    refine Checked.product_eq ?_
    rw [stop_span] at stop
    omega
  element i := by
    unfold elementAddressChecked elementAddress
    by_cases lt : i < b.length
    · have le := element_le lt
      have product := Checked.product_eq (x := i) (y := b.type.size) (by omega)
      have sum := Checked.sum_eq (x := b.start) (y := i * b.type.size) (by omega)
      rw [if_pos lt, if_pos lt, product, Checked.ok_bind, sum]
      rfl
    · rw [if_neg lt, if_neg lt]
      rfl

/-- An array for which a live block has room has exact arithmetic. -/
theorem exact_of_fits {h : Heap} {s : Span} (block : h.IsBlock s)
    (bound : h.base + h.capacity < addressRange) (fits : b.span.Fits s) : b.Exact := by
  obtain ⟨start, size⟩ := fits
  have stop := block.stop_lt bound
  refine exact_of_stop_lt ?_
  simp only [Span.stop] at *
  omega

end Block

namespace Heap

/-- What holds of a heap that some requests were made of, and of every array over it. -/
structure Addresses (base length : Nat) (requests : List Request) (h : Heap) : Prop where
  /-- The arithmetic of the heap is exact. -/
  exact : Exact base length requests h
  /-- So is that of arrays for which its live blocks have room. -/
  arrays : ∀ (b : Block), ∀ s ∈ h.live, b.span.Fits s → b.Exact
  /-- There is room for an array in the block that its size is asked for. -/
  room : ∀ (b : Block) h', h.alloc? (b.length * b.type.size) = some (b.start, h') →
    (∃ s ∈ h'.live, b.span.Fits s) ∧ b.Exact

theorem addresses_run (base length : Nat) (requests : List Request) :
    Addresses base length requests ((manage base length).run requests) := by
  have tiled := (tiled_manage base length).run requests
  have bound := stop_run_lt base length requests
  refine ⟨exact_run base length requests, fun b s live fits => ?_, fun b h' taken => ?_⟩
  · exact Block.exact_of_fits (tiled.live_block s live) bound fits
  · obtain ⟨n, units, pre, s, post, split, start, le, rfl⟩ := alloc?_eq_some taken
    obtain ⟨-, -, enough⟩ := blockSizeFor?_eq_some units
    -- the array is at the front of a block that was free, which ends within the region
    have free := tiled.free_block s (split ▸ List.mem_append_right _ List.mem_cons_self)
    refine ⟨⟨⟨b.start, n⟩, (insertSpan_perm _ _).mem_iff.2 List.mem_cons_self, rfl, enough⟩, ?_⟩
    exact Block.exact_of_fits free bound ⟨start, enough.trans le⟩

end Heap

/-! ### Blocks of a session -/

/-- What is live of an instance is live in its app heap. -/
theorem Custody.exists_heap_of_live {x : Custody} {t : Span} (live : t ∈ x.live) :
    ∃ s heap, x.store? = some s ∧ s.heap = some heap ∧ t ∈ heap.live := by
  rw [Custody.live] at live
  cases store : x.store? with
  | none =>
    rw [store] at live
    cases live
  | some s =>
    rw [store, Option.map_some, Option.getD_some, Store.live] at live
    cases present : s.heap with
    | none =>
      rw [present] at live
      cases live
    | some heap =>
      rw [present] at live
      exact ⟨s, heap, rfl, present, live⟩

section

variable {σ : Type} [Holder σ] [Rule σ] {h : Host σ} {g : Pending} {j : Nat} {b : Block}

/-- Every block there is has a live block of a heap to itself, also if its instance's guest runs. -/
theorem Config.Orderly.exists_live (ha : Config.Orderly ⟨h, g⟩) (present : h.blocks.get? j = some b) :
    ∃ (heap : Heap) (t : Span), heap.IsBlock t ∧ heap.base + heap.capacity < addressRange ∧
      b.span.Fits t := by
  have refs : 0 < h.refs .block j .inst b.inst := by
    simp [Host.refs, present, Block.refs, Holds.on]
  obtain ⟨c, there⟩ := Option.isSome_iff_exists.1 (ha.sound.has_of_refs refs)
  have custody := Config.custody?_of_get? (c := ⟨h, g⟩) there
  obtain ⟨t, live, fits⟩ :=
    (ha.backed.backs _ _ custody).exists_live (Config.mem_claims present rfl)
  obtain ⟨s, heap, store, appended, live⟩ := Custody.exists_heap_of_live live
  -- the heap manages pages of a memory, as a new one does
  obtain ⟨memory, m, -, -, inside⟩ := (ha.placed _ _ custody).placed s store heap appended
  obtain ⟨before, count, region, -⟩ := inside.pages
  obtain ⟨base_eq, capacity_eq⟩ := Prod.mk.inj region
  refine ⟨heap, t, inside.tiled.live_block t live, ?_, fits⟩
  rw [base_eq, capacity_eq]
  exact Heap.stop_run_lt _ _ []

/-- The arithmetic of every block there is, is exact. -/
theorem Config.Orderly.block_exact (ha : Config.Orderly ⟨h, g⟩)
    (present : h.blocks.get? j = some b) : b.Exact := by
  obtain ⟨heap, t, block, bound, fits⟩ := ha.exists_live present
  exact Block.exact_of_fits block bound fits

/-- Every block there is starts at an address that its type's alignment divides. -/
theorem Config.Orderly.align_dvd_start (ha : Config.Orderly ⟨h, g⟩)
    (present : h.blocks.get? j = some b) (aligned : b.type.isAligned) : b.type.align ∣ b.start := by
  obtain ⟨heap, t, block, -, start, -⟩ := ha.exists_live present
  have start : t.start = b.start := start
  exact start ▸ Nat.dvd_trans (GuestType.align_dvd aligned) block.start_aligned

end

/-- The arithmetic of all blocks of a session is exact. -/
def Session.Exact (s : Session) : Prop :=
  ∀ j b, s.blocks.get? j = some b → b.Exact

/-- **No wrapping.** In no heap, whatever it manages and was asked, does an unchecked operation leave
the range of 32-bit numbers; nor does one for an array over such a heap, or for a block that a session
has between any two operations or while a guest runs. -/
theorem addresses_of_passes [Engine] {s : Session} (passes : Passes hookedPrinter empty s) :
    (∀ base length requests,
      Heap.Addresses base length requests ((Heap.manage base length).run requests)) ∧
    s.Exact ∧
    ∀ (v : Invoker) name args results (entry : Entry s v.environment name args results) w,
      entry.Meanwhile w → Session.Exact w := by
  let rule : HookRule := .any
  have any : ∀ hook, HookRule.admits hook := fun _ => trivial
  obtain ⟨g, -, -, lead⟩ := passes.leads any (g := .none) (traced_of_any any)
  have orderly := lead.orderly (Session.orderly_empty rfl)
  refine ⟨Heap.addresses_run, fun j b present => orderly.block_exact present, ?_⟩
  intro v name args results entry w meanwhile
  obtain ⟨g', -, -, -, lead'⟩ := entry.leads_meanwhile any (g := g) meanwhile
  exact fun j b present => (lead'.orderly orderly).block_exact present

theorem addresses_of_recycled :
    Passes hookedPrinter empty (runWith hookedPrinter recycled empty).2 ∧
      (runWith hookedPrinter recycled empty).2.Exact :=
  ⟨passes_runWith _ .here recycled, (addresses_of_passes (passes_runWith _ .here recycled)).2.1⟩

end Embedder
