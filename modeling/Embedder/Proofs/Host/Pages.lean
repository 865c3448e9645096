import Embedder.Proofs.Heap.Fit
import Embedder.Proofs.Host.Course
import Embedder.Proofs.Host.Placement

namespace Embedder

open Wasm (pageSize maxPages)

/-!
# Whole pages

The memories of a guest always have a whole number of pages. So an app heap in the last pages of a
memory has nearly all of their bytes: it lacks one unit if the pages start at address zero, which is
never handed out, and one if they end with the last address, which is no bound of a whole unit.

* `Wasm.Guest.Whole`, `whole_of_populate`: the memories of a guest.
* `Heap.lacking`, `Heap.region_ofPages`: the region of an app heap.
* `Heap.isSome_alloc?_iff`: the first block of an app heap.
-/

/-! ### Memories of whole pages -/

namespace Wasm.Guest

variable {ν : Type} {g g' : Guest ν}

/-- All memories of a guest consist of whole pages. -/
def Whole (g : Guest ν) : Prop :=
  ∀ (i : Nat) (m : Memory), g.memories[i]? = some m → pageSize ∣ m.size

/-- The memories that a guest had keep their sizes. -/
theorem Extends.sizes_prefix (h : g.Extends g') : g.sizes <+: g'.sizes := by
  rw [List.prefix_iff_getElem?]
  intro i lt
  have old : i < g.memories.size := g.length_sizes ▸ lt
  obtain ⟨m', there, size, -⟩ := h.shape i _ (Array.getElem?_eq_getElem old)
  rw [getElem?_sizes, there, Option.map_some, size, ← List.getElem?_eq_getElem lt, getElem?_sizes,
    Array.getElem?_eq_getElem old, Option.map_some]

/-- Memories that it has got meanwhile have no bytes. -/
theorem Extends.size_of_le (h : g.Extends g') {i : Nat} {m : Memory} (new : g.memories.size ≤ i)
    (there : g'.memories[i]? = some m) : m.size = 0 := by
  obtain ⟨more, split⟩ := h.sizes_prefix
  -- All memories together have as many bytes as the old ones alone.
  have total : g'.sizes.sum = g.sizes.sum := h.bytes
  rw [← split, List.sum_append] at total
  have zero : more.sum = 0 := by omega
  have size : g'.sizes[i]? = some m.size := by rw [getElem?_sizes, there, Option.map_some]
  rw [← split, List.getElem?_append_right (g.length_sizes ▸ new)] at size
  exact List.sum_eq_zero_iff_forall_eq_nat.1 zero _ (List.mem_of_getElem? size)

theorem Whole.extend (whole : g.Whole) (h : g.Extends g') : g'.Whole := by
  intro i m there
  by_cases old : i < g.memories.size
  · obtain ⟨m', there', size, -⟩ := h.shape i _ (Array.getElem?_eq_getElem old)
    cases there.symm.trans there'
    rw [size]
    exact whole i _ (Array.getElem?_eq_getElem old)
  · rw [h.size_of_le (Nat.le_of_not_lt old) there]
    exact Nat.dvd_zero _

end Wasm.Guest

variable {σ : Type}

/-- Whatever a call does, memories consist of whole pages. -/
theorem working_whole (printer : Printer σ) (c : Caller) :
    Working printer c fun s t => s.store.guest.Whole → t.store.guest.Whole := by
  refine working_of_store (fun s t => s.guest.Whole → t.guest.Whole) printer c (fun _ => id)
    (fun first second => second ∘ first) (fun _ _ guest _ _ whole => whole.extend guest)
    (fun _ _ => id) ?_
  intro s memory m pages found _ whole i k there
  rw [Wasm.Guest.getElem?_setMemory] at there
  split at there
  case isTrue own =>
    obtain ⟨_, -, rfl⟩ := Option.map_eq_some_iff.1 there
    exact Nat.dvd_add (whole memory m found) (Nat.dvd_mul_left _ _)
  case isFalse => exact whole i k there

/-- The guest of a new instance has memories of whole pages, whatever its start function does. -/
theorem whole_of_populate [Engine] {printer : Printer σ} {c : Caller} {room : Nat} {m : Wasm.Module}
    {imported : List (Wasm.Func Callback)} {h : Host σ} {t : Flight σ} {result : Except String Unit}
    (done : exec (FlightM.populate printer c room m) ⟨.ofGuest (.bare m imported), h⟩ = (result, t)) :
    t.store.guest.Whole := by
  have kept := (within_populate (working_whole printer c) room m).snd ⟨.ofGuest (.bare m imported), h⟩
  rw [done] at kept
  exact kept fun i k there => by cases there

/-! ### The region of an app heap -/

namespace Heap

/-- What an app heap lacks of the bytes in between: a unit at address zero, and one before the end of
all addresses. -/
def lacking (start stop : Nat) : Nat :=
  (if start = 0 then blockAlign else 0) + if stop = addressRange then blockAlign else 0

/-- It is two units at most. -/
theorem lacking_le (start stop : Nat) :
    blockAlign ∣ lacking start stop ∧ lacking start stop ≤ 2 * blockAlign := by
  unfold lacking
  split <;> split <;> decide

variable {before count : Nat}

/-- The region is the largest one of whole units in the pages, but for address zero and the last one. -/
theorem region_ofPages (pos : 0 < count) (fits : before + count ≤ maxPages) :
    before * pageSize ≤ (ofPages before count).base ∧
      (ofPages before count).base + (ofPages before count).capacity ≤ (before + count) * pageSize ∧
      (ofPages before count).capacity + lacking (before * pageSize) ((before + count) * pageSize) =
        count * pageSize := by
  obtain ⟨start, stop, inside, largest⟩ := isRegion_manage (before * pageSize)
    (min (count * pageSize) (addressRange - 1))
  change blockAlign ∣ (ofPages before count).base at start
  change blockAlign ∣ (ofPages before count).base + (ofPages before count).capacity at stop
  change ∀ a, (ofPages before count).base ≤ a →
    a < (ofPages before count).base + (ofPages before count).capacity → _ at inside
  change ∀ s t, _ → _ → _ → _ → _ → (ofPages before count).base ≤ s ∧
    t ≤ (ofPages before count).base + (ofPages before count).capacity at largest
  generalize (ofPages before count).base = base at *
  generalize (ofPages before count).capacity = capacity at *
  have first := inside base (Nat.le_refl _)
  have last := inside (base + capacity - 1)
  -- The largest region is compared with the one that is claimed, at either end.
  unfold lacking
  by_cases zero : before * pageSize = 0 <;> by_cases full : (before + count) * pageSize = addressRange
  · have most := largest blockAlign (addressRange - blockAlign)
    rw [if_pos zero, if_pos full]
    simp only [blockAlign, pageSize, maxPages, addressRange] at *
    omega
  · have most := largest blockAlign (count * pageSize)
    rw [if_pos zero, if_neg full]
    simp only [blockAlign, pageSize, maxPages, addressRange] at *
    omega
  · have most := largest (before * pageSize) (addressRange - blockAlign)
    rw [if_neg zero, if_pos full]
    simp only [blockAlign, pageSize, maxPages, addressRange] at *
    omega
  · have most := largest (before * pageSize) ((before + count) * pageSize)
    rw [if_neg zero, if_neg full]
    simp only [blockAlign, pageSize, maxPages, addressRange] at *
    omega

/-- All pages that there can be lack a unit at either end. -/
example : (ofPages 0 maxPages).region = ⟨blockAlign, addressRange - 2 * blockAlign⟩ := by decide

/-- A new app heap has room for a first block if its region is as large. -/
theorem isSome_alloc?_iff (pos : 0 < count) (fits : before + count ≤ maxPages) (n : Nat) :
    ((ofPages before count).alloc? n).isSome ↔ n ≤ (ofPages before count).capacity := by
  have tiled : (ofPages before count).Tiled := tiled_manage _ _
  have stop : (ofPages before count).base + (ofPages before count).capacity ≤
      addressRange - blockAlign := stop_manage_le _ _
  have aligned : blockAlign ∣ (ofPages before count).base := (isRegion_manage _ _).start_aligned
  have live : (ofPages before count).live = [] := rfl
  obtain ⟨-, -, capacity⟩ := region_ofPages pos fits
  obtain ⟨whole, few⟩ := lacking_le (before * pageSize) ((before + count) * pageSize)
  generalize ofPages before count = heap at *
  have bound : heap.base + heap.capacity < addressRange := by
    simp only [blockAlign, addressRange] at stop ⊢
    omega
  rw [← Option.ne_none_iff_isSome, Ne, tiled.alloc?_eq_none_iff bound, not_forall_not]
  -- The region is whole units, so a size fits in it if and only if its rounding does.
  have units : wholeUnits n ≤ heap.capacity ↔ n ≤ heap.capacity := by
    simp only [wholeUnits, blockAlign, pageSize] at *
    omega
  constructor
  · rintro ⟨a, room⟩
    have low := room.base_le
    have high := room.stop_le
    exact units.1 (by omega)
  · intro le
    refine ⟨heap.base, aligned, Nat.le_refl _, Nat.add_le_add_left (units.2 le) _, ?_⟩
    rw [live]
    exact fun s absent => absurd absent List.not_mem_nil

end Heap

end Embedder
