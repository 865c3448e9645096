import Mathlib.Order.Bounds.Basic
import Embedder.Proofs.Heap.Tiling

namespace Embedder

namespace Heap

/-!
# Allocation at the least address

An allocator that looks for the first free block that is large enough finds the least address at
which a block of the size fits between the live ones. Nothing is missed, because free blocks that
touch have been joined: a vacant range lies within a single one (`exists_mem_of_range_covered`).

* `Fits`: a range of the region that no live block meets.
* `Tiled.isLeast_alloc?`, `Tiled.alloc?_eq_none_iff`: what an allocation finds, and when it fails.
* `Tiled.blockSize?_eq_some_iff`: the sizes of live blocks as a function of their addresses.
* `run_serves_least`: requests to a heap, seen through its live blocks alone.
-/

/-! ### The specification -/

/-- The size of a request, rounded up to whole units; a request for nothing takes a unit, too. -/
def wholeUnits (size : Nat) : Nat :=
  (max size 1 + (blockAlign - 1)) / blockAlign * blockAlign

/-- A block of `n` addresses has room at an address: the address is a unit's, the block lies in the
region, and it meets no live block. -/
structure Fits (h : Heap) (n address : Nat) : Prop where
  aligned : blockAlign ∣ address
  base_le : h.base ≤ address
  stop_le : address + n ≤ h.base + h.capacity
  vacant : ∀ s ∈ h.live, (⟨address, n⟩ : Span).Apart s

theorem wholeUnits_pos (size : Nat) : 0 < wholeUnits size := by
  simp only [wholeUnits, blockAlign]
  omega

theorem blockSizeFor?_eq_some_iff {size n : Nat} :
    blockSizeFor? size = some n ↔ n = wholeUnits size ∧ n < addressRange := by
  unfold blockSizeFor? alignUp?
  by_cases small : max size 1 + (blockAlign - 1) < addressRange
  · rw [if_pos small, Option.some.injEq]
    simp only [wholeUnits, blockAlign, addressRange] at small ⊢
    omega
  · rw [if_neg small]
    simp only [wholeUnits, blockAlign, addressRange, reduceCtorEq, false_iff] at small ⊢
    omega

/-! ### Lists of spans -/

/-- Of two members of an ordered list one comes first, unless they are the same. -/
theorem before_or_after {R : Span → Span → Prop} {l : List Span} (order : l.Pairwise R) {s t : Span}
    (hs : s ∈ l) (ht : t ∈ l) (different : s ≠ t) : R s t ∨ R t s :=
  haveI : Std.Symm fun s t => R s t ∨ R t s := ⟨fun _ _ => Or.symm⟩
  (order.imp (S := fun s t => R s t ∨ R t s) Or.inl).forall hs ht different

/-- A list has no span that is large enough if and only if nothing can be cut from it. -/
theorem cutFirstFit_eq_none_iff {size : Nat} {l : List Span} :
    cutFirstFit size l = none ↔ ∀ s ∈ l, s.size < size := by
  induction l with
  | nil => simp [cutFirstFit]
  | cons t ts ih =>
    rw [cutFirstFit]
    split
    case isTrue large => simp [large]
    case isFalse small => simp [ih, Nat.lt_of_not_le small]

/-- What is cut starts no later than any other span that is large enough. -/
theorem le_of_cutFirstFit {size address : Nat} {l rest : List Span}
    (order : l.Pairwise fun s t => s.stop < t.start)
    (h : cutFirstFit size l = some (address, rest)) {s : Span} (hs : s ∈ l) (le : size ≤ s.size) :
    address ≤ s.start := by
  induction l generalizing rest with
  | nil => simp at hs
  | cons t ts ih =>
    obtain ⟨before, order⟩ := List.pairwise_cons.1 order
    rw [cutFirstFit] at h
    split at h
    case isTrue large =>
      simp only [Option.some.injEq, Prod.mk.injEq] at h
      obtain ⟨rfl, -⟩ := h
      rcases List.mem_cons.1 hs with rfl | hs
      · exact Nat.le_refl _
      · have := before s hs
        simp only [Span.stop] at this
        omega
    case isFalse small =>
      obtain ⟨⟨found, tail⟩, hrec, heq⟩ := Option.map_eq_some_iff.1 h
      simp only [Prod.mk.injEq] at heq
      obtain ⟨rfl, -⟩ := heq
      -- a span that is passed over is too small, so the one in question is further on
      rcases List.mem_cons.1 hs with rfl | hs
      · exact absurd le small
      · exact ih order hrec hs

/-- **No range is missed.** Where gaps remain between spans, a range that they cover lies within one
of them. -/
theorem exists_mem_of_range_covered {l : List Span} (gaps : l.Pairwise fun s t => s.stop < t.start)
    {a n : Nat} (pos : 0 < n) (h : ∀ x, a ≤ x → x < a + n → covered l x) :
    ∃ s ∈ l, s.start ≤ a ∧ a + n ≤ s.stop := by
  obtain ⟨s, hs, start_le, lt_stop⟩ := h a (Nat.le_refl _) (by omega)
  refine ⟨s, hs, start_le, ?_⟩
  by_contra short
  -- the address after the span would have to be another one's, which touches it
  obtain ⟨t, ht, start_le', lt_stop'⟩ := h s.stop (by omega) (by omega)
  have different : s ≠ t := by
    rintro rfl
    omega
  have apart := before_or_after gaps hs ht different
  omega

/-! ### Allocation -/

variable {h h' : Heap}

/-- A block that has room lies within a free one. -/
theorem Tiled.exists_free_of_fits (hh : h.Tiled) {n a : Nat} (pos : 0 < n) (fits : h.Fits n a) :
    ∃ s ∈ h.free, s.start ≤ a ∧ n ≤ s.size := by
  have within : ∀ x, a ≤ x → x < a + n → covered h.free x := by
    intro x low high
    have base := fits.base_le
    have stop := fits.stop_le
    refine (hh.covers x (by omega) (by omega)).resolve_right ?_
    rintro ⟨t, ht, covers⟩
    exact not_covers_of_apart (fits.vacant t ht) ⟨low, high⟩ covers
  obtain ⟨s, hs, start, stop⟩ := exists_mem_of_range_covered hh.free_gaps pos within
  refine ⟨s, hs, start, ?_⟩
  simp only [Span.stop] at stop
  omega

/-- There is room at the start of every free block that is large enough. -/
theorem Tiled.fits_of_free (hh : h.Tiled) {n : Nat} {s : Span} (hs : s ∈ h.free)
    (le : n ≤ s.size) : h.Fits n s.start where
  aligned := (hh.free_block s hs).start_aligned
  base_le := (hh.free_block s hs).base_le
  stop_le := by
    have := (hh.free_block s hs).stop_le
    simp only [Span.stop] at this
    omega
  vacant := by
    intro t ht
    have := (List.pairwise_append.1 hh.apart).2.2 s hs t ht
    simp only [Span.Apart, Span.stop] at this ⊢
    omega

/-- An allocation finds the least address at which the block has room. -/
theorem Tiled.isLeast_alloc? (hh : h.Tiled) {size address : Nat}
    (e : h.alloc? size = some (address, h')) :
    IsLeast {a | h.Fits (wholeUnits size) a} address := by
  simp only [Heap.alloc?, Option.bind_eq_bind, Option.bind_eq_some_iff, Option.pure_def,
    Option.some.injEq, Prod.mk.injEq] at e
  obtain ⟨n, hn, ⟨found, rest⟩, cut, rfl, -⟩ := e
  obtain ⟨rfl, -⟩ := blockSizeFor?_eq_some_iff.1 hn
  constructor
  · obtain ⟨pre, s, post, hfree, -, rfl, le⟩ := cutFirstFit_eq_some cut
    exact hh.fits_of_free (by simp [hfree]) le
  · intro a fits
    obtain ⟨s, hs, start, le⟩ := hh.exists_free_of_fits (wholeUnits_pos size) fits
    exact (le_of_cutFirstFit hh.free_gaps cut hs le).trans start

/-- A block that has room in a region of 32-bit addresses has a 32-bit size. -/
theorem Fits.lt_addressRange {n a : Nat} (fits : h.Fits n a)
    (bound : h.base + h.capacity < addressRange) : n < addressRange := by
  have := fits.stop_le
  omega

/-- An allocation fails if and only if the block has no room anywhere. -/
theorem Tiled.alloc?_eq_none_iff (hh : h.Tiled) (bound : h.base + h.capacity < addressRange)
    {size : Nat} : h.alloc? size = none ↔ ∀ a, ¬ h.Fits (wholeUnits size) a := by
  constructor
  · intro none a fits
    -- the size is found, since the block fits, so it is the search that must have failed
    obtain ⟨s, hs, -, le⟩ := hh.exists_free_of_fits (wholeUnits_pos size) fits
    have hn : blockSizeFor? size = some (wholeUnits size) :=
      blockSizeFor?_eq_some_iff.2 ⟨rfl, fits.lt_addressRange bound⟩
    have cut : cutFirstFit (wholeUnits size) h.free = .none := by
      rw [Option.eq_none_iff_forall_not_mem]
      rintro ⟨address, rest⟩ found
      simp [Heap.alloc?, hn, Option.mem_def.1 found] at none
    have := cutFirstFit_eq_none_iff.1 cut s hs
    omega
  · intro never
    cases e : h.alloc? size with
    | none => rfl
    | some found => exact absurd (hh.isLeast_alloc? e).1 (never found.1)

/-! ### Live blocks -/

/-- The blocks that are live, by their addresses. -/
theorem Tiled.blockSize?_eq_some_iff (hh : h.Tiled) {a n : Nat} :
    h.blockSize? a = some n ↔ ⟨a, n⟩ ∈ h.live := by
  simp only [blockSize?, Option.map_eq_some_iff]
  constructor
  · rintro ⟨s, found, rfl⟩
    have start : s.start = a := by simpa using List.find?_some found
    have mem := List.mem_of_find?_eq_some found
    rwa [← start]
  · intro mem
    cases found : h.live.find? fun s => s.start = a with
    | none => simpa using List.find?_eq_none.1 found ⟨a, n⟩ mem
    | some s =>
      refine ⟨s, rfl, ?_⟩
      have start : s.start = a := by simpa using List.find?_some found
      have mem' := List.mem_of_find?_eq_some found
      -- two blocks with the same start would overlap there
      by_contra different
      have apart := before_or_after hh.live_apart mem' mem (by rintro rfl; exact different rfl)
      have pos := (hh.live_block _ mem).pos
      have pos' := (hh.live_block _ mem').pos
      simp only [Span.stop] at apart pos
      omega

/-- Two heaps whose live blocks are the same but for one address. -/
theorem Tiled.blockSize?_eq_update (hh : h.Tiled) (hh' : h'.Tiled) {a : Nat} {n : Option Nat}
    (here : h'.blockSize? a = n)
    (there : ∀ b, b ≠ a → ∀ m, ⟨b, m⟩ ∈ h'.live ↔ ⟨b, m⟩ ∈ h.live) :
    h'.blockSize? = Function.update h.blockSize? a n := by
  funext b
  by_cases same : b = a
  · rw [same, Function.update_self, here]
  · rw [Function.update_of_ne same]
    ext m
    simp only [hh.blockSize?_eq_some_iff, hh'.blockSize?_eq_some_iff, there b same]

/-- An allocation makes one block live and changes no other. -/
theorem Tiled.blockSize?_alloc? (hh : h.Tiled) {size a : Nat} (e : h.alloc? size = some (a, h')) :
    h'.blockSize? = Function.update h.blockSize? a (some (wholeUnits size)) := by
  have hh' := hh.alloc? e
  obtain ⟨n, hn, pre, s, post, -, -, -, rfl⟩ := alloc?_eq_some e
  obtain ⟨rfl, -⟩ := blockSizeFor?_eq_some_iff.1 hn
  have mem : ∀ t, t ∈ insertSpan ⟨a, wholeUnits size⟩ h.live ↔
      t = ⟨a, wholeUnits size⟩ ∨ t ∈ h.live := by
    intro t
    rw [(insertSpan_perm _ _).mem_iff, List.mem_cons]
  refine hh.blockSize?_eq_update hh' (hh'.blockSize?_eq_some_iff.2 ((mem _).2 (.inl rfl))) ?_
  intro b other m
  simp [mem, other]

/-- A return removes one block and changes no other. -/
theorem Tiled.blockSize?_free? (hh : h.Tiled) {a n : Nat} (e : h.free? a = some (n, h')) :
    h.blockSize? a = some n ∧ h'.blockSize? = Function.update h.blockSize? a none := by
  have hh' := hh.free? e
  obtain ⟨s, pre, post, hlive, rfl, rfl, rfl⟩ := free?_eq_some e
  have found : h.blockSize? s.start = some s.size :=
    hh.blockSize?_eq_some_iff.2 (by simp [hlive])
  -- It is gone, and all others are found as before.
  refine ⟨found, hh.blockSize?_eq_update hh' ?_ ?_⟩
  · -- what is left of the list has no block that overlaps the one taken out
    rw [Option.eq_none_iff_forall_not_mem]
    intro m mem
    have left : ⟨s.start, m⟩ ∈ pre ++ post := hh'.blockSize?_eq_some_iff.1 mem
    have pos := (hh'.live_block _ left).pos
    have pos' := (hh.live_block s (by simp [hlive])).pos
    have order : (s :: (pre ++ post)).Pairwise Span.Apart := by
      have := hh.live_apart.imp (S := Span.Apart) Or.inl
      rw [hlive] at this
      exact (List.perm_middle.pairwise_iff (fun h => h.symm)).1 this
    have := (List.pairwise_cons.1 order).1 _ left
    simp only [Span.Apart, Span.stop] at this pos
    omega
  · intro b other m
    have different : (⟨b, m⟩ : Span) ≠ s := by
      rintro rfl
      exact other rfl
    simp [hlive, different]

/-- Nothing is returned where no block starts. -/
theorem Tiled.free?_eq_none_iff (hh : h.Tiled) {a : Nat} :
    h.free? a = none ↔ h.blockSize? a = none := by
  have removed : h.free? a = none ↔ removeSpan a h.live = none := by
    cases e : removeSpan a h.live <;> simp [Heap.free?, e]
  rw [removed, removeSpan_eq_none_iff, Option.eq_none_iff_forall_not_mem]
  simp only [Option.mem_def, hh.blockSize?_eq_some_iff]
  constructor
  · intro others n mem
    exact others _ mem rfl
  · rintro never s mem rfl
    exact never s.size mem

/-! ### Requests -/

theorem stop_manage_le (base length : Nat) :
    (manage base length).base + (manage base length).capacity ≤ addressRange - blockAlign := by
  simp only [manage, alignDown, blockAlign, addressRange]
  omega

/-- **Requests are served at the least address.** Whatever was asked of a heap before, a request for
some bytes is answered with the least address at which a block of that size, rounded up to whole
units, lies in the region and meets no live block. It is refused if and only if there is none, as
when the block is larger than all 32-bit addresses. A return is answered with the size of the live
block that starts there, and refused if there is none. The block that was asked for or returned is
the only one that becomes live or ceases to be, and a refused request changes nothing. -/
theorem run_serves_least (base length : Nat) (requests : List Request) :
    let h := (manage base length).run requests
    (∀ a n, h.blockSize? a = some n ↔ ⟨a, n⟩ ∈ h.live) ∧
    (∀ size,
      (∀ a, (h.serve (.alloc size)).1 = some a ↔ IsLeast {b | h.Fits (wholeUnits size) b} a) ∧
      ((h.serve (.alloc size)).1 = none ↔ ∀ b, ¬ h.Fits (wholeUnits size) b) ∧
      (addressRange - blockAlign < wholeUnits size → (h.serve (.alloc size)).1 = none) ∧
      ∀ a, (h.serve (.alloc size)).1 = some a → (h.serve (.alloc size)).2.blockSize? =
        Function.update h.blockSize? a (some (wholeUnits size))) ∧
    (∀ a, (h.serve (.free a)).1 = h.blockSize? a ∧
      (h.serve (.free a)).2.blockSize? = Function.update h.blockSize? a none) ∧
    ∀ r, (h.serve r).1 = none → (h.serve r).2 = h := by
  intro h
  have hh : h.Tiled := (tiled_manage base length).run requests
  -- The region stays short of the last unit, so nothing larger than what is before it fits.
  have stop : h.base + h.capacity ≤ addressRange - blockAlign := by
    obtain ⟨base_eq, capacity_eq⟩ := run_region (manage base length) requests
    have := stop_manage_le base length
    rwa [← base_eq, ← capacity_eq] at this
  have bound : h.base + h.capacity < addressRange := by
    simp only [blockAlign, addressRange] at stop ⊢
    omega
  refine ⟨fun a n => hh.blockSize?_eq_some_iff, fun size => ?_, fun a => ?_,
    fun r => serve_eq_self⟩
  · have none_iff : h.alloc? size = none ↔ ∀ a, ¬ h.Fits (wholeUnits size) a :=
      hh.alloc?_eq_none_iff bound
    cases e : h.alloc? size with
    | none =>
      have never := none_iff.1 e
      simp only [serve, e, true_iff, reduceCtorEq, false_iff, implies_true, and_true,
        false_implies]
      exact ⟨fun a least => never a least.1, never⟩
    | some found =>
      obtain ⟨a, h'⟩ := found
      have least := hh.isLeast_alloc? e
      simp only [serve, e, Option.some.injEq, reduceCtorEq, false_iff, imp_false]
      refine ⟨fun b => ⟨?_, fun least' => least.unique least'⟩, fun never => never a least.1, ?_,
        ?_⟩
      · rintro rfl
        exact least
      · have := least.1.stop_le
        omega
      · rintro b rfl
        exact hh.blockSize?_alloc? e
  · cases e : h.free? a with
    | none =>
      have absent := hh.free?_eq_none_iff.1 e
      simp only [serve, e, absent, true_and]
      rw [← absent, Function.update_eq_self]
    | some found =>
      obtain ⟨n, h'⟩ := found
      obtain ⟨size, after⟩ := hh.blockSize?_free? e
      simp only [serve, e]
      exact ⟨size.symm, after⟩

end Heap

end Embedder
