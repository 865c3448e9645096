import Embedder.Proofs.Heap.Spans

namespace Embedder

namespace Heap

/-!
# The blocks of a heap tile its region

The free and the live blocks of a heap share out the managed region without overlap and without a
byte left over, and free blocks are never neighbours.

* `Tiled`: the invariant, with `tiled_manage`, `Tiled.alloc?` and `Tiled.free?`.
* `IsRegion`: the largest aligned range within bounds, with `isRegion_manage`.
* `Request`, `serve`, `run`: sequences of allocations and returns.
* `run_tiles`: what holds after any sequence.
-/

/-! ### The invariant -/

/-- A span that can be a block of a heap: not empty, made of whole units, inside the region, and
not at address zero. -/
structure IsBlock (h : Heap) (s : Span) : Prop where
  pos : 0 < s.size
  start_aligned : blockAlign ∣ s.start
  size_aligned : blockAlign ∣ s.size
  start_pos : 0 < s.start
  base_le : h.base ≤ s.start
  stop_le : s.stop ≤ h.base + h.capacity

/-- The blocks share out the region. The lists are in ascending order; the order of the free blocks
is strict, which is to say that they do not touch. -/
structure Tiled (h : Heap) : Prop where
  free_block : ∀ s ∈ h.free, h.IsBlock s
  live_block : ∀ s ∈ h.live, h.IsBlock s
  covers : ∀ a, h.base ≤ a → a < h.base + h.capacity → covered h.free a ∨ covered h.live a
  separate : ∀ a, covered h.free a → ¬ covered h.live a
  free_gaps : h.free.Pairwise fun s t => s.stop < t.start
  live_apart : h.live.Pairwise fun s t => s.stop ≤ t.start
  total : totalSize h.free + totalSize h.live = h.capacity

/-- A block covers addresses of the region only. -/
theorem IsBlock.covered_iff {h : Heap} {s : Span} (hs : h.IsBlock s) {a : Nat} (ha : s.Covers a) :
    h.base ≤ a ∧ a < h.base + h.capacity :=
  ⟨Nat.le_trans hs.base_le ha.1, Nat.lt_of_lt_of_le ha.2 hs.stop_le⟩

/-- Two blocks that touch make one block. -/
theorem IsBlock.join {h : Heap} {s t : Span} (hs : h.IsBlock s) (ht : h.IsBlock t)
    (touch : s.stop = t.start) : h.IsBlock (s.join t) where
  pos := Nat.add_pos_left hs.pos _
  start_aligned := hs.start_aligned
  size_aligned := Nat.dvd_add hs.size_aligned ht.size_aligned
  start_pos := hs.start_pos
  base_le := hs.base_le
  stop_le := by
    have := ht.stop_le
    simp only [Span.join, Span.stop] at touch this ⊢
    omega

/-- Two different blocks have no address in common. -/
theorem Tiled.apart {h : Heap} (hh : h.Tiled) : (h.free ++ h.live).Pairwise Span.Apart := by
  refine List.pairwise_append.2 ⟨?_, ?_, fun s hs t ht => ?_⟩
  · exact hh.free_gaps.imp fun lt => Or.inl (Nat.le_of_lt lt)
  · exact hh.live_apart.imp Or.inl
  · refine apart_of_disjoint (hh.free_block s hs).pos (hh.live_block t ht).pos fun a ha => ?_
    exact hh.separate a ⟨s, hs, ha.1⟩ ⟨t, ht, ha.2⟩

/-- The blocks have exactly the addresses of the region. -/
theorem Tiled.covered_iff {h : Heap} (hh : h.Tiled) (a : Nat) :
    covered (h.free ++ h.live) a ↔ h.base ≤ a ∧ a < h.base + h.capacity := by
  rw [covered_append]
  constructor
  · rintro (⟨s, hs, ha⟩ | ⟨s, hs, ha⟩)
    · exact (hh.free_block s hs).covered_iff ha
    · exact (hh.live_block s hs).covered_iff ha
  · exact fun ha => hh.covers a ha.1 ha.2

/-- A free block does not end where another one begins. -/
theorem Tiled.not_adjacent {h : Heap} (hh : h.Tiled) {s t : Span} (hs : s ∈ h.free)
    (ht : t ∈ h.free) : s.stop ≠ t.start := by
  intro touch
  have gaps := hh.free_gaps
  obtain ⟨i, hi, rfl⟩ := List.getElem_of_mem hs
  obtain ⟨j, hj, rfl⟩ := List.getElem_of_mem ht
  have pos_i := (hh.free_block _ hs).pos
  have pos_j := (hh.free_block _ ht).pos
  simp only [Span.stop] at touch
  rcases Nat.lt_trichotomy i j with hij | rfl | hji
  · have := List.pairwise_iff_getElem.1 gaps i j hi hj hij
    simp only [Span.stop] at this
    omega
  · omega
  · have := List.pairwise_iff_getElem.1 gaps j i hj hi hji
    simp only [Span.stop] at this
    omega

/-! ### A new heap -/

/-- A range of whole units within bounds that contains every other such range. -/
structure IsRegion (low high start stop : Nat) : Prop where
  start_aligned : blockAlign ∣ start
  stop_aligned : blockAlign ∣ stop
  inside : ∀ a, start ≤ a → a < stop → low ≤ a ∧ a < high
  largest : ∀ s t, blockAlign ∣ s → blockAlign ∣ t → s < t → low ≤ s → t ≤ high →
    start ≤ s ∧ t ≤ stop

/-- To align a number upwards is to take the next multiple. -/
theorem alignUp?_eq_some {n m : Nat} (h : alignUp? n = some m) :
    blockAlign ∣ m ∧ n ≤ m ∧ m < n + blockAlign := by
  unfold alignUp? at h
  split at h
  · simp only [Option.some.injEq, blockAlign] at h ⊢
    omega
  · simp at h

/-- A number without a next multiple lies at the end of the range. -/
theorem alignUp?_eq_none {n : Nat} (h : alignUp? n = none) :
    addressRange ≤ n + (blockAlign - 1) := by
  unfold alignUp? at h
  split at h
  · simp at h
  · omega

/-- **The managed region.** A new heap manages the largest range of whole units that lies within
the given addresses, without address zero and below the last 32-bit address. -/
theorem isRegion_manage (base length : Nat) :
    IsRegion (max base 1) (min (base + length) (addressRange - 1)) (manage base length).base
      ((manage base length).base + (manage base length).capacity) := by
  cases hup : alignUp? (max base 1) with
  | none =>
    have beyond := alignUp?_eq_none hup
    constructor <;> simp only [manage, alignDown, hup, Option.getD, blockAlign, addressRange] at *
      <;> omega
  | some start =>
    obtain ⟨aligned, le, lt⟩ := alignUp?_eq_some hup
    constructor <;> simp only [manage, alignDown, hup, Option.getD, blockAlign, addressRange] at *
      <;> omega

/-- A new heap is tiled by one free span, or by none. -/
theorem tiled_manage (base length : Nat) : (manage base length).Tiled := by
  have region := isRegion_manage base length
  generalize hh : manage base length = h at region
  have live : h.live = [] := by rw [← hh, manage]
  have free : h.free = if 0 < h.capacity then [⟨h.base, h.capacity⟩] else [] := by
    rw [← hh, manage]
    simp only [Nat.sub_pos_iff_lt]
  -- The region is one free block, or none if it is empty.
  have whole : ∀ s ∈ h.free, 0 < h.capacity ∧ s = ⟨h.base, h.capacity⟩ := by
    intro s hs
    rw [free] at hs
    split at hs
    case isTrue pos => exact ⟨pos, List.mem_singleton.1 hs⟩
    case isFalse => simp at hs
  constructor
  case free_block =>
    intro s hs
    obtain ⟨pos, rfl⟩ := whole s hs
    have first := region.inside h.base (Nat.le_refl _) (Nat.lt_add_of_pos_right pos)
    exact
      { pos := pos
        start_aligned := region.start_aligned
        size_aligned := (Nat.dvd_add_right region.start_aligned).1 region.stop_aligned
        start_pos := by show 0 < h.base; omega
        base_le := Nat.le_refl _
        stop_le := Nat.le_refl _ }
  case live_block => simp [live]
  case covers =>
    intro a low high
    left
    rw [free, if_pos (by omega)]
    exact ⟨_, List.mem_singleton_self _, low, high⟩
  case separate => simp [live]
  case free_gaps =>
    rw [free]
    split <;> simp
  case live_apart => simp [live]
  case total =>
    rw [free, live]
    split
    · simp
    · simp only [totalSize_nil]
      omega

/-! ### Allocation -/

/-- The size of the block that serves a request: whole units, not none, and enough. -/
theorem blockSizeFor?_eq_some {size n : Nat} (h : blockSizeFor? size = some n) :
    blockAlign ∣ n ∧ 0 < n ∧ size ≤ n := by
  obtain ⟨aligned, le, -⟩ := alignUp?_eq_some h
  exact ⟨aligned, by omega, by omega⟩

/-- The size of the block that serves a request, in numbers. -/
theorem blockSizeFor?_eq {size n : Nat} (h : blockSizeFor? size = some n) :
    n = (max size 1 + (blockAlign - 1)) / blockAlign * blockAlign := by
  unfold blockSizeFor? alignUp? at h
  split at h
  · exact (Option.some.inj h).symm
  · cases h

/-- A successful allocation cuts the first free block that is large enough. -/
theorem alloc?_eq_some {h h' : Heap} {size address : Nat}
    (e : h.alloc? size = some (address, h')) :
    ∃ n, blockSizeFor? size = some n ∧ ∃ pre s post, h.free = pre ++ s :: post ∧
      s.start = address ∧ n ≤ s.size ∧
      h' = { h with
        free := pre ++ (remainder s n ++ post)
        live := insertSpan ⟨address, n⟩ h.live } := by
  simp only [Heap.alloc?, Option.bind_eq_bind, Option.bind_eq_some_iff] at e
  obtain ⟨n, hn, ⟨found, rest⟩, hcut, heq⟩ := e
  obtain ⟨pre, s, post, hfree, rfl, rfl, hsize⟩ := cutFirstFit_eq_some hcut
  simp only [Option.pure_def, Option.some.injEq, Prod.mk.injEq] at heq
  obtain ⟨rfl, rfl⟩ := heq
  exact ⟨n, hn, pre, s, post, hfree, rfl, hsize, rfl⟩

/-- What is left of a block from whose front whole units are cut is a block. -/
theorem IsBlock.of_mem_remainder {h : Heap} {s t : Span} {n : Nat} (hs : h.IsBlock s)
    (hn : blockAlign ∣ n) (ht : t ∈ remainder s n) : h.IsBlock t := by
  obtain ⟨lt, rfl⟩ := mem_remainder ht
  have base := hs.base_le
  have stop := hs.stop_le
  have pos := hs.start_pos
  exact
    { pos := Nat.sub_pos_of_lt lt
      start_aligned := Nat.dvd_add hs.start_aligned hn
      size_aligned := Nat.dvd_sub hs.size_aligned hn
      start_pos := Nat.add_pos_left pos _
      base_le := by show h.base ≤ s.start + n; omega
      stop_le := by simp only [Span.stop] at stop ⊢; omega }

/-- The front of a block, cut off at a whole unit, is a block. -/
theorem IsBlock.front {h : Heap} {s : Span} {n : Nat} (hs : h.IsBlock s) (hn : blockAlign ∣ n)
    (pos : 0 < n) (le : n ≤ s.size) : h.IsBlock ⟨s.start, n⟩ where
  pos := pos
  start_aligned := hs.start_aligned
  size_aligned := hn
  start_pos := hs.start_pos
  base_le := hs.base_le
  stop_le := by
    have := hs.stop_le
    simp only [Span.stop] at this ⊢
    omega

/-- Being a block depends on the region alone. -/
theorem IsBlock.congr {h h' : Heap} {s : Span} (hs : h.IsBlock s) (base : h'.base = h.base)
    (capacity : h'.capacity = h.capacity) : h'.IsBlock s :=
  ⟨hs.pos, hs.start_aligned, hs.size_aligned, hs.start_pos, base ▸ hs.base_le,
    base ▸ capacity ▸ hs.stop_le⟩

/-- An allocation takes a block's front from the free addresses and makes it live. -/
theorem Tiled.alloc? {h h' : Heap} {size address : Nat} (hh : h.Tiled)
    (e : h.alloc? size = some (address, h')) : h'.Tiled := by
  obtain ⟨n, hn, pre, s, post, hfree, rfl, le, rfl⟩ := alloc?_eq_some e
  obtain ⟨aligned, pos, -⟩ := blockSizeFor?_eq_some hn
  have mem_s : s ∈ h.free := by simp [hfree]
  have block_s := hh.free_block s mem_s
  have taken := block_s.front aligned pos le
  have cover_free : ∀ a, covered h.free a ↔
      (⟨s.start, n⟩ : Span).Covers a ∨ covered (pre ++ (remainder s n ++ post)) a := by
    intro a
    simp only [hfree, covered_append, covered_cons, covers_iff_remainder le]
    tauto
  have cover_live : ∀ a, covered (insertSpan ⟨s.start, n⟩ h.live) a ↔
      (⟨s.start, n⟩ : Span).Covers a ∨ covered h.live a := by
    intro a
    rw [covered_perm (insertSpan_perm _ _), covered_cons]
  have gaps := hh.free_gaps
  rw [hfree] at gaps
  constructor
  case free_block =>
    intro t ht
    refine IsBlock.congr ?_ rfl rfl (h := h)
    rcases List.mem_append.1 ht with ht | ht
    · exact hh.free_block t (by simp [hfree, ht])
    · rcases List.mem_append.1 ht with ht | ht
      · exact block_s.of_mem_remainder aligned ht
      · exact hh.free_block t (by simp [hfree, ht])
  case live_block =>
    intro t ht
    refine IsBlock.congr ?_ rfl rfl (h := h)
    rcases List.mem_cons.1 ((insertSpan_perm _ _).mem_iff.1 ht) with rfl | ht
    · exact taken
    · exact hh.live_block t ht
  case covers =>
    intro a low high
    have := hh.covers a low high
    rw [cover_live]
    rw [cover_free] at this
    tauto
  case separate =>
    -- the part cut off is before what is left of its block and apart from the other free blocks
    intro a ha
    rw [cover_live]
    rintro (cut | live)
    · exact not_covers_front gaps le ha cut
    · exact hh.separate a ((cover_free a).2 (Or.inr ha)) live
  case free_gaps => exact pairwise_remainder gaps n
  case live_apart =>
    refine pairwise_insertSpan pos hh.live_apart fun t ht => ?_
    refine apart_of_disjoint pos (hh.live_block t ht).pos fun a ha => ?_
    exact hh.separate a ((cover_free a).2 (Or.inl ha.1)) ⟨t, ht, ha.2⟩
  case total =>
    have total := hh.total
    have split := totalSize_remainder le
    rw [totalSize_perm (insertSpan_perm _ _)]
    simp only [hfree, totalSize_append, totalSize_cons] at total ⊢
    omega

/-! ### Return -/

/-- A successful return takes a live block and coalesces it with the free ones. -/
theorem free?_eq_some {h h' : Heap} {address size : Nat}
    (e : h.free? address = some (size, h')) :
    ∃ s pre post, h.live = pre ++ s :: post ∧ s.start = address ∧ s.size = size ∧
      h' = { h with free := coalesce s h.free, live := pre ++ post } := by
  simp only [Heap.free?, Option.bind_eq_bind, Option.bind_eq_some_iff] at e
  obtain ⟨⟨s, rest⟩, hremove, heq⟩ := e
  obtain ⟨hs, pre, post, hlive, rfl⟩ := removeSpan_eq_some hremove
  simp only [Option.pure_def, Option.some.injEq, Prod.mk.injEq] at heq
  obtain ⟨rfl, rfl⟩ := heq
  exact ⟨s, pre, post, hlive, hs, rfl, rfl⟩

/-- A return gives a live block's addresses back to the free ones. -/
theorem Tiled.free? {h h' : Heap} {address size : Nat} (hh : h.Tiled)
    (e : h.free? address = some (size, h')) : h'.Tiled := by
  obtain ⟨s, pre, post, hlive, -, -, rfl⟩ := free?_eq_some e
  have mem_s : s ∈ h.live := by simp [hlive]
  have block_s := hh.live_block s mem_s
  -- The block that is returned meets neither the free ones nor those that stay live.
  have apart_free : ∀ t ∈ h.free, s.Apart t := by
    intro t ht
    refine apart_of_disjoint block_s.pos (hh.free_block t ht).pos fun a ha => ?_
    exact hh.separate a ⟨t, ht, ha.2⟩ ⟨s, mem_s, ha.1⟩
  have order := hh.live_apart
  rw [hlive, List.pairwise_append, List.pairwise_cons] at order
  obtain ⟨order_pre, ⟨order_s, order_post⟩, order_pre_s⟩ := order
  have apart_live : ∀ t ∈ pre ++ post, s.Apart t := by
    intro t ht
    rcases List.mem_append.1 ht with ht | ht
    · exact Or.inr (order_pre_s t ht s (by simp))
    · exact Or.inl (order_s t ht)
  have mem_live : ∀ t ∈ pre ++ post, t ∈ h.live := by
    intro t ht
    rw [hlive]
    rcases List.mem_append.1 ht with ht | ht <;> simp [ht]
  constructor
  case free_block =>
    intro t ht
    refine IsBlock.congr ?_ rfl rfl (h := h)
    exact forall_mem_coalesce (fun _ _ hs ht touch => hs.join ht touch) block_s hh.free_block t ht
  case live_block =>
    intro t ht
    exact (hh.live_block t (mem_live t ht)).congr rfl rfl
  case covers =>
    intro a low high
    have := hh.covers a low high
    rw [covered_coalesce, covered_append]
    rw [hlive, covered_append, covered_cons] at this
    tauto
  case separate =>
    intro a ha
    rintro ⟨t, ht, hta⟩
    rcases (covered_coalesce s h.free a).1 ha with hs | hfree
    · exact not_covers_of_apart (apart_live t ht) hs hta
    · exact hh.separate a hfree ⟨t, mem_live t ht, hta⟩
  case free_gaps =>
    exact pairwise_coalesce block_s.pos hh.free_gaps (fun t ht => (hh.free_block t ht).pos)
      apart_free
  case live_apart =>
    refine List.pairwise_append.2 ⟨order_pre, order_post, fun t ht u hu => ?_⟩
    exact order_pre_s t ht u (by simp [hu])
  case total =>
    have total := hh.total
    simp only [hlive, totalSize_coalesce, totalSize_append, totalSize_cons] at total ⊢
    omega

/-! ### Sequences of requests -/

/-- What can be asked of a heap. -/
inductive Request where
  | alloc (size : Nat)
  | free (address : Nat)
  deriving DecidableEq, Repr

/-- One request: the address or size that is answered, if it can be served, and the heap after. -/
def serve (h : Heap) : Request → Option Nat × Heap
  | .alloc size =>
    match h.alloc? size with
    | some (address, h) => (some address, h)
    | none => (none, h)
  | .free address =>
    match h.free? address with
    | some (size, h) => (some size, h)
    | none => (none, h)

/-- All requests in order. -/
def run (h : Heap) (requests : List Request) : Heap :=
  requests.foldl (fun h r => (h.serve r).2) h

/-- Every request keeps a heap tiled. -/
theorem Tiled.serve {h : Heap} (hh : h.Tiled) (r : Request) : (h.serve r).2.Tiled := by
  cases r with
  | alloc size =>
    simp only [Heap.serve]
    split
    case h_1 e => exact hh.alloc? e
    case h_2 => exact hh
  | free address =>
    simp only [Heap.serve]
    split
    case h_1 e => exact hh.free? e
    case h_2 => exact hh

/-- Requests leave the region as it is. -/
theorem serve_region (h : Heap) (r : Request) :
    (h.serve r).2.base = h.base ∧ (h.serve r).2.capacity = h.capacity := by
  cases r with
  | alloc size =>
    simp only [Heap.serve]
    split
    case h_1 e =>
      obtain ⟨n, -, pre, s, post, -, -, -, rfl⟩ := alloc?_eq_some e
      exact ⟨rfl, rfl⟩
    case h_2 => exact ⟨rfl, rfl⟩
  | free address =>
    simp only [Heap.serve]
    split
    case h_1 e =>
      obtain ⟨s, pre, post, -, -, -, rfl⟩ := free?_eq_some e
      exact ⟨rfl, rfl⟩
    case h_2 => exact ⟨rfl, rfl⟩

/-- A request that is not served leaves the heap as it is. -/
theorem serve_eq_self {h : Heap} {r : Request} (e : (h.serve r).1 = none) : (h.serve r).2 = h := by
  cases r with
  | alloc size =>
    simp only [Heap.serve] at e ⊢
    split at e <;> simp_all
  | free address =>
    simp only [Heap.serve] at e ⊢
    split at e <;> simp_all

/-- Requests one after another keep a heap tiled, by induction on them. -/
theorem Tiled.run {h : Heap} (hh : h.Tiled) (requests : List Request) : (h.run requests).Tiled := by
  induction requests generalizing h with
  | nil => exact hh
  | cons r rs ih => exact ih (hh.serve r)

/-- Requests do not move the region. -/
theorem run_region (h : Heap) (requests : List Request) :
    (h.run requests).base = h.base ∧ (h.run requests).capacity = h.capacity := by
  induction requests generalizing h with
  | nil => exact ⟨rfl, rfl⟩
  | cons r rs ih =>
    obtain ⟨base, capacity⟩ := serve_region h r
    obtain ⟨base', capacity'⟩ := ih (h.serve r).2
    exact ⟨base'.trans base, capacity'.trans capacity⟩

/-- **The blocks tile the region after any requests.** Whatever is asked of a new heap, its free and
its live blocks are apart and cover exactly the managed region, which is the largest aligned range
within the given addresses; every block is a positive number of units long and starts at a unit
other than zero; no address is both free and live, and no free block ends where another one starts.
The sizes of all blocks add up to the capacity, and a request that is not served changes nothing. -/
theorem run_tiles (base length : Nat) (requests : List Request) :
    let h := (manage base length).run requests
    (h.free ++ h.live).Pairwise Span.Apart ∧
    (∀ a, covered (h.free ++ h.live) a ↔ h.base ≤ a ∧ a < h.base + h.capacity) ∧
    (∀ s ∈ h.free ++ h.live,
      0 < s.size ∧ blockAlign ∣ s.start ∧ blockAlign ∣ s.size ∧ s.start ≠ 0) ∧
    (∀ a, ¬ (covered h.free a ∧ covered h.live a)) ∧
    (∀ s ∈ h.free, ∀ t ∈ h.free, s.stop ≠ t.start) ∧
    IsRegion (max base 1) (min (base + length) (addressRange - 1)) h.base (h.base + h.capacity) ∧
    h.stats.used + totalSize h.free = h.stats.capacity ∧
    ∀ r, (h.serve r).1 = none → (h.serve r).2 = h := by
  intro h
  have hh : h.Tiled := (tiled_manage base length).run requests
  -- The region is that of the new heap.
  obtain ⟨base_eq, capacity_eq⟩ := run_region (manage base length) requests
  refine ⟨hh.apart, hh.covered_iff, fun s hs => ?_, fun a ha => hh.separate a ha.1 ha.2,
    fun s hs t ht => hh.not_adjacent hs ht, ?_, ?_, fun r => serve_eq_self⟩
  · have block : h.IsBlock s :=
      (List.mem_append.1 hs).elim (hh.free_block s) (hh.live_block s)
    exact ⟨block.pos, block.start_aligned, block.size_aligned, Nat.ne_of_gt block.start_pos⟩
  · show IsRegion _ _ ((manage base length).run requests).base
      (((manage base length).run requests).base + ((manage base length).run requests).capacity)
    rw [base_eq, capacity_eq]
    exact isRegion_manage base length
  · show totalSize h.live + totalSize h.free = h.capacity
    rw [Nat.add_comm, hh.total]

end Heap

end Embedder
