import Mathlib.Data.List.Sort
import Embedder.Proofs.Heap.Fit

namespace Embedder

namespace Heap

/-!
# A heap remembers only what is live

The blocks that are live determine the whole heap. The free addresses are those of the region that
are left over, and there is only one way to write a set of addresses as spans with gaps between
them. So it does not matter by which requests a heap came to its live blocks, nor in which order
blocks are returned.

* `mem_of_covered`, `eq_of_covered`: ordered spans with gaps are determined by their addresses.
* `Tiled.eq_of_live`: a heap is determined by its region and its live blocks.
* `Tiled.mem_live_run_free`: what is live after returns in any order.
* `run_determined_by_live`: two histories with the same live blocks end in the same heap.
-/

/-! ### Spans with gaps between them -/

/-- Ordered lists of nonempty spans are equal if they have the same members. -/
theorem eq_of_mem_iff {l l' : List Span} (order : l.Pairwise fun s t => s.stop ≤ t.start)
    (order' : l'.Pairwise fun s t => s.stop ≤ t.start) (pos : ∀ s ∈ l, 0 < s.size)
    (pos' : ∀ s ∈ l', 0 < s.size) (same : ∀ s, s ∈ l ↔ s ∈ l') : l = l' := by
  have : Std.Irrefl fun s t : Span => s.start < t.start := ⟨fun s => Nat.lt_irrefl s.start⟩
  have : Std.Antisymm fun s t : Span => s.start < t.start :=
    ⟨fun s t before after => absurd before (Nat.lt_asymm after)⟩
  -- a span is not empty, so it starts before the next one does
  have strict : ∀ {l : List Span}, (∀ s ∈ l, 0 < s.size) →
      l.Pairwise (fun s t => s.stop ≤ t.start) → l.Pairwise fun s t => s.start < t.start := by
    intro l pos order
    refine order.imp_of_mem fun {s t} hs _ le => ?_
    have := pos s hs
    simp only [Span.stop] at le
    omega
  exact (strict pos order).eq_of_mem_iff (strict pos' order') same

section
variable {l l' : List Span} (gaps : l.Pairwise fun s t => s.stop < t.start)
  (gaps' : l'.Pairwise fun s t => s.stop < t.start)

include gaps gaps' in
/-- A span of one list is one of the other, if the lists have the same addresses. -/
theorem mem_of_covered (pos : ∀ s ∈ l, 0 < s.size) (same : ∀ a, covered l a ↔ covered l' a)
    {s : Span} (hs : s ∈ l) : s ∈ l' := by
  -- it lies within a span of the other list, which in turn lies within one of its own
  have out : ∀ x, s.start ≤ x → x < s.start + s.size → covered l' x := by
    intro x low high
    exact (same x).1 ⟨s, hs, low, high⟩
  obtain ⟨t, ht, start, stop⟩ := exists_mem_of_range_covered gaps' (pos s hs) out
  have size : 0 < t.size := by
    have := pos s hs
    simp only [Span.stop] at stop
    omega
  have back : ∀ x, t.start ≤ x → x < t.start + t.size → covered l x := by
    intro x low high
    exact (same x).2 ⟨t, ht, low, high⟩
  obtain ⟨u, hu, start', stop'⟩ := exists_mem_of_range_covered gaps size back
  have eq : s = u := by
    by_contra different
    have apart := before_or_after gaps hs hu different
    have := pos s hs
    simp only [Span.stop] at *
    omega
  subst eq
  have equal : s = t := by
    cases s
    cases t
    simp only [Span.stop, Span.mk.injEq] at *
    omega
  rwa [equal]

include gaps gaps' in
/-- **One way to write a set of addresses.** Ordered lists of spans with gaps between them are equal
if they have the same addresses. -/
theorem eq_of_covered (pos : ∀ s ∈ l, 0 < s.size) (pos' : ∀ s ∈ l', 0 < s.size)
    (same : ∀ a, covered l a ↔ covered l' a) : l = l' := by
  refine eq_of_mem_iff (gaps.imp Nat.le_of_lt) (gaps'.imp Nat.le_of_lt) pos pos' fun s => ?_
  exact ⟨mem_of_covered gaps gaps' pos same,
    mem_of_covered gaps' gaps pos' fun a => (same a).symm⟩

end

/-! ### Live blocks determine the heap -/

variable {h h' : Heap}

/-- The free addresses are those of the region that are not live. -/
theorem Tiled.covered_free_iff (hh : h.Tiled) (a : Nat) :
    covered h.free a ↔ (h.base ≤ a ∧ a < h.base + h.capacity) ∧ ¬ covered h.live a := by
  have all := hh.covered_iff a
  rw [covered_append] at all
  constructor
  · intro free
    exact ⟨all.1 (.inl free), hh.separate a free⟩
  · rintro ⟨inside, vacant⟩
    exact (all.2 inside).resolve_right vacant

/-- Heaps of the same region with the same live blocks are equal. -/
theorem Tiled.eq_of_live (hh : h.Tiled) (hh' : h'.Tiled) (base : h.base = h'.base)
    (capacity : h.capacity = h'.capacity) (same : ∀ s, s ∈ h.live ↔ s ∈ h'.live) : h = h' := by
  have live : h.live = h'.live :=
    eq_of_mem_iff hh.live_apart hh'.live_apart (fun s hs => (hh.live_block s hs).pos)
      (fun s hs => (hh'.live_block s hs).pos) same
  have free : h.free = h'.free := by
    refine eq_of_covered hh.free_gaps hh'.free_gaps (fun s hs => (hh.free_block s hs).pos)
      (fun s hs => (hh'.free_block s hs).pos) fun a => ?_
    rw [hh.covered_free_iff, hh'.covered_free_iff, base, capacity, live]
  cases h
  cases h'
  simp only [mk.injEq]
  exact ⟨base, capacity, free, live⟩

/-- Two runs of one new heap end in the same heap if they end with the same live blocks. -/
theorem run_eq_of_live {base length : Nat} {requests others : List Request}
    (same : ∀ s, s ∈ ((manage base length).run requests).live ↔
      s ∈ ((manage base length).run others).live) :
    (manage base length).run requests = (manage base length).run others := by
  have fresh := tiled_manage base length
  obtain ⟨base_eq, capacity_eq⟩ := run_region (manage base length) requests
  obtain ⟨base_eq', capacity_eq'⟩ := run_region (manage base length) others
  exact (fresh.run requests).eq_of_live (fresh.run others) (base_eq.trans base_eq'.symm)
    (capacity_eq.trans capacity_eq'.symm) same

/-! ### Returns -/

/-- After a return the block that starts there is not live any more, and all others still are. -/
theorem Tiled.mem_live_serve_free (hh : h.Tiled) (a : Nat) (s : Span) :
    s ∈ (h.serve (.free a)).2.live ↔ s ∈ h.live ∧ s.start ≠ a := by
  obtain ⟨start, size⟩ := s
  have hh' := hh.serve (.free a)
  rw [← hh'.blockSize?_eq_some_iff, ← hh.blockSize?_eq_some_iff]
  cases e : h.free? a with
  | none =>
    have absent := hh.free?_eq_none_iff.1 e
    simp only [Heap.serve, e]
    constructor
    · intro found
      refine ⟨found, ?_⟩
      rintro rfl
      simp [absent] at found
    · exact And.left
  | some answer =>
    obtain ⟨n, after⟩ := answer
    simp only [Heap.serve, e, (hh.blockSize?_free? e).2, Function.update_apply]
    by_cases same : start = a <;> simp [same]

/-- What is live after returns in a row: the blocks that start at none of the addresses. -/
theorem Tiled.mem_live_run_free (hh : h.Tiled) (addresses : List Nat) (s : Span) :
    s ∈ (h.run (addresses.map .free)).live ↔ s ∈ h.live ∧ s.start ∉ addresses := by
  induction addresses generalizing h with
  | nil => simp [Heap.run]
  | cons a rest ih =>
    show s ∈ ((h.serve (.free a)).2.run (rest.map .free)).live ↔ _
    rw [ih (hh.serve (.free a)), hh.mem_live_serve_free, List.mem_cons, not_or, and_assoc]

theorem run_append (h : Heap) (requests more : List Request) :
    h.run (requests ++ more) = (h.run requests).run more :=
  List.foldl_append

/-- An allocation that is taken back leaves the heap as it was. -/
theorem Tiled.free?_alloc? (hh : h.Tiled) {size a : Nat} (e : h.alloc? size = some (a, h')) :
    h'.free? a = some (wholeUnits size, h) := by
  have hh' := hh.alloc? e
  have taken := hh.blockSize?_alloc? e
  -- the address was not a live block's, since the block had room there
  have vacant : h.blockSize? a = none := by
    rw [Option.eq_none_iff_forall_not_mem]
    intro n live
    have mem := hh.blockSize?_eq_some_iff.1 live
    have apart := (hh.isLeast_alloc? e).1.vacant _ mem
    have pos := (hh.live_block _ mem).pos
    have pos' := wholeUnits_pos size
    simp only [Span.Apart, Span.stop] at apart pos
    omega
  cases back : h'.free? a with
  | none =>
    have := hh'.free?_eq_none_iff.1 back
    simp [taken] at this
  | some answer =>
    obtain ⟨n, h''⟩ := answer
    obtain ⟨found, after⟩ := hh'.blockSize?_free? back
    rw [taken, Function.update_self, Option.some.injEq] at found
    rw [taken, Function.update_idem, ← vacant, Function.update_eq_self] at after
    -- what is live is as before, and so is the rest
    have region := serve_region h (.alloc size)
    have region' := serve_region h' (.free a)
    simp only [Heap.serve, e, back] at region region'
    have eq : h'' = h := by
      refine (hh'.free? back).eq_of_live hh (region'.1.trans region.1) (region'.2.trans region.2)
        fun s => ?_
      rw [← (hh'.free? back).blockSize?_eq_some_iff, after, hh.blockSize?_eq_some_iff]
    rw [eq, found]

/-- **A heap remembers only what is live.** Take a new heap after any requests. Every other sequence
of requests that ends with the same live blocks ends in the same heap, its free blocks included. A
block that is allocated and returned is answered with its size and leaves the heap as it was. Blocks
that are returned one after the other leave the same heap in every order, and once all of them are
returned the heap is a new one. -/
theorem run_determined_by_live (base length : Nat) (requests : List Request) :
    let h := (manage base length).run requests
    (∀ others, (∀ s, s ∈ h.live ↔ s ∈ ((manage base length).run others).live) →
      h = (manage base length).run others) ∧
    (∀ size a h', h.serve (.alloc size) = (some a, h') →
      h'.serve (.free a) = (some (wholeUnits size), h)) ∧
    (∀ first second : List Nat, (∀ a, a ∈ first ↔ a ∈ second) →
      h.run (first.map .free) = h.run (second.map .free)) ∧
    ∀ addresses : List Nat, (∀ s ∈ h.live, s.start ∈ addresses) →
      h.run (addresses.map .free) = manage base length := by
  intro h
  have hh : h.Tiled := (tiled_manage base length).run requests
  -- Everything else follows from this: it is enough to compare what is live.
  refine ⟨fun others => run_eq_of_live, ?_, ?_, ?_⟩
  · intro size a h' taken
    cases e : h.alloc? size with
    | none => simp [serve, e] at taken
    | some found =>
      simp only [serve, e, Prod.mk.injEq, Option.some.injEq] at taken
      obtain ⟨rfl, rfl⟩ := taken
      simp only [serve, hh.free?_alloc? e]
  · intro first second same
    rw [← run_append, ← run_append]
    refine run_eq_of_live fun s => ?_
    rw [run_append, run_append, hh.mem_live_run_free, hh.mem_live_run_free, same]
  · intro addresses all
    rw [← run_append]
    show (manage base length).run _ = (manage base length).run []
    refine run_eq_of_live fun s => ?_
    rw [run_append, hh.mem_live_run_free]
    constructor
    · rintro ⟨live, kept⟩
      exact absurd (all s live) kept
    · -- nothing is live in a new heap
      intro live
      simp [run, manage] at live

end Heap

end Embedder
