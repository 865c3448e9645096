import Embedder.Proofs.Heap.Fit

namespace Embedder

/-!
# The arithmetic of a block heap

The allocator adds and subtracts 32-bit numbers without looking whether the results are such numbers.
Here it is written out once more over ordered maps, as a machine would carry it out, with every
operation checked: where one leaves the range, the whole fails. On heaps whose blocks tile a region of
32-bit addresses, nothing fails, and the answers are the same.

* `Overflow`, `Checked`: checked operations.
* `Heap.manageChecked`, `Heap.allocChecked?`, `Heap.freeChecked?`: the allocator with checks.
* `join_eq`: what coalescing comes down to between the neighbours of a span.
* `manageChecked_eq`, `Tiled.allocChecked?_eq`, `Tiled.freeChecked?_eq`: that no check fails.
* `Heap.Exact`, `exact_run`: the same of every heap that is reached.
-/

/-! ### Checked operations -/

/-- An operation on 32-bit numbers whose result is none. -/
inductive Overflow where
  | sum (x y : Nat)
  | difference (x y : Nat)
  | product (x y : Nat)
  deriving DecidableEq, Repr

/-- A computation that fails at the first operation whose result is not a 32-bit number. -/
abbrev Checked :=
  Except Overflow

namespace Checked

/-- The sum of two numbers. -/
def sum (x y : Nat) : Checked Nat :=
  if x + y < addressRange then .ok (x + y) else .error (.sum x y)

/-- The difference of two numbers. -/
def difference (x y : Nat) : Checked Nat :=
  if y ≤ x then .ok (x - y) else .error (.difference x y)

/-- The product of two numbers. -/
def product (x y : Nat) : Checked Nat :=
  if x * y < addressRange then .ok (x * y) else .error (.product x y)

/-- A sum below the range of addresses is exact. -/
theorem sum_eq {x y : Nat} (fits : x + y < addressRange) : sum x y = .ok (x + y) :=
  if_pos fits

/-- A difference of a number and a smaller one is exact. -/
theorem difference_eq {x y : Nat} (le : y ≤ x) : difference x y = .ok (x - y) :=
  if_pos le

/-- A product below the range of addresses is exact. -/
theorem product_eq {x y : Nat} (fits : x * y < addressRange) : product x y = .ok (x * y) :=
  if_pos fits

@[simp] theorem ok_bind {α β : Type} (a : α) (f : α → Checked β) : (.ok a : Checked α) >>= f = f a :=
  rfl

@[simp] theorem pure_eq {α : Type} (a : α) : (pure a : Checked α) = .ok a := rfl

end Checked

namespace Heap

/-! ### The allocator with checks -/

/-- A list without the spans that start at an address. -/
def dropSpan (address : Nat) (l : List Span) : List Span :=
  l.filter fun s => s.start ≠ address

/-- The heap of a region. Its length is computed for the free block and for the capacity. -/
def manageChecked (base length : Nat) : Checked Heap := do
  let stop := alignDown (min (base + length) (addressRange - 1))
  let start := min ((alignUp? (max base 1)).getD stop) stop
  let free ←
    if start < stop then do
      pure [⟨start, ← Checked.difference stop start⟩]
    else pure []
  pure ⟨start, ← Checked.difference stop start, free, []⟩

/-- Take the first free block that is large enough. What is left of it is free again. -/
def allocChecked? (h : Heap) (size : Nat) : Checked (Option (Nat × Heap)) :=
  match blockSizeFor? size with
  | none => pure none
  | some size =>
    match h.free.find? fun s => size ≤ s.size with
    | none => pure none
    | some s => do
      let rest := dropSpan s.start h.free
      let free ←
        if size < s.size then do
          let left : Span := ⟨← Checked.sum s.start size, ← Checked.difference s.size size⟩
          pure (insertSpan left rest)
        else pure rest
      pure (some (s.start, { h with free, live := insertSpan ⟨s.start, size⟩ h.live }))

/-- A block together with the last free one before it, if they touch, and the free blocks that are
left. -/
def joinBefore (block : Span) (free : List Span) : Checked (Span × List Span) :=
  match (free.filter fun s => s.start < block.start).getLast? with
  | none => pure (block, free)
  | some prev => do
    if (← Checked.sum prev.start prev.size) = block.start then do
      pure (⟨prev.start, ← Checked.sum block.size prev.size⟩, dropSpan prev.start free)
    else pure (block, free)

/-- The free blocks with a block that comes to be free, given what it was joined to in front, and
joined to the one that starts where it ends. -/
def joinAfter (block joined : Span) (free : List Span) : Checked (List Span) := do
  match removeSpan (← Checked.sum block.start block.size) free with
  | none => pure (insertSpan joined free)
  | some (next, rest) =>
    pure (insertSpan ⟨joined.start, ← Checked.sum joined.size next.size⟩ rest)

/-- Return the live block that starts at an address. -/
def freeChecked? (h : Heap) (address : Nat) : Checked (Option (Nat × Heap)) :=
  match removeSpan address h.live with
  | none => pure none
  | some (block, live) => do
    let (joined, rest) ← joinBefore block h.free
    let free ← joinAfter block joined rest
    pure (some (block.size, { h with free, live }))

/-! ### Places in an ordered list -/

section

variable {s t : Span} {pre post : List Span} {address n : Nat}

/-- A span is inserted between those before and those after it. -/
theorem insertSpan_between (before : ∀ u ∈ pre, u.start < s.start)
    (after : ∀ u ∈ post, s.start < u.start) :
    insertSpan s (pre ++ post) = pre ++ s :: post := by
  induction pre with
  | nil =>
    cases post with
    | nil => rfl
    | cons t ts => exact if_pos (after t List.mem_cons_self)
  | cons t ts ih =>
    have later := Nat.lt_asymm (before t List.mem_cons_self)
    rw [List.cons_append, insertSpan, if_neg later,
      ih fun u mem => before u (List.mem_cons_of_mem _ mem), List.cons_append]

/-- A span is dropped from between its neighbours. -/
theorem dropSpan_between (before : ∀ u ∈ pre, u.start < s.start)
    (after : ∀ u ∈ post, s.start < u.start) : dropSpan s.start (pre ++ s :: post) = pre ++ post := by
  have kept : ∀ {l : List Span}, (∀ u ∈ l, u.start ≠ s.start) → dropSpan s.start l = l :=
    fun others => List.filter_eq_self.2 fun u mem => by simpa using others u mem
  have front : dropSpan s.start pre = pre := kept fun u mem => (before u mem).ne
  have back : dropSpan s.start post = post := kept fun u mem => (after u mem).ne'
  unfold dropSpan at front back ⊢
  rw [List.filter_append, List.filter_cons_of_neg (by simp), front, back]

/-- A span is found and removed behind spans of other addresses. -/
theorem removeSpan_between (others : ∀ u ∈ pre, u.start ≠ s.start) :
    removeSpan s.start (pre ++ s :: post) = some (s, pre ++ post) := by
  induction pre with
  | nil => exact if_pos rfl
  | cons t ts ih =>
    rw [List.cons_append, removeSpan, if_neg (others t List.mem_cons_self),
      ih fun u mem => others u (List.mem_cons_of_mem _ mem)]
    rfl

/-- The first span that is large enough is cut, behind those that are too small. -/
theorem cutFirstFit_between (small : ∀ u ∈ pre, u.size < n) (le : n ≤ s.size) :
    cutFirstFit n (pre ++ s :: post) = some (s.start, pre ++ (remainder s n ++ post)) := by
  induction pre with
  | nil =>
    rw [List.nil_append, cutFirstFit, if_pos le, remainder]
    split <;> rfl
  | cons t ts ih =>
    rw [List.cons_append, cutFirstFit, if_neg (small t List.mem_cons_self).not_ge,
      ih fun u mem => small u (List.mem_cons_of_mem _ mem)]
    rfl

end

/-! ### Coalescing between neighbours -/

section

variable {s : Span} {pre post : List Span}

/-- Spans that end before another one begins are passed over. -/
theorem coalesce_append (before : ∀ u ∈ pre, u.stop < s.start) :
    coalesce s (pre ++ post) = pre ++ coalesce s post := by
  induction pre with
  | nil => rfl
  | cons t ts ih =>
    have ends := before t List.mem_cons_self
    have later : ¬ s.start < t.start := by
      simp only [Span.stop] at ends
      omega
    rw [List.cons_append, coalesce, if_neg later, if_neg ends.ne,
      ih fun u mem => before u (List.mem_cons_of_mem _ mem), List.cons_append]

/-- Before all spans of a list, there is only the first one to join. -/
theorem coalesce_of_lt (after : ∀ u ∈ post, s.start < u.start) :
    coalesce s post = joinNext s post := by
  cases post with
  | nil => rfl
  | cons t ts => exact if_pos (after t List.mem_cons_self)

/-- The neighbours of a span among others that are apart from it: those before and those after. -/
theorem exists_neighbours {l : List Span} (gaps : l.Pairwise fun t u => t.stop < u.start)
    (apart : ∀ t ∈ l, s.Apart t) : ∃ pre post, l = pre ++ post ∧ (∀ t ∈ pre, t.stop ≤ s.start) ∧
      ∀ t ∈ post, s.stop ≤ t.start := by
  induction l with
  | nil => exact ⟨[], [], rfl, by simp, by simp⟩
  | cons t ts ih =>
    obtain ⟨gap, gaps⟩ := List.pairwise_cons.1 gaps
    obtain ⟨ahead, others⟩ := List.forall_mem_cons.1 apart
    rcases ahead with after | before
    · refine ⟨[], t :: ts, rfl, by simp, List.forall_mem_cons.2 ⟨after, fun u mem => ?_⟩⟩
      have := gap u mem
      simp only [Span.stop] at *
      omega
    · obtain ⟨pre, post, rfl, ends, begins⟩ := ih gaps others
      exact ⟨t :: pre, post, rfl, List.forall_mem_cons.2 ⟨before, ends⟩, begins⟩

/-- A span that was joined in front is joined to the free block that starts where it ends, and put in
its place, and no sum leaves the range. -/
theorem joinAfter_eq {block joined : Span} (ends : joined.stop = block.stop) (pos : 0 < joined.size)
    (before : ∀ u ∈ pre, u.start < joined.start) (after : ∀ u ∈ post, block.stop ≤ u.start)
    (gaps : post.Pairwise fun t u => t.stop < u.start) (bound : block.stop < addressRange)
    (bounds : ∀ u ∈ post, u.stop < addressRange) :
    joinAfter block joined (pre ++ post) = .ok (pre ++ joinNext joined post) := by
  have least : joined.start < block.stop := by
    rw [← ends, Span.stop]
    omega
  have next : Checked.sum block.start block.size = .ok block.stop := Checked.sum_eq bound
  have earlier : ∀ u ∈ pre, u.start ≠ block.stop := fun u mem => ((before u mem).trans least).ne
  rw [joinAfter, next, Checked.ok_bind]
  -- If nothing is free behind the place, there is nothing to join.
  cases post with
  | nil =>
    have absent : removeSpan block.stop (pre ++ []) = none := by
      rw [List.append_nil]
      exact removeSpan_eq_none_iff.2 earlier
    rw [absent]
    exact congrArg _ (insertSpan_between before (by simp))
  | cons t ts =>
    obtain ⟨starts, later⟩ := List.forall_mem_cons.1 after
    obtain ⟨gap, -⟩ := List.pairwise_cons.1 gaps
    have beyond : ∀ u ∈ ts, t.start < u.start := by
      intro u mem
      have := gap u mem
      simp only [Span.stop] at this
      omega
    -- The free blocks come in order, so only the first one behind the place can touch.
    by_cases touch : t.start = block.stop
    · have found : removeSpan block.stop (pre ++ t :: ts) = some (t, pre ++ ts) :=
        touch ▸ removeSpan_between (touch ▸ earlier)
      have fits : joined.size + t.size < addressRange := by
        have := bounds t List.mem_cons_self
        simp only [Span.stop] at this ends touch
        omega
      simp only [found, joinNext, if_pos (ends.trans touch.symm), Checked.sum_eq fits,
        Checked.ok_bind]
      exact congrArg _ (insertSpan_between before fun u mem => by
        have := beyond u mem
        show joined.start < u.start
        omega)
    · have absent : removeSpan block.stop (pre ++ t :: ts) = none := by
        refine removeSpan_eq_none_iff.2 fun u mem => ?_
        rcases List.mem_append.1 mem with front | back
        · exact earlier u front
        · rcases List.mem_cons.1 back with rfl | back
          · exact touch
          · have := beyond u back
            omega
      rw [absent, joinNext, if_neg fun touches => touch (touches.symm.trans ends)]
      refine congrArg _ (insertSpan_between before fun u mem => ?_)
      have := after u mem
      omega

end

/-! ### No check fails -/

/-- A new heap is computed without a check that fails. -/
theorem manageChecked_eq (base length : Nat) : manageChecked base length = .ok (manage base length) := by
  have exact := Checked.difference_eq (Nat.min_le_right
    ((alignUp? (max base 1)).getD (alignDown (min (base + length) (addressRange - 1))))
    (alignDown (min (base + length) (addressRange - 1))))
  simp only [manageChecked, exact, Checked.ok_bind, Checked.pure_eq, manage]
  split <;> rfl

variable {h : Heap}

/-- The blocks of a heap in a region of 32-bit addresses end at such addresses. -/
theorem IsBlock.stop_lt {s : Span} (block : h.IsBlock s) (bound : h.base + h.capacity < addressRange) :
    s.stop < addressRange :=
  Nat.lt_of_le_of_lt block.stop_le bound

/-- The free spans stand in the order of their addresses. -/
theorem Tiled.free_starts (hh : h.Tiled) : h.free.Pairwise fun s t => s.start < t.start := by
  refine hh.free_gaps.imp fun gap => ?_
  simp only [Span.stop] at gap
  omega

/-- An allocation is computed without a check that fails. -/
theorem Tiled.allocChecked?_eq (hh : h.Tiled) (bound : h.base + h.capacity < addressRange)
    (size : Nat) : h.allocChecked? size = .ok (h.alloc? size) := by
  unfold allocChecked? Heap.alloc?
  cases blockSizeFor? size with
  | none => rfl
  | some n =>
    cases found : h.free.find? fun s => n ≤ s.size with
    | none =>
      have absent : cutFirstFit n h.free = none :=
        cutFirstFit_eq_none_iff.2 (by simpa using List.find?_eq_none.1 found)
      simp only [found, absent, Option.bind_eq_bind, Option.bind_some, Option.bind_none]
      rfl
    | some s =>
      obtain ⟨large, pre, post, split, small⟩ := List.find?_eq_some_iff_append.1 found
      have le : n ≤ s.size := by simpa using large
      -- The free spans are in order, so the one that fits parts the list in two.
      have order := hh.free_starts
      rw [split, List.pairwise_append, List.pairwise_cons] at order
      obtain ⟨-, ⟨after, -⟩, before⟩ := order
      have before : ∀ u ∈ pre, u.start < s.start := fun u mem => before u mem s List.mem_cons_self
      have cut : cutFirstFit n h.free = some (s.start, pre ++ (remainder s n ++ post)) :=
        split ▸ cutFirstFit_between (by simpa using small) le
      have rest : dropSpan s.start h.free = pre ++ post := split ▸ dropSpan_between before after
      have stop := (hh.free_block s (split ▸ List.mem_append_right _ List.mem_cons_self)).stop_lt bound
      simp only [found, cut, rest, Option.bind_eq_bind, Option.bind_some, remainder]
      by_cases more : n < s.size
      · -- what is left lies within the block, between what was free before it and after it
        have inside : s.start + n < addressRange := by
          simp only [Span.stop] at stop
          omega
        have place : insertSpan ⟨s.start + n, s.size - n⟩ (pre ++ post) =
            pre ++ ⟨s.start + n, s.size - n⟩ :: post := by
          refine insertSpan_between (fun u mem => ?_) fun u mem => ?_
          · exact Nat.lt_add_right _ (before u mem)
          · have gap := hh.free_gaps
            rw [split, List.pairwise_append, List.pairwise_cons] at gap
            have := gap.2.1.1 u mem
            simp only [Span.stop] at this
            show s.start + n < u.start
            omega
        simp only [more, if_true, Checked.sum_eq inside, Checked.difference_eq le, Checked.ok_bind,
          Checked.pure_eq, place]
        rfl
      · simp only [more, if_false, Checked.ok_bind, Checked.pure_eq]
        rfl

section

variable {block prev : Span} {pre post : List Span} (before : ∀ u ∈ pre, u.start < block.start)
  (after : ∀ u ∈ post, block.start < u.start)

include before after in
/-- The free blocks that start before a block are those before its place. -/
theorem filter_between :
    (pre ++ post).filter (fun s => s.start < block.start) = pre := by
  rw [List.filter_append, List.filter_eq_self.2 (by simpa using before),
    List.filter_eq_nil_iff.2 (by simpa using fun u mem => (after u mem).le), List.append_nil]

include before after in
/-- Where the blocks before a place end earlier, a block is joined to none of them. -/
theorem joinBefore_of_gap (ends : ∀ u ∈ pre, u.stop < block.start)
    (bound : block.start < addressRange) :
    joinBefore block (pre ++ post) = .ok (block, pre ++ post) := by
  rw [joinBefore, filter_between before after]
  cases last : pre.getLast? with
  | none => rfl
  | some prev =>
    have gap := ends prev (List.mem_of_getLast? last)
    have sum : Checked.sum prev.start prev.size = .ok prev.stop := Checked.sum_eq (gap.trans bound)
    simp only [sum, Checked.ok_bind, gap.ne, if_false]
    rfl

/-- Where the last block before a place ends there, a block is joined to it. -/
theorem joinBefore_of_touch (touch : prev.stop = block.start) (pos : 0 < prev.size)
    (before : ∀ u ∈ pre, u.start < prev.start) (after : ∀ u ∈ post, block.start < u.start)
    (bound : block.stop < addressRange) : joinBefore block (pre ++ prev :: post) =
      .ok (⟨prev.start, block.size + prev.size⟩, pre ++ post) := by
  have first : prev.start < block.start := by
    rw [← touch, Span.stop]
    omega
  have front : (pre ++ prev :: post).filter (fun s => s.start < block.start) = pre ++ [prev] := by
    rw [List.append_cons]
    refine filter_between (fun u mem => ?_) after
    rcases List.mem_append.1 mem with mem | mem
    · exact (before u mem).trans first
    · exact List.mem_singleton.1 mem ▸ first
  -- None of the sums goes beyond the end of the block.
  have sum : Checked.sum prev.start prev.size = .ok prev.stop := by
    refine Checked.sum_eq (lt_of_eq_of_lt touch (Nat.lt_of_le_of_lt ?_ bound))
    exact Nat.le_add_right _ _
  have length : Checked.sum block.size prev.size = .ok (block.size + prev.size) := by
    refine Checked.sum_eq ?_
    simp only [Span.stop] at touch bound
    omega
  have rest : dropSpan prev.start (pre ++ prev :: post) = pre ++ post :=
    dropSpan_between before fun u mem => first.trans (after u mem)
  rw [joinBefore, front, List.getLast?_concat]
  simp only [sum, touch, if_true, length, rest, Checked.ok_bind, Checked.pure_eq]

end

/-- A block that comes to be free is joined to its neighbours without a check that fails. -/
theorem join_eq {block : Span} {free : List Span} (pos : 0 < block.size)
    (gaps : free.Pairwise fun s t => s.stop < t.start) (sizes : ∀ s ∈ free, 0 < s.size)
    (apart : ∀ s ∈ free, block.Apart s) (bound : block.stop < addressRange)
    (bounds : ∀ s ∈ free, s.stop < addressRange) :
    (joinBefore block free >>= fun x => joinAfter block x.1 x.2) = .ok (coalesce block free) := by
  obtain ⟨pre, post, rfl, ends, begins⟩ := exists_neighbours gaps apart
  obtain ⟨gaps_pre, gaps_post, -⟩ := List.pairwise_append.1 gaps
  -- The place parts the free spans into those that end before it and those that begin behind it.
  have later : ∀ u ∈ post, block.start < u.start := fun u mem =>
    lt_of_lt_of_le (Nat.lt_add_of_pos_right pos) (begins u mem)
  have bounds_post : ∀ u ∈ post, u.stop < addressRange :=
    fun u mem => bounds u (List.mem_append_right _ mem)
  by_cases apart_all : ∀ u ∈ pre, u.stop < block.start
  · have earlier : ∀ u ∈ pre, u.start < block.start := fun u mem =>
      lt_of_le_of_lt (Nat.le_add_right _ _) (apart_all u mem)
    rw [joinBefore_of_gap earlier later apart_all (lt_of_le_of_lt (Nat.le_add_right _ _) bound),
      Checked.ok_bind, joinAfter_eq rfl pos earlier begins gaps_post bound bounds_post,
      coalesce_append apart_all, coalesce_of_lt later]
  · -- only the last of those before it can end where it starts
    obtain ⟨pre, prev, rfl⟩ : ∃ init prev, pre = init ++ [prev] := by
      rcases List.eq_nil_or_concat pre with rfl | ⟨init, prev, rfl⟩
      · exact absurd (by simp) apart_all
      · exact ⟨init, prev, List.concat_eq_append⟩
    have mem_prev : prev ∈ pre ++ [prev] := by simp
    have prev_pos := sizes prev (List.mem_append_left _ mem_prev)
    have gap : ∀ u ∈ pre, u.stop < prev.start := fun u mem =>
      (List.pairwise_append.1 gaps_pre).2.2 u mem prev (List.mem_singleton_self prev)
    have starts : ∀ u ∈ pre, u.start < prev.start := fun u mem =>
      lt_of_le_of_lt (Nat.le_add_right _ _) (gap u mem)
    have touch : prev.stop = block.start := by
      by_contra apart_prev
      have before := lt_of_le_of_ne (ends prev mem_prev) apart_prev
      refine apart_all fun u mem => ?_
      rcases List.mem_append.1 mem with mem | mem
      · have := gap u mem
        simp only [Span.stop] at *
        omega
      · exact List.mem_singleton.1 mem ▸ before
    have first : ¬ block.start < prev.start := by
      simp only [Span.stop] at touch
      omega
    have below : ∀ u ∈ pre, u.stop < block.start := by
      intro u mem
      have := gap u mem
      omega
    have joined_ends : (⟨prev.start, block.size + prev.size⟩ : Span).stop = block.stop := by
      simp only [Span.stop] at touch ⊢
      omega
    rw [List.append_assoc, List.singleton_append,
      joinBefore_of_touch touch prev_pos starts later bound, Checked.ok_bind,
      joinAfter_eq joined_ends (Nat.add_pos_left pos _) starts begins gaps_post bound bounds_post,
      coalesce_append below, coalesce, if_neg first, if_pos touch, Nat.add_comm prev.size]

/-- A return is computed without a check that fails. -/
theorem Tiled.freeChecked?_eq (hh : h.Tiled) (bound : h.base + h.capacity < addressRange)
    (address : Nat) : h.freeChecked? address = .ok (h.free? address) := by
  unfold freeChecked? Heap.free?
  cases found : removeSpan address h.live with
  | none => rfl
  | some taken =>
    obtain ⟨block, live⟩ := taken
    have mem : block ∈ h.live := (removeSpan_perm found).mem_iff.2 List.mem_cons_self
    have live_block := hh.live_block block mem
    have apart : ∀ s ∈ h.free, block.Apart s := fun s free =>
      ((List.pairwise_append.1 hh.apart).2.2 s free block mem).symm
    -- A live block is apart from all free ones, and all of them lie within the region.
    have joined := join_eq live_block.pos hh.free_gaps (fun s free => (hh.free_block s free).pos) apart
      (live_block.stop_lt bound) fun s free => (hh.free_block s free).stop_lt bound
    show (joinBefore block h.free >>= fun x => joinAfter block x.1 x.2 >>= fun free =>
      pure (some (block.size, { h with free, live }))) = _
    rw [← bind_assoc, joined]
    rfl

/-! ### Every heap that is reached -/

/-- One request, with checks. -/
def serveChecked (h : Heap) : Request → Checked (Option Nat × Heap)
  | .alloc size => do
    match ← h.allocChecked? size with
    | some (address, h) => pure (some address, h)
    | none => pure (none, h)
  | .free address => do
    match ← h.freeChecked? address with
    | some (size, h) => pure (some size, h)
    | none => pure (none, h)

/-- All requests in order to a new heap, with checks. -/
def runChecked (base length : Nat) (requests : List Request) : Checked Heap := do
  requests.foldlM (fun h r => Prod.snd <$> h.serveChecked r) (← manageChecked base length)

/-- A request is computed without a check that fails. -/
theorem Tiled.serveChecked_eq (hh : h.Tiled) (bound : h.base + h.capacity < addressRange)
    (r : Request) : h.serveChecked r = .ok (h.serve r) := by
  cases r with
  | alloc size =>
    simp only [serveChecked, hh.allocChecked?_eq bound, Checked.ok_bind, Heap.serve]
    cases h.alloc? size <;> rfl
  | free address =>
    simp only [serveChecked, hh.freeChecked?_eq bound, Checked.ok_bind, Heap.serve]
    cases h.free? address <;> rfl

/-- Requests one after another, by induction on them: none of the checks ever fails. -/
theorem Tiled.foldlM_serveChecked (hh : h.Tiled) (bound : h.base + h.capacity < addressRange)
    (requests : List Request) :
    requests.foldlM (fun h r => Prod.snd <$> h.serveChecked r) h = .ok (h.run requests) := by
  induction requests generalizing h with
  | nil => rfl
  | cons r requests ih =>
    obtain ⟨base, capacity⟩ := serve_region h r
    rw [List.foldlM_cons, hh.serveChecked_eq bound]
    exact ih (hh.serve r) (by rw [base, capacity]; exact bound)

/-- Requests leave a new heap's region below the last 32-bit address. -/
theorem stop_run_lt (base length : Nat) (requests : List Request) :
    ((manage base length).run requests).base + ((manage base length).run requests).capacity <
      addressRange := by
  obtain ⟨base_eq, capacity_eq⟩ := run_region (manage base length) requests
  have := stop_manage_le base length
  rw [base_eq, capacity_eq]
  simp only [blockAlign, addressRange] at this ⊢
  omega

/-- The arithmetic of a heap that some requests were made of is exact. -/
structure Exact (base length : Nat) (requests : List Request) (h : Heap) : Prop where
  /-- The heap is what it is with all checks, on the way to it, too. -/
  reached : runChecked base length requests = .ok h
  /-- The next request, whatever it is, is served as with all checks. -/
  serves : ∀ r, h.serveChecked r = .ok (h.serve r)
  /-- All live blocks together are no more than the region, which has a 32-bit size. -/
  used_le : h.stats.used ≤ h.stats.capacity
  capacity_lt : h.stats.capacity < addressRange

/-- **Exact arithmetic.** Whatever region a heap manages and whatever was asked of it, no sum and no
difference has left the range of 32-bit numbers or will with the next request. -/
theorem exact_run (base length : Nat) (requests : List Request) :
    Exact base length requests ((manage base length).run requests) := by
  have tiled := tiled_manage base length
  have bound := stop_run_lt base length requests
  have total := (tiled.run requests).total
  refine ⟨?_, fun r => (tiled.run requests).serveChecked_eq bound r, ?_, ?_⟩
  · rw [runChecked, manageChecked_eq, Checked.ok_bind]
    exact tiled.foldlM_serveChecked (stop_run_lt base length []) requests
  · exact Nat.le_of_add_left_le (Nat.le_of_eq total)
  · exact Nat.lt_of_le_of_lt (Nat.le_add_left _ _) bound

end Heap

end Embedder
