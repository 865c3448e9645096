import Mathlib.Data.List.Pairwise
import Mathlib.Data.List.Perm.Basic
import Mathlib.Algebra.BigOperators.Group.List.Basic
import Mathlib.Algebra.GroupWithZero.Nat
import Embedder.Heap

namespace Embedder

/-!
# Lists of spans

What the operations on lists of spans do to the addresses that a list covers, to its total size,
and to its order.

* `Span.Covers`, `Span.Apart`, `covered`, `totalSize`: the views through which lists are seen.
* `insertSpan_perm`, `removeSpan_eq_some`, `cutFirstFit_eq_some`: what is put in and taken out.
* `covered_coalesce`, `totalSize_coalesce`, `pairwise_coalesce`: joining keeps the addresses and
  leaves a gap between any two spans.
-/

/-! ### Views -/

/-- The span has the address. -/
def Span.Covers (s : Span) (a : Nat) : Prop :=
  s.start ≤ a ∧ a < s.stop

/-- The spans have no address in common. -/
def Span.Apart (s t : Span) : Prop :=
  s.stop ≤ t.start ∨ t.stop ≤ s.start

theorem Span.Apart.symm {s t : Span} (h : s.Apart t) : t.Apart s :=
  Or.symm h

/-- Two spans that touch, as one. -/
def Span.join (s t : Span) : Span :=
  ⟨s.start, s.size + t.size⟩

namespace Heap

/-- Some span of the list has the address. -/
def covered (l : List Span) (a : Nat) : Prop :=
  ∃ s ∈ l, s.Covers a

/-- The sizes of a list's spans together. -/
def totalSize (l : List Span) : Nat :=
  (l.map Span.size).sum

@[simp] theorem covered_nil (a : Nat) : covered [] a ↔ False := by
  simp [covered]

@[simp] theorem covered_cons (s : Span) (l : List Span) (a : Nat) :
    covered (s :: l) a ↔ s.Covers a ∨ covered l a := by
  simp [covered]

@[simp] theorem covered_append (l l' : List Span) (a : Nat) :
    covered (l ++ l') a ↔ covered l a ∨ covered l' a := by
  simp [covered, or_and_right, exists_or]

@[simp] theorem totalSize_nil : totalSize [] = 0 := rfl

@[simp] theorem totalSize_cons (s : Span) (l : List Span) :
    totalSize (s :: l) = s.size + totalSize l := by
  simp [totalSize]

@[simp] theorem totalSize_append (l l' : List Span) :
    totalSize (l ++ l') = totalSize l + totalSize l' := by
  simp [totalSize]

/-- What is covered does not depend on the order of the spans. -/
theorem covered_perm {l l' : List Span} (h : l.Perm l') (a : Nat) :
    covered l a ↔ covered l' a := by
  simp only [covered, h.mem_iff]

/-- Nor does their size in all. -/
theorem totalSize_perm {l l' : List Span} (h : l.Perm l') : totalSize l = totalSize l' :=
  (h.map Span.size).sum_eq

/-- A joined span has the addresses of both parts. -/
theorem covers_join {s t : Span} (h : s.stop = t.start) (a : Nat) :
    (s.join t).Covers a ↔ s.Covers a ∨ t.Covers a := by
  simp only [Span.Covers, Span.join, Span.stop] at h ⊢
  omega

/-- Spans with addresses of their own are apart. -/
theorem apart_of_disjoint {s t : Span} (hs : 0 < s.size) (ht : 0 < t.size)
    (h : ∀ a, ¬ (s.Covers a ∧ t.Covers a)) : s.Apart t := by
  have at_s := h s.start
  have at_t := h t.start
  simp only [Span.Covers, Span.Apart, Span.stop] at at_s at_t ⊢
  omega

/-- No address is covered by two spans that are apart. -/
theorem not_covers_of_apart {s t : Span} (h : s.Apart t) {a : Nat} (hs : s.Covers a) :
    ¬ t.Covers a := by
  simp only [Span.Covers, Span.Apart] at *
  omega

/-! ### Putting in and taking out -/

/-- Inserting puts in one span and keeps the others. -/
theorem insertSpan_perm (s : Span) (l : List Span) : (insertSpan s l).Perm (s :: l) := by
  induction l with
  | nil => exact .refl _
  | cons t ts ih =>
    rw [insertSpan]
    split
    · exact .refl _
    · exact (ih.cons t).trans (.swap s t ts)

/-- Inserting a span that is apart from the others keeps the order. -/
theorem pairwise_insertSpan {s : Span} {l : List Span} (hs : 0 < s.size)
    (hl : l.Pairwise fun t u => t.stop ≤ u.start) (h : ∀ t ∈ l, s.Apart t) :
    (insertSpan s l).Pairwise fun t u => t.stop ≤ u.start := by
  induction l with
  | nil => simp [insertSpan]
  | cons t ts ih =>
    obtain ⟨ht, hts⟩ := List.pairwise_cons.1 hl
    have apart : s.Apart t := h t (by simp)
    rw [insertSpan]
    -- It comes before the first span that starts behind it.
    split
    case isTrue hlt =>
      have before : s.stop ≤ t.start := by
        simp only [Span.Apart, Span.stop] at apart ⊢
        omega
      refine List.pairwise_cons.2 ⟨fun u hu => ?_, hl⟩
      rcases List.mem_cons.1 hu with rfl | hu
      · exact before
      · have := ht u hu
        simp only [Span.stop] at before this ⊢
        omega
    case isFalse hge =>
      have after : t.stop ≤ s.start := by
        simp only [Span.Apart, Span.stop] at apart ⊢
        omega
      refine List.pairwise_cons.2 ⟨fun u hu => ?_, ih hts fun u hu => h u (by simp [hu])⟩
      rcases List.mem_cons.1 ((insertSpan_perm s ts).mem_iff.1 hu) with rfl | hu
      · exact after
      · exact ht u hu

/-- What is removed starts at the address, and the others are kept in order. -/
theorem removeSpan_eq_some {address : Nat} {l rest : List Span} {s : Span}
    (h : removeSpan address l = some (s, rest)) :
    s.start = address ∧ ∃ pre post, l = pre ++ s :: post ∧ rest = pre ++ post := by
  induction l generalizing rest with
  | nil => simp [removeSpan] at h
  | cons t ts ih =>
    rw [removeSpan] at h
    split at h
    case isTrue ht =>
      simp only [Option.some.injEq, Prod.mk.injEq] at h
      obtain ⟨rfl, rfl⟩ := h
      exact ⟨ht, [], ts, rfl, rfl⟩
    case isFalse ht =>
      obtain ⟨⟨found, tail⟩, hrec, heq⟩ := Option.map_eq_some_iff.1 h
      simp only [Prod.mk.injEq] at heq
      obtain ⟨rfl, rfl⟩ := heq
      obtain ⟨hs, pre, post, rfl, rfl⟩ := ih hrec
      exact ⟨hs, t :: pre, post, rfl, rfl⟩

/-- To remove a span leaves the others. -/
theorem removeSpan_perm {address : Nat} {l rest : List Span} {s : Span}
    (h : removeSpan address l = some (s, rest)) : l.Perm (s :: rest) := by
  obtain ⟨-, pre, post, rfl, rfl⟩ := removeSpan_eq_some h
  exact List.perm_middle

/-- Nothing is removed if and only if no span starts at the address. -/
theorem removeSpan_eq_none_iff {address : Nat} {l : List Span} :
    removeSpan address l = none ↔ ∀ s ∈ l, s.start ≠ address := by
  induction l with
  | nil => simp [removeSpan]
  | cons t ts ih =>
    rw [removeSpan]
    split <;> simp_all

/-- What is left of a span from whose front `size` addresses are cut. -/
def remainder (s : Span) (size : Nat) : List Span :=
  if size < s.size then [⟨s.start + size, s.size - size⟩] else []

/-- The first span of sufficient size is cut, and the others are kept in order. -/
theorem cutFirstFit_eq_some {size address : Nat} {l rest : List Span}
    (h : cutFirstFit size l = some (address, rest)) :
    ∃ pre s post, l = pre ++ s :: post ∧ rest = pre ++ (remainder s size ++ post) ∧
      s.start = address ∧ size ≤ s.size := by
  induction l generalizing rest with
  | nil => simp [cutFirstFit] at h
  | cons t ts ih =>
    rw [cutFirstFit] at h
    -- The first span that is large enough is cut, and those before it are too small.
    split at h
    case isTrue ht =>
      simp only [Option.some.injEq, Prod.mk.injEq] at h
      obtain ⟨rfl, rfl⟩ := h
      refine ⟨[], t, ts, rfl, ?_, rfl, ht⟩
      simp only [remainder, List.nil_append]
      split <;> rfl
    case isFalse ht =>
      obtain ⟨⟨found, tail⟩, hrec, heq⟩ := Option.map_eq_some_iff.1 h
      simp only [Prod.mk.injEq] at heq
      obtain ⟨rfl, rfl⟩ := heq
      obtain ⟨pre, s, post, rfl, rfl, hs, hsize⟩ := ih hrec
      exact ⟨t :: pre, s, post, rfl, rfl, hs, hsize⟩

/-- A span has the addresses that are cut from its front and those that are left. -/
theorem covers_iff_remainder {s : Span} {size : Nat} (h : size ≤ s.size) (a : Nat) :
    s.Covers a ↔ (⟨s.start, size⟩ : Span).Covers a ∨ covered (remainder s size) a := by
  unfold remainder
  split
  · simp only [Span.Covers, Span.stop, covered_cons, covered_nil, or_false]
    omega
  · simp only [Span.Covers, Span.stop, covered_nil, or_false]
    omega

/-- A span is what is cut off and what remains. -/
theorem totalSize_remainder {s : Span} {size : Nat} (h : size ≤ s.size) :
    size + totalSize (remainder s size) = s.size := by
  unfold remainder
  split
  · simp only [totalSize_cons, totalSize_nil]
    omega
  · simp only [totalSize_nil]
    omega

/-- What is left of a span begins after the cut and ends where the span did. -/
theorem mem_remainder {s t : Span} {size : Nat} (ht : t ∈ remainder s size) :
    size < s.size ∧ t = ⟨s.start + size, s.size - size⟩ := by
  unfold remainder at ht
  split at ht
  case isTrue h => exact ⟨h, List.mem_singleton.1 ht⟩
  case isFalse => simp at ht

section
variable {s : Span} {pre post : List Span}
  (gaps : (pre ++ s :: post).Pairwise fun t u => t.stop < u.start)
include gaps

/-- What is left of a span keeps the gaps on either side of it. -/
theorem pairwise_remainder (size : Nat) :
    (pre ++ (remainder s size ++ post)).Pairwise fun t u => t.stop < u.start := by
  obtain ⟨gaps_pre, gaps_rest, gap_pre⟩ := List.pairwise_append.1 gaps
  obtain ⟨gap_s, gaps_post⟩ := List.pairwise_cons.1 gaps_rest
  refine List.pairwise_append.2 ⟨gaps_pre, List.pairwise_append.2 ⟨?_, gaps_post, ?_⟩, ?_⟩
  · unfold remainder
    split <;> simp
  · intro t ht u hu
    obtain ⟨lt, rfl⟩ := mem_remainder ht
    have := gap_s u hu
    simp only [Span.stop] at this ⊢
    omega
  · intro t ht u hu
    rcases List.mem_append.1 hu with hu | hu
    · obtain ⟨-, rfl⟩ := mem_remainder hu
      have := gap_pre t ht s (by simp)
      exact Nat.lt_of_lt_of_le this (Nat.le_add_right _ _)
    · exact gap_pre t ht u (by simp [hu])

/-- The front that is cut from a span has no address in common with what stays. -/
theorem not_covers_front {size a : Nat} (le : size ≤ s.size)
    (ha : covered (pre ++ (remainder s size ++ post)) a) :
    ¬ (⟨s.start, size⟩ : Span).Covers a := by
  obtain ⟨-, gaps_rest, gap_pre⟩ := List.pairwise_append.1 gaps
  have gap_s := (List.pairwise_cons.1 gaps_rest).1
  rw [covered_append, covered_append] at ha
  rcases ha with ⟨t, ht, hta⟩ | ⟨t, ht, hta⟩ | ⟨t, ht, hta⟩
  · have := gap_pre t ht s (by simp)
    simp only [Span.Covers, Span.stop] at *
    omega
  · obtain ⟨-, rfl⟩ := mem_remainder ht
    simp only [Span.Covers, Span.stop] at *
    omega
  · have := gap_s t ht
    simp only [Span.Covers, Span.stop] at *
    omega

end

/-! ### Joining -/

/-- A property of all spans that joining keeps holds after one more span is joined in front. -/
theorem forall_mem_joinNext {P : Span → Prop} {s : Span} {l : List Span}
    (join : ∀ s t, P s → P t → s.stop = t.start → P (s.join t)) (hs : P s) (hl : ∀ t ∈ l, P t) :
    ∀ t ∈ joinNext s l, P t := by
  cases l with
  | nil => simpa [joinNext] using hs
  | cons t ts =>
    obtain ⟨ht, hts⟩ := List.forall_mem_cons.1 hl
    rw [joinNext]
    split
    case isTrue touch => exact List.forall_mem_cons.2 ⟨join s t hs ht touch, hts⟩
    case isFalse => exact List.forall_mem_cons.2 ⟨hs, hl⟩

/-- A property of all spans that joining keeps holds after one more span is coalesced. -/
theorem forall_mem_coalesce {P : Span → Prop} {s : Span} {l : List Span}
    (join : ∀ s t, P s → P t → s.stop = t.start → P (s.join t)) (hs : P s) (hl : ∀ t ∈ l, P t) :
    ∀ t ∈ coalesce s l, P t := by
  induction l with
  | nil => simpa [coalesce] using hs
  | cons t ts ih =>
    obtain ⟨ht, hts⟩ := List.forall_mem_cons.1 hl
    rw [coalesce]
    split
    · exact forall_mem_joinNext join hs hl
    · split
      case isTrue touch => exact forall_mem_joinNext join (join t s ht hs touch) hts
      case isFalse => exact List.forall_mem_cons.2 ⟨ht, ih hts⟩

/-- To join a span to its neighbour covers what both covered. -/
theorem covered_joinNext (s : Span) (l : List Span) (a : Nat) :
    covered (joinNext s l) a ↔ s.Covers a ∨ covered l a := by
  cases l with
  | nil => simp [joinNext]
  | cons t ts =>
    rw [joinNext]
    split
    case isTrue touch =>
      rw [covered_cons, covered_cons, ← or_assoc]
      exact or_congr_left (covers_join touch a)
    case isFalse => exact covered_cons s (t :: ts) a

/-- Coalescing adds exactly the addresses of the span. -/
theorem covered_coalesce (s : Span) (l : List Span) (a : Nat) :
    covered (coalesce s l) a ↔ s.Covers a ∨ covered l a := by
  induction l with
  | nil => simp [coalesce]
  | cons t ts ih =>
    rw [coalesce]
    split
    · exact covered_joinNext s (t :: ts) a
    · split
      case isTrue touch =>
        have both := covers_join touch a
        rw [Span.join] at both
        rw [covered_joinNext, both, covered_cons, or_assoc, or_left_comm]
      case isFalse => rw [covered_cons, covered_cons, ih, or_left_comm]

/-- To join a span to its neighbour loses nothing. -/
theorem totalSize_joinNext (s : Span) (l : List Span) :
    totalSize (joinNext s l) = s.size + totalSize l := by
  cases l with
  | nil => simp [joinNext]
  | cons t ts =>
    rw [joinNext]
    split
    · simp only [totalSize_cons]
      omega
    · rw [totalSize_cons]

/-- Coalescing adds exactly the size of the span. -/
theorem totalSize_coalesce (s : Span) (l : List Span) :
    totalSize (coalesce s l) = s.size + totalSize l := by
  induction l with
  | nil => simp [coalesce]
  | cons t ts ih =>
    rw [coalesce]
    split
    · exact totalSize_joinNext s (t :: ts)
    · split
      · rw [totalSize_joinNext, totalSize_cons]
        show t.size + s.size + totalSize ts = s.size + (t.size + totalSize ts)
        omega
      · rw [totalSize_cons, totalSize_cons, ih]
        omega

/-- A span that ends no later than any other of a list begins is joined so that gaps remain. -/
theorem pairwise_joinNext {s : Span} {l : List Span} (hl : l.Pairwise fun t u => t.stop < u.start)
    (h : ∀ t ∈ l, s.stop ≤ t.start) (hpos : ∀ t ∈ l, 0 < t.size) :
    (joinNext s l).Pairwise fun t u => t.stop < u.start := by
  cases l with
  | nil => simp [joinNext]
  | cons t ts =>
    obtain ⟨ht, hts⟩ := List.pairwise_cons.1 hl
    have before := h t (by simp)
    have pos := hpos t (by simp)
    rw [joinNext]
    -- Only the next span can be joined to it, if it begins right at its end.
    split
    case isTrue touch =>
      refine List.pairwise_cons.2 ⟨fun u hu => ?_, hts⟩
      have := ht u hu
      simp only [Span.stop] at touch this ⊢
      omega
    case isFalse apart =>
      refine List.pairwise_cons.2 ⟨fun u hu => ?_, hl⟩
      rcases List.mem_cons.1 hu with rfl | hu
      · omega
      · have := ht u hu
        simp only [Span.stop] at before apart this ⊢
        omega

/-- **No two spans touch after coalescing.** A span that is apart from all others is put among them
so that a gap remains between any two spans. -/
theorem pairwise_coalesce {s : Span} {l : List Span} (hs : 0 < s.size)
    (hl : l.Pairwise fun t u => t.stop < u.start) (hpos : ∀ t ∈ l, 0 < t.size)
    (h : ∀ t ∈ l, s.Apart t) : (coalesce s l).Pairwise fun t u => t.stop < u.start := by
  induction l with
  | nil => simp [coalesce]
  | cons t ts ih =>
    obtain ⟨ht, hts⟩ := List.pairwise_cons.1 hl
    have apart := h t (by simp)
    have pos := hpos t (by simp)
    have pos' : ∀ u ∈ ts, 0 < u.size := fun u hu => hpos u (by simp [hu])
    rw [coalesce]
    split
    case isTrue hlt =>
      refine pairwise_joinNext hl (fun u hu => ?_) hpos
      have := h u hu
      rcases List.mem_cons.1 hu with rfl | hu
      · simp only [Span.Apart, Span.stop] at this ⊢
        omega
      · have := ht u hu
        simp only [Span.Apart, Span.stop] at apart this ⊢
        omega
    case isFalse hge =>
      -- the span comes after the first one of the list, and touches it or not
      have after : t.stop ≤ s.start := by
        simp only [Span.Apart, Span.stop] at apart ⊢
        omega
      split
      case isTrue touch =>
        refine pairwise_joinNext hts (fun u hu => ?_) pos'
        have apart' := h u (by simp [hu])
        have := ht u hu
        simp only [Span.Apart, Span.stop] at apart' touch this ⊢
        omega
      case isFalse gap =>
        refine List.pairwise_cons.2 ⟨?_, ih hts pos' fun u hu => h u (by simp [hu])⟩
        refine forall_mem_coalesce (P := fun u => t.stop < u.start) ?_ ?_ ht
        · exact fun u v hu _ _ => hu
        · omega

end Heap

end Embedder
