import Mathlib.Data.List.Perm.Basic
import Embedder.Proofs.Host.Placement

namespace Embedder

/-!
# Every block has its own span

The host knows a block by its address alone, and gives it back to the heap by that address. Still,
every block of an instance, owned or in hand, has a live span of the app heap to itself, at its
address and at least as long.

* `Backs`: live spans for spans that are claimed, one for each.
* `Config.claims`: the spans of an instance's heap that something counts on.
* `Config.Backed`: the invariant, with `Change.backed`.
-/

/-! ### Live spans and those claimed -/

/-- A live span that a claimed one fits into, at the same address. -/
def Span.Fits (claim live : Span) : Prop :=
  live.start = claim.start ∧ claim.size ≤ live.size

/-- The span that is handed out for a span: its size is rounded up to a positive multiple of the
unit. -/
def Span.served (s : Span) : Span :=
  ⟨s.start, (max s.size 1 + (blockAlign - 1)) / blockAlign * blockAlign⟩

/-- Every claimed span has a live one to itself. -/
def Backs (live claims : List Span) : Prop :=
  ∃ spans, spans.Subperm live ∧ List.Forall₂ Span.Fits claims spans

namespace Backs

variable {live live' claims claims' : List Span} {s : Span}

/-- Nothing is backed by anything. -/
theorem nil (live : List Span) : Backs live [] :=
  ⟨[], List.nil_subperm, .nil⟩

/-- What is claimed may come in any order. -/
theorem perm (backs : Backs live claims) (same : claims'.Perm claims) : Backs live claims' := by
  obtain ⟨spans, sub, fits⟩ := backs
  obtain ⟨spans', fits', same'⟩ := List.perm_comp_forall₂ same fits
  exact ⟨spans', same'.subperm.trans sub, fits'⟩

/-- A claim may be given up while its span stays live. -/
theorem tail (backs : Backs live (s :: claims)) : Backs live claims := by
  obtain ⟨spans, sub, fits⟩ := backs
  obtain ⟨t, ts, -, rest, rfl⟩ := List.forall₂_cons_left_iff.1 fits
  exact ⟨ts, List.Subperm.cons_self.trans sub, rest⟩

/-- A new claim gets a new live span. -/
theorem cons {t : Span} (backs : Backs live claims) (fits : s.Fits t)
    (perm : live'.Perm (t :: live)) : Backs live' (s :: claims) := by
  obtain ⟨spans, sub, rest⟩ := backs
  exact ⟨t :: spans, ((List.subperm_cons t).2 sub).trans perm.symm.subperm, .cons fits rest⟩

/-- A claim and its span go together. The span that is found by its address is the claim's own,
because no two live spans start at one address. -/
theorem uncons {t : Span} (backs : Backs live (s :: claims)) (perm : live.Perm (t :: live'))
    (start : t.start = s.start) (distinct : (live.map Span.start).Nodup) :
    Backs live' claims := by
  obtain ⟨spans, sub, fits⟩ := backs
  obtain ⟨u, us, fit, rest, rfl⟩ := List.forall₂_cons_left_iff.1 fits
  have live_u : u ∈ live := sub.subset List.mem_cons_self
  have live_t : t ∈ live := perm.mem_iff.2 List.mem_cons_self
  have own : u = t := List.inj_on_of_nodup_map distinct live_u live_t (fit.1.trans start.symm)
  subst own
  exact ⟨us, (List.subperm_cons u).1 (sub.trans perm.subperm), rest⟩

/-- What a claim counts on is live. -/
theorem exists_live (backs : Backs live claims) (claimed : s ∈ claims) : ∃ t ∈ live, s.Fits t := by
  obtain ⟨pre, post, rfl⟩ := List.append_of_mem claimed
  obtain ⟨spans, sub, fits⟩ := backs.perm List.perm_middle.symm
  obtain ⟨t, ts, fit, -, rfl⟩ := List.forall₂_cons_left_iff.1 fits
  exact ⟨t, sub.subset List.mem_cons_self, fit⟩

/-- Two claims are apart if live spans are. -/
theorem apart {t : Span} (backs : Backs live (s :: t :: claims)) (apart : live.Pairwise Span.Apart) :
    s.Apart t := by
  obtain ⟨spans, ⟨spans', same, sub⟩, fits⟩ := backs
  obtain ⟨u, us, fit_s, rest, rfl⟩ := List.forall₂_cons_left_iff.1 fits
  obtain ⟨v, vs, fit_t, -, rfl⟩ := List.forall₂_cons_left_iff.1 rest
  have pairs := same.pairwise (apart.sublist sub) Span.Apart.symm
  have both := List.rel_of_pairwise_cons pairs List.mem_cons_self
  obtain ⟨start_s, size_s⟩ := fit_s
  obtain ⟨start_t, size_t⟩ := fit_t
  simp only [Span.Apart, Span.stop] at *
  omega

end Backs

/-- Live spans of a heap whose blocks tile its region start at different addresses. -/
theorem Heap.Tiled.nodup_starts {h : Heap} (hh : h.Tiled) : (h.live.map Span.start).Nodup := by
  refine List.pairwise_map.2 (hh.live_apart.imp_of_mem fun {s t} hs _ before same => ?_)
  have pos := (hh.live_block s hs).pos
  simp only [Span.stop] at before
  omega

/-! ### The claims on an instance -/

/-- The addresses that a block spans. -/
def Block.span (b : Block) : Span :=
  ⟨b.start, Host.blockBytes b⟩

/-- The live spans of a store's app heap. -/
def Store.live (s : Store) : List Span :=
  (s.heap.map Heap.live).getD []

/-- The live spans of an instance's app heap. -/
def Custody.live (x : Custody) : List Span :=
  (x.store?.map Store.live).getD []

variable {σ : Type}

/-- The blocks of an instance that have an owner, as spans. -/
def Host.owned (h : Host σ) (id : Nat) : List Span :=
  (h.blocks.values.filter fun b => b.inst = id).map Block.span

/-- The spans of an instance's heap that something counts on: the blocks in hand and those that have
an owner. -/
def Config.claims (c : Config σ) (id : Nat) : List Span :=
  c.pending.taken id ++ c.host.owned id

/-- Every claim on an instance's heap has a live span to itself, and there are no claims on
instances yet to come. -/
structure Config.Backed (c : Config σ) : Prop where
  backs : ∀ id x, c.custody? id = some x → Backs x.live (c.claims id)
  fresh : ∀ id, c.host.instances.next ≤ id → c.claims id = []

/-- What happens to an instance's live spans and to the blocks in hand of it. -/
inductive Turn : List Span → List Span → List Span → List Span → Prop
  /-- Nothing. -/
  | same {live taken : List Span} : Turn live taken live taken
  /-- A block comes. -/
  | alloc {live live' taken : List Span} {s : Span} (fits : s.Fits s.served)
      (perm : live'.Perm (s.served :: live)) : Turn live taken live' (s :: taken)
  /-- A block goes. -/
  | free {live live' taken : List Span} {s t : Span} (start : t.start = s.start)
      (perm : live.Perm (t :: live')) (distinct : (live.map Span.start).Nodup) :
      Turn live (s :: taken) live' taken

/-- A turn of the heap backs what it has taken, and leaves the claims of others. -/
theorem Turn.backs {live taken live' taken' others : List Span} (turn : Turn live taken live' taken')
    (backs : Backs live (taken ++ others)) : Backs live' (taken' ++ others) := by
  cases turn with
  | same => exact backs
  | alloc fits perm => exact backs.cons fits perm
  | free start perm distinct => exact backs.uncons perm start distinct

/-! ### The invariant is kept -/

variable {allowed : Effect → Prop}

/-- What is live is a matter of the heap. -/
theorem Store.live_congr {s s' : Store} (heap : s'.heap = s.heap) : s'.live = s.live := by
  rw [live, heap, live]

/-- What is live in an instance's heap is what is live in its store's. -/
theorem Turn.of_store {x y : Custody} {s s' : Store} (before : x.store? = some s)
    (after : y.store? = some s') (turn : Turn s.live x.taken s'.live y.taken) :
    Turn x.live x.taken y.live y.taken := by
  rw [Custody.live, Custody.live, before, after]
  exact turn

/-- Only the heap's own operations change what is live. -/
theorem Evolves.turn {id paid : Nat} {x y : Custody} (step : Evolves allowed id x paid y)
    (sound : x.Sound) (hx : x.Placed) : Turn x.live x.taken y.live y.taken := by
  -- Wherever the store is, what is live is what its heap has, so all but the heap's operations
  -- turn nothing.
  cases step with
  | edit idle guest heap =>
    have free := sound.free idle
    refine .of_store (Custody.store?_idle free idle) (Custody.store?_idle free rfl) ?_
    rw [Store.live_congr heap]
    exact .same
  | latch idle =>
    have free := sound.free idle
    exact .of_store (Custody.store?_idle free idle) (Custody.store?_idle free rfl) .same
  | @alloc s heap heap' size address idle present fits =>
    have free := sound.free idle
    refine .of_store (Custody.store?_idle free idle) (Custody.store?_idle free rfl) ?_
    obtain ⟨n, hn, pre, t, post, -, -, -, rfl⟩ := Heap.alloc?_eq_some fits
    obtain ⟨-, -, enough⟩ := Heap.blockSizeFor?_eq_some hn
    have served : Span.served ⟨address, size⟩ = ⟨address, n⟩ :=
      congrArg (Span.mk address) (Heap.blockSizeFor?_eq hn).symm
    rw [Store.live, present]
    refine .alloc (served ▸ ⟨rfl, enough⟩) ?_
    rw [served]
    exact Heap.insertSpan_perm ⟨address, n⟩ heap.live
  | @free s heap heap' block rest size idle present taken found =>
    have free := sound.free idle
    refine .of_store (Custody.store?_idle free idle) (Custody.store?_idle free rfl) ?_
    obtain ⟨memory, m, -, -, inside⟩ := hx.placed s (Custody.store?_idle free idle) heap present
    have distinct := inside.tiled.nodup_starts
    obtain ⟨t, pre, post, live, start, -, rfl⟩ := Heap.free?_eq_some found
    have perm : heap.live.Perm (t :: (pre ++ post)) := live ▸ List.perm_middle
    rw [Store.live, present, taken]
    exact .free start perm distinct
  | enter idle free =>
    exact .of_store (Custody.store?_idle free idle) (Custody.store?_held rfl) .same
  | leave held => exact .of_store (Custody.store?_held held) (Custody.store?_idle rfl rfl) .same
  | run held guest heap =>
    refine .of_store (Custody.store?_held held) (Custody.store?_held rfl) ?_
    rw [Store.live_congr heap]
    exact .same
  | grow held => exact .of_store (Custody.store?_held held) (Custody.store?_held rfl) .same
  | manage held empty =>
    refine .of_store (Custody.store?_held held) (Custody.store?_held rfl) ?_
    rw [Store.live, empty]
    exact .same
  | complete held => exact .of_store (Custody.store?_held held) (Custody.store?_idle rfl rfl) .same

/-- A new block is owned by its instance. -/
theorem Host.owned_insert (h : Host σ) (b : Block) (id : Nat) :
    ({ h with blocks := (h.blocks.insert b).1 } : Host σ).owned id =
      if b.inst = id then b.span :: h.owned id else h.owned id := by
  simp only [owned, Pool.values_insert, List.filter_cons, decide_eq_true_eq]
  split <;> rfl

/-- A block that goes is owned no more. -/
theorem Host.owned_erase {h : Host σ} {j : Nat} {b : Block} (present : h.blocks.get? j = some b)
    (id : Nat) : (h.owned id).Perm
      (if b.inst = id then b.span :: ({ h with blocks := h.blocks.erase j } : Host σ).owned id
      else ({ h with blocks := h.blocks.erase j } : Host σ).owned id) := by
  have perm := ((Pool.values_erase present).filter fun b => b.inst = id).map Block.span
  rw [List.filter_cons] at perm
  simp only [decide_eq_true_eq] at perm
  split at perm <;> simp only [owned, *] <;> exact perm

/-- A block that passes between an operation and an owner is claimed all the while. -/
theorem claims_take {taken : Nat → List Span} {id j : Nat} {s : Span} {owned : List Span} :
    (Function.update taken j (s :: taken j) id ++ owned).Perm
      (taken id ++ if j = id then s :: owned else owned) := by
  by_cases e : j = id
  · subst e
    rw [Function.update_self, if_pos rfl]
    exact List.perm_middle.symm
  · rw [Function.update_of_ne (Ne.symm e), if_neg e]

variable [Holder σ] [Rule σ] {a b : Config σ}

/-- How an instance that is there after a change comes by its live spans and the claims on them. -/
inductive Tenure (allowed : Effect → Prop) (a b : Config σ) (id : Nat) (y : Custody) : Prop
  /-- It has them from before; a block may have passed between an operation and an owner. -/
  | still {x : Custody} (before : a.custody? id = some x) (live : y.live = x.live)
      (same : (b.claims id).Perm (a.claims id))
  /-- A claim is given up, because its span cannot be given back. -/
  | lost {x : Custody} {s : Span} (before : a.custody? id = some x) (live : y.live = x.live)
      (claims : a.claims id = s :: b.claims id)
      (stays : s.start = 0 ∨ a.host.freeBlock id s.start = a.host)
  /-- Something happens to the instance. -/
  | evolve {x : Custody} {paid : Nat} (before : a.custody? id = some x)
      (step : Evolves allowed id x paid y) (owned : b.host.owned id = a.host.owned id)
  /-- The instance is new. -/
  | made (fresh : a.host.instances.next ≤ id) (same : b.claims id = a.claims id)

/-- For every change it is known how live spans and claims have come about. -/
theorem Change.tenure (step : Change allowed a b) {id : Nat} {y : Custody}
    (after : b.custody? id = some y) : Tenure allowed a b id y := by
  -- The claims on an instance are what is owned and what is in hand, and a block passes between
  -- both.
  cases step with
  | @blockMade h g b =>
    obtain ⟨c, there, rfl⟩ := Option.map_eq_some_iff.1 after
    refine .still (Config.custody?_of_get? there) rfl ?_
    rw [Config.claims, Host.owned_insert]
    exact claims_take.symm
  | @blockGone h g j b present =>
    obtain ⟨c, there, rfl⟩ := Option.map_eq_some_iff.1 after
    refine .still (Config.custody?_of_get? there) rfl (claims_take.trans ?_)
    exact ((Host.owned_erase present id).append_left (g.taken id)).symm
  | @blockLost h g j s stays =>
    obtain ⟨c, there, rfl⟩ := Option.map_eq_some_iff.1 after
    by_cases e : id = j
    · subst e
      exact .lost (s := s) (Config.custody?_of_get? there) rfl (by simp [Config.claims]) stays
    · exact .still (Config.custody?_of_get? there) rfl (.of_eq (by simp [Config.claims, e]))
  | @instanceMade h g i m r imported =>
    by_cases e : id = h.instances.next
    · exact .made (Nat.le_of_eq e.symm) rfl
    · refine .still ?_ rfl (.refl _)
      simpa [Config.custody?, Pool.get?_insert, e, Pending.lend] using after
  | @instanceHeld h g j n c pins present =>
    refine .still ?_ rfl (.refl _)
    by_cases e : id = j
    · subst e
      simpa [Config.custody?, Pool.get?_modify, present] using after
    · simpa [Config.custody?, Pool.get?_modify, e] using after
  | @instanceGone h g j c present =>
    by_cases e : id = j
    · subst e
      simp [Config.custody?, Pool.get?_erase] at after
    · refine .still ?_ rfl (.refl _)
      simpa [Config.custody?, Pool.get?_erase, e] using after
  | @instanceFailed h g j c loan present =>
    by_cases e : id = j
    · subst e
      simp [Config.custody?, Pool.get?_erase] at after
    · refine .still ?_ rfl (.refl _)
      simpa [Config.custody?, Pool.get?_erase, Pending.hold, Pending.owe, e] using after
  | @evolve h g j paid c z pins present step =>
    by_cases e : id = j
    · subst e
      simp only [Config.custody?, Host.modifyInstance, Pool.get?_modify, present, if_true,
        Option.map_some, Function.update_self, Option.some.injEq] at after
      subst after
      exact .evolve (Config.custody?_of_get? present) step rfl
    · refine .still ?_ rfl (.of_eq ?_)
      · simpa [Config.custody?, Host.modifyInstance, Pool.get?_modify, e] using after
      · exact congrArg (· ++ h.owned id) (Function.update_of_ne e _ _)
  | @inHand h g j c loan loan' present held step =>
    by_cases e : id = j
    · subst e
      simp only [Config.custody?, present, Option.map_some, Pending.lend, Function.update_self,
        Option.some.injEq] at after
      subst after
      exact .evolve ((Config.custody?_of_get? present).trans (held ▸ rfl)) step rfl
    · refine .still ?_ rfl (.refl _)
      simpa [Config.custody?, Pending.lend, e] using after
  | _ => exact .still after rfl (.refl _)

/-- Nothing is claimed of instances yet to come. -/
theorem Change.unclaimed (step : Change allowed a b)
    (ha : ∀ id, a.host.instances.next ≤ id → a.claims id = []) (id : Nat)
    (fresh : b.host.instances.next ≤ id) : b.claims id = [] := by
  have before := ha id (Nat.le_trans step.since.instances.next fresh)
  -- Only a block that has an owner, or is in hand, claims something, and both need an instance
  -- that is there.
  cases step with
  | @blockMade h g b =>
    refine List.Perm.eq_nil (before ▸ ?_)
    rw [Config.claims, Host.owned_insert]
    exact claims_take.symm
  | @blockGone h g j b present =>
    refine List.Perm.eq_nil (before ▸ claims_take.trans ?_)
    exact ((Host.owned_erase present id).append_left (g.taken id)).symm
  | @blockLost h g j s =>
    have same : id ≠ j := by
      rintro rfl
      simp [Config.claims] at before
    simpa [Config.claims, same] using before
  | @evolve h g j paid c z pins present step =>
    have old : j < h.instances.next := Pool.lt_next_of_get?_eq_some present
    have same : id ≠ j := by
      rintro rfl
      exact absurd (Nat.lt_of_lt_of_le old (by simpa [Host.modifyInstance] using fresh))
        (Nat.lt_irrefl _)
    exact (congrArg (· ++ h.owned id) (Function.update_of_ne same _ _)).trans before
  | _ => exact before

/-- **Blocks are backed.** Every claim on an instance's heap keeps a live span to itself. -/
theorem Change.backed (step : Change allowed a b) (sound : a.Sound)
    (placed : ∀ id x, a.custody? id = some x → x.Placed) (ha : a.Backed) : b.Backed where
  backs := by
    intro id y after
    -- It is enough to go through the ways in which claims come about.
    cases step.tenure after with
    | still before live same =>
      rw [live]
      exact (ha.backs id _ before).perm same
    | lost before live claims =>
      have backs := ha.backs id _ before
      rw [claims] at backs
      rw [live]
      exact backs.tail
    | evolve before step owned =>
      have backs := ha.backs id _ before
      have turn := step.turn (sound.custody id _ before) (placed id _ before)
      obtain ⟨c, -, rfl⟩ := Option.map_eq_some_iff.1 before
      obtain ⟨d, -, rfl⟩ := Option.map_eq_some_iff.1 after
      rw [Config.claims, owned]
      exact turn.backs backs
    | made fresh same =>
      rw [same, ha.fresh id fresh]
      exact .nil _
  fresh := step.unclaimed ha.fresh

/-- Every block that has an owner has a type that the app heap can align. -/
theorem Change.aligned (step : Change allowed a b)
    (ha : a.host.blocks.All fun b => b.type.isAligned) :
    b.host.blocks.All fun b => b.type.isAligned := by
  cases step with
  | blockMade aligned => exact ha.insert aligned
  | blockGone => exact ha.erase _
  | _ => exact ha

end Embedder
