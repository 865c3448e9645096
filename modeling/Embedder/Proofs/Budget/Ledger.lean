import Embedder.Budget.Ledger
import Embedder.Proofs.Table
import Mathlib.Logic.Function.Basic

namespace Embedder

/-!
# The books of a ledger

Without raw releases and without leases that are made to adopt other amounts, a budget is charged for
what was reserved outright, what leases hold or have given up, and what limiters hold. So nothing that
is returned was not charged before, and no sum exceeds the capacity.

* `Ledger.History`, `Ledger.run`: what requests were granted, and the ledger after them.
* `Step.Orderly`: the requests that are in order.
* `Ledger.Books`, `Ledger.Books.step`: what a ledger is charged for, and that each request keeps it so.
* `Ledger.Balanced`, `Ledger.balanced_run`: what holds of every ledger that is reached.
-/

/-! ### Budgets -/

namespace Budget

variable {b b' : Budget} {bytes : Nat}

theorem reserve?_some_iff : b.reserve? bytes = some b' ↔
    b.inUse + bytes ≤ b.capacity ∧
      b' = { b with inUse := b.inUse + bytes, peak := max b.peak (b.inUse + bytes) } := by
  unfold reserve?
  split
  case isTrue fits => simp [fits, eq_comm]
  case isFalse exceeds => simp [exceeds]

/-- Bytes are refused if they exceed what is left. -/
theorem reserve?_none_iff (within : b.inUse ≤ b.capacity) :
    b.reserve? bytes = none ↔ b.available < bytes := by
  unfold reserve? available
  split
  case isTrue fits => simp only [reduceCtorEq, false_iff]; omega
  case isFalse exceeds => simp only [true_iff]; omega

/-- What is left of a budget after a handle was dropped, if there was one. -/
theorem releaseDeleted_bind (b : Budget) (old : Option Handle) :
    b.releaseDeleted (old.bind Handle.deleted) =
      { b with inUse := b.inUse - (old.map Handle.value).getD 0 } := by
  cases old with
  | none => rfl
  | some h =>
    by_cases null : h.value = 0
    · simp [Handle.deleted, Handle.isNull, null, releaseDeleted]
    · simp [Handle.deleted, Handle.isNull, null, releaseDeleted, release]

end Budget

namespace Ledger

/-! ### What was granted -/

/-- What a ledger has granted: the bytes that were reserved outright, the bytes that leases gave up,
and by how much each limiter has let memories grow since it was made. -/
structure History where
  reserved : Nat
  givenUp : Nat
  grown : String → Nat

/-- Nothing was granted. -/
def History.empty : History :=
  ⟨0, 0, fun _ => 0⟩

/-- The history with one more request and its answer. -/
def History.record (h : History) : Step → Answer → History
  | .reserve bytes, .flag true => { h with reserved := h.reserved + bytes }
  | .leaseRelease _, .amount bytes => { h with givenUp := h.givenUp + bytes }
  | .limiter name, _ => { h with grown := Function.update h.grown name 0 }
  | .grow name current desired _, .growth true _ =>
    { h with grown := Function.update h.grown name (h.grown name + (desired - current)) }
  | _, _ => h

/-- The history and the ledger after one more request. -/
def serve (x : History × Ledger) (s : Step) : History × Ledger :=
  (x.1.record s (x.2.step s).1, (x.2.step s).2)

/-- The history and the ledger after some requests. -/
def run (l : Ledger) (steps : List Step) : History × Ledger :=
  steps.foldl serve (.empty, l)

/-- Whether a request is in order: no raw release, and no lease that is made to adopt another
amount. -/
def Step.Orderly : Step → Prop
  | .release _ | .leaseReset _ _ => False
  | _ => True

instance (s : Step) : Decidable s.Orderly := by
  cases s <;> unfold Step.Orderly <;> infer_instance

/-! ### What a ledger is charged for -/

/-- A ledger is charged for what was reserved outright, for what its leases hold or have given up, and
for what its limiters hold, which is what they have let memories grow. -/
structure Books (capacity : Nat) (h : History) (l : Ledger) : Prop where
  capacity : l.budget.capacity = capacity
  inUse : l.budget.inUse = h.reserved + l.leases.total Handle.value + h.givenUp +
    l.limiters.total (·.charged.value)
  within : l.budget.inUse ≤ l.budget.capacity
  charged : ∀ name limiter, l.limiters.get? name = some limiter →
    limiter.charged.value = h.grown name

variable {capacity : Nat} {h : History} {l : Ledger}

theorem books_ofCapacity (made : ofCapacity capacity = .ok l) : Books capacity .empty l := by
  unfold ofCapacity Budget.ofCapacity at made
  split at made
  case isTrue => cases made
  case isFalse =>
    cases made
    exact ⟨rfl, rfl, Nat.zero_le _, fun _ _ found => by cases found⟩

/-- Another limiter under a name holds what it has let memories grow, if that is what is recorded. -/
theorem Books.charged_set (books : Books capacity h l) (name : String) {limiter : Limiter}
    {bytes : Nat} (holds : limiter.charged.value = bytes) :
    ∀ other limiter', (l.limiters.set name limiter).get? other = some limiter' →
      limiter'.charged.value = Function.update h.grown name bytes other := by
  intro other limiter' found
  rw [Table.get?_set] at found
  by_cases same : other = name
  · rw [if_pos same] at found
    cases found
    rw [same, Function.update_self, holds]
  · rw [if_neg same] at found
    rw [Function.update_of_ne same]
    exact books.charged other limiter' found

/-- A growth that is allowed is charged to the limiter as it is to the budget. -/
theorem Books.grow (books : Books capacity h l) (name : String) (current desired : Nat)
    (maximum : Option Nat) :
    Books capacity (h.record (.grow name current desired maximum)
        (l.step (.grow name current desired maximum)).1)
      (l.step (.grow name current desired maximum)).2 := by
  have inUse := books.inUse
  cases found : l.limiters.get? name with
  | none =>
    simp only [Ledger.step, found]
    exact books
  | some limiter =>
    simp only [Ledger.step, found, Limiter.growMemory?_eq]
    by_cases past : maximum.any (· < desired)
    · simp only [past, if_true]
      exact books
    cases reserved : l.budget.reserve? (desired - current) with
    | none =>
      simp only [past, if_false, Bool.false_eq_true, Option.map_none]
      exact books
    | some budget =>
      obtain ⟨fits, rfl⟩ := Budget.reserve?_some_iff.1 reserved
      simp only [past, if_false, Bool.false_eq_true, Option.map_some, History.record]
      -- The limiter comes to hold as much more as the budget is charged.
      have put : (l.limiters.set name ⟨⟨limiter.charged.value + (desired - current)⟩⟩).total
          (·.charged.value) + limiter.charged.value = l.limiters.total (·.charged.value) +
            (limiter.charged.value + (desired - current)) := by
        simpa [found] using l.limiters.total_set name
          ⟨⟨limiter.charged.value + (desired - current)⟩⟩ (·.charged.value)
      refine ⟨books.capacity, ?_, fits, books.charged_set name ?_⟩
      · dsimp only
        omega
      · rw [books.charged name limiter found]

/-- Every request that is in order keeps the books. -/
theorem Books.step (books : Books capacity h l) {s : Step} (orderly : s.Orderly) :
    Books capacity (h.record s (l.step s).1) (l.step s).2 := by
  have inUse := books.inUse
  have within := books.within
  cases s with
  | release bytes => exact orderly.elim
  | leaseReset name bytes => exact orderly.elim
  | reserve bytes =>
    cases reserved : l.budget.reserve? bytes with
    | none =>
      simp only [Ledger.step, reserved]
      exact books
    | some budget =>
      obtain ⟨fits, rfl⟩ := Budget.reserve?_some_iff.1 reserved
      simp only [Ledger.step, reserved, History.record]
      refine ⟨books.capacity, ?_, fits, books.charged⟩
      dsimp only
      omega
  | lease name bytes resource =>
    cases reserved : l.budget.reserve? bytes with
    | none =>
      simp only [Ledger.step, Budget.lease, reserved]
      exact books
    | some budget =>
      obtain ⟨fits, rfl⟩ := Budget.reserve?_some_iff.1 reserved
      simp only [Ledger.step, Budget.lease, reserved, giveBack, Budget.releaseDeleted_bind,
        History.record]
      -- The new lease is charged before the old one is returned, so nothing is returned in vain.
      have put : (l.leases.set name ⟨bytes⟩).total Handle.value +
          ((l.leases.get? name).map Handle.value).getD 0 = l.leases.total Handle.value + bytes :=
        l.leases.total_set name ⟨bytes⟩ Handle.value
      refine ⟨books.capacity, ?_, Nat.le_trans (Nat.sub_le _ _) fits, books.charged⟩
      dsimp only
      omega
  | leaseRelease name =>
    cases found : l.leases.get? name with
    | none =>
      simp only [Ledger.step, found]
      exact books
    | some lease =>
      simp only [Ledger.step, found, Handle.release, History.record]
      have put : (l.leases.set name .null).total Handle.value + lease.value =
          l.leases.total Handle.value := by
        simpa [found, Handle.null] using l.leases.total_set name .null Handle.value
      refine ⟨books.capacity, ?_, within, books.charged⟩
      dsimp only
      omega
  | leaseGet name =>
    simp only [Ledger.step]
    split <;> exact books
  | leaseDrop name =>
    simp only [Ledger.step, giveBack, Budget.releaseDeleted_bind, History.record]
    -- What is returned was held by the lease, so it was charged.
    have taken := l.leases.total_erase name Handle.value
    refine ⟨books.capacity, ?_, Nat.le_trans (Nat.sub_le _ _) within, books.charged⟩
    dsimp only
    omega
  | limiter name =>
    simp only [Ledger.step, giveBack, Budget.releaseDeleted_bind, History.record]
    have put : (l.limiters.set name .empty).total (·.charged.value) +
        ((l.limiters.get? name).map (·.charged.value)).getD 0 =
          l.limiters.total (·.charged.value) :=
      l.limiters.total_set name .empty (·.charged.value)
    refine ⟨books.capacity, ?_, Nat.le_trans (Nat.sub_le _ _) within,
      books.charged_set name rfl⟩
    simp only [Option.map_map, Function.comp_def]
    omega
  | grow name current desired maximum => exact books.grow name current desired maximum
  | table name current desired maximum =>
    simp only [Ledger.step]
    split <;> exact books
  | limiterDrop name =>
    simp only [Ledger.step, giveBack, Budget.releaseDeleted_bind, History.record]
    have taken := l.limiters.total_erase name (·.charged.value)
    refine ⟨books.capacity, ?_, Nat.le_trans (Nat.sub_le _ _) within, fun other limiter found => ?_⟩
    · simp only [Option.map_map, Function.comp_def]
      omega
    · rw [Table.get?_erase] at found
      split at found
      · cases found
      · exact books.charged other limiter found

theorem Books.foldl (books : Books capacity h l) {steps : List Step}
    (orderly : ∀ s ∈ steps, s.Orderly) :
    Books capacity (steps.foldl serve (h, l)).1 (steps.foldl serve (h, l)).2 := by
  induction steps generalizing h l with
  | nil => exact books
  | cons s steps ih =>
    exact ih (books.step (orderly s List.mem_cons_self))
      fun s mem => orderly s (List.mem_cons_of_mem _ mem)

/-! ### What holds of every ledger that is reached -/

/-- Whether an answer says that a request was refused. -/
def Answer.Refuses : Answer → Prop
  | .flag allowed | .growth allowed _ => allowed = false
  | .failed _ => True
  | _ => False

/-- A refused request changes nothing. -/
theorem step_of_refuses {s : Step} (refuses : (l.step s).1.Refuses) : (l.step s).2 = l := by
  cases s with
  -- Only steps that ask for something can be refused; each of them looks before it changes
  -- anything.
  | release bytes | limiter name => exact refuses.elim
  | reserve bytes =>
    simp only [Ledger.step] at refuses ⊢
    split at refuses <;> simp_all [Answer.Refuses]
  | lease name bytes resource =>
    simp only [Ledger.step] at refuses ⊢
    split at refuses
    case h_1 => simp_all
    case h_2 => exact refuses.elim
  | leaseReset name bytes | leaseRelease name | leaseGet name =>
    simp only [Ledger.step] at refuses ⊢
    split at refuses
    case h_1 => simp_all
    case h_2 => exact refuses.elim
  | leaseDrop name =>
    have absent : l.leases.get? name = none := by simpa [Ledger.step, Answer.Refuses] using refuses
    simp only [Ledger.step, absent, Table.erase_eq_self _ absent]
    rfl
  | grow name current desired maximum =>
    simp only [Ledger.step] at refuses ⊢
    split at refuses
    case h_1 => simp_all
    case h_2 found =>
      split at refuses <;> simp_all [Answer.Refuses]
  | table name current desired maximum =>
    simp only [Ledger.step]
    split <;> rfl
  | limiterDrop name =>
    have absent : l.limiters.get? name = none := by simpa [Ledger.step, Answer.Refuses] using refuses
    simp only [Ledger.step, absent, Table.erase_eq_self _ absent]
    rfl

/-- What holds of a ledger after requests that were in order. -/
structure Balanced (capacity : Nat) (h : History) (l : Ledger) : Prop where
  /-- What is charged is what was reserved outright, what leases hold and have given up, and what
  limiters hold. -/
  inUse : l.budget.inUse = h.reserved + l.leases.total Handle.value + h.givenUp +
    l.limiters.total (·.charged.value)
  /-- A limiter holds the sum of the growths that it has allowed. -/
  charged : ∀ name limiter, l.limiters.get? name = some limiter →
    limiter.charged.value = h.grown name
  /-- A reservation is refused if it exceeds what is left. -/
  reserve : ∀ bytes, (l.step (.reserve bytes)).1.Refuses ↔ l.budget.available < bytes
  /-- A lease is refused if it exceeds what is left. -/
  lease : ∀ name bytes resource,
    (l.step (.lease name bytes resource)).1.Refuses ↔ l.budget.available < bytes
  /-- A growth is refused if it exceeds the maximum of the memory or what is left. -/
  growth : ∀ name limiter current desired maximum, l.limiters.get? name = some limiter →
    ((l.step (.grow name current desired maximum)).1.Refuses ↔
      (∃ most, maximum = some most ∧ most < desired) ∨ l.budget.available < desired - current)
  /-- Whatever is refused changes nothing. -/
  refused : ∀ s, (l.step s).1.Refuses → (l.step s).2 = l
  /-- A lease that is dropped returns what it held. -/
  leaseDropped : ∀ name lease, l.leases.get? name = some lease →
    (l.step (.leaseDrop name)).2.budget.inUse + lease.value = l.budget.inUse
  /-- A limiter that is dropped returns what it held. -/
  limiterDropped : ∀ name limiter, l.limiters.get? name = some limiter →
    (l.step (.limiterDrop name)).2.budget.inUse + limiter.charged.value = l.budget.inUse
  /-- Where a growth can be charged, the sum that the limiter holds after it is within the capacity,
  and so in a word if the capacity is. -/
  fits : ∀ name limiter growth, l.limiters.get? name = some limiter →
    (l.budget.reserve? growth).isSome → limiter.charged.value + growth ≤ capacity ∧
      (capacity < UInt64.size → limiter.charged.value + growth < UInt64.size)

theorem Books.balanced (books : Books capacity h l) : Balanced capacity h l where
  inUse := books.inUse
  charged := books.charged
  reserve bytes := by
    rw [← Budget.reserve?_none_iff books.within]
    simp only [Ledger.step]
    split <;> simp_all [Answer.Refuses]
  lease name bytes resource := by
    rw [← Budget.reserve?_none_iff books.within]
    simp only [Ledger.step, Budget.lease]
    cases l.budget.reserve? bytes <;> simp [Answer.Refuses]
  growth name limiter current desired maximum found := by
    have past : (∃ most, maximum = some most ∧ most < desired) ↔ maximum.any (· < desired) := by
      cases maximum <;> simp
    rw [← Budget.reserve?_none_iff books.within, past]
    simp only [Ledger.step, found, Limiter.growMemory?_eq]
    by_cases exceeds : maximum.any (· < desired)
    · simp [exceeds, Answer.Refuses]
    · cases l.budget.reserve? (desired - current) <;> simp [exceeds, Answer.Refuses]
  refused _ := step_of_refuses
  leaseDropped name lease found := by
    have inUse := books.inUse
    -- What leaves the table is what leaves the sum of charges.
    have taken := l.leases.total_erase name Handle.value
    rw [found, Option.map_some, Option.getD_some] at taken
    simp only [Ledger.step, giveBack, Budget.releaseDeleted_bind, found, Option.map_some,
      Option.getD_some]
    omega
  limiterDropped name limiter found := by
    have inUse := books.inUse
    have taken := l.limiters.total_erase name (·.charged.value)
    rw [found, Option.map_some, Option.getD_some] at taken
    simp only [Ledger.step, giveBack, Budget.releaseDeleted_bind, found, Option.map_some,
      Option.getD_some]
    omega
  fits name limiter growth found affords := by
    have inUse := books.inUse
    have capacity_eq := books.capacity
    obtain ⟨budget, reserved⟩ := Option.isSome_iff_exists.1 affords
    have fits := (Budget.reserve?_some_iff.1 reserved).1
    have taken := l.limiters.total_erase name (·.charged.value)
    rw [found, Option.map_some, Option.getD_some] at taken
    omega

/-- **The books balance.** Whatever is asked of a new ledger, raw releases and leases that adopt other
amounts apart, its budget is charged for what was reserved outright, what leases hold and have given
up, and what limiters hold, each the sum of the growths that it has allowed. What is refused, for want
of bytes or past a maximum, changes nothing; a lease or limiter that is dropped returns exactly what it
held; and no limiter comes to hold more than the capacity. -/
theorem balanced_run (made : ofCapacity capacity = .ok l) (steps : List Step)
    (orderly : ∀ s ∈ steps, s.Orderly) : Balanced capacity (l.run steps).1 (l.run steps).2 :=
  ((books_ofCapacity made).foldl orderly).balanced

/-- Requests of every kind that is in order, some of them refused. -/
def mixed : List Step :=
  [.reserve 10, .lease "stack" 20 .environment, .limiter "memory", .grow "memory" 0 30 (some 64),
    .grow "memory" 30 65 (some 64), .leaseRelease "stack", .lease "stack" 5 .environment,
    .lease "code" 36 .module, .grow "memory" 30 60 none, .table "memory" 0 8 none,
    .leaseDrop "stack", .limiterDrop "memory"]

theorem balanced_mixed : ofCapacity 100 = .ok ⟨⟨100, 0, 0⟩, Table.empty, Table.empty⟩ ∧
    (∀ s ∈ mixed, s.Orderly) ∧
    Balanced 100 (run ⟨⟨100, 0, 0⟩, Table.empty, Table.empty⟩ mixed).1
      (run ⟨⟨100, 0, 0⟩, Table.empty, Table.empty⟩ mixed).2 :=
  ⟨rfl, by decide, balanced_run rfl mixed (by decide)⟩

example : ((run ⟨⟨100, 0, 0⟩, Table.empty, Table.empty⟩ mixed).2.budget) = ⟨100, 30, 95⟩ := by
  decide +kernel

end Ledger

end Embedder
