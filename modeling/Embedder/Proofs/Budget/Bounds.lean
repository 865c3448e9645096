import Embedder.Proofs.Budget.Ledger
import Mathlib.Order.Bounds.Basic

namespace Embedder

/-!
# The bounds of a budget

Raw releases and leases that adopt amounts nobody reserved spoil the books of a ledger. What still
holds is what the arithmetic of a budget enforces on its own: every request comes down to
reservations, which are checked, and releases, which stop at zero.

* `Budget.Move`, `Budget.apply`, `Budget.pass`: a reservation or a release, and the budgets that a
  sequence of them leads through.
* `Budget.Watched`, `Budget.Watched.apply`: the bounds of a budget, and that each move keeps them.
* `Ledger.moves`, `Ledger.step_budget`: the moves that a request comes down to.
* `Budget.Words`: a budget in machine words, whose sums are checked for a carry.
* `Ledger.Bounded`, `Ledger.bounded_run`: what holds of every ledger that is reached.
-/

-- Powers are those of the core library, whatever else is imported.
attribute [local instance (1100)] instPowNat

/-! ### Moves -/

namespace Budget

/-- What happens to a budget. -/
inductive Move where
  /-- Bytes are charged, if they fit. -/
  | reserve (bytes : Nat)
  /-- Bytes are returned. -/
  | release (bytes : Nat)
  deriving Repr

/-- The budget after a move. -/
def apply (b : Budget) : Move → Budget
  | .reserve bytes => (b.reserve? bytes).getD b
  | .release bytes => b.release bytes

/-- One more move of a budget, with the budgets before it, the latest first. -/
def pass (x : Budget × List Budget) (m : Move) : Budget × List Budget :=
  (x.1.apply m, x.1 :: x.2)

/-- To note down the budgets that were passed is nothing to the budget. -/
theorem foldl_pass_fst (moves : List Move) (x : Budget × List Budget) :
    (moves.foldl pass x).1 = moves.foldl apply x.1 := by
  induction moves generalizing x with
  | nil => rfl
  | cons m moves ih => exact ih (pass x m)

/-- A reservation that is not granted is no move at all. -/
theorem apply_reserve (b : Budget) (bytes : Nat) : b.apply (.reserve bytes) =
    if b.inUse + bytes ≤ b.capacity then
      { b with inUse := b.inUse + bytes, peak := max b.peak (b.inUse + bytes) }
    else b := by
  simp only [apply, reserve?]
  split <;> rfl

/-- The moves that return what a handle hands to its deleter, if it hands it anything. -/
def returning (old : Option Nat) : List Move :=
  old.toList.map .release

@[simp] theorem foldl_returning (b : Budget) (old : Option Nat) :
    (returning old).foldl apply b = b.releaseDeleted old := by
  cases old <;> rfl

/-! ### The bounds that each move keeps -/

/-- The bounds of a budget that others came before: its charge is at most its peak, its peak at most
its capacity, and the peak is the greatest charge there was. -/
structure Watched (capacity : Nat) (b : Budget) (earlier : List Budget) : Prop where
  capacity_eq : b.capacity = capacity
  inUse_le : b.inUse ≤ b.peak
  peak_le : b.peak ≤ capacity
  peak : IsGreatest {bytes | ∃ b' ∈ b :: earlier, b'.inUse = bytes} b.peak
  earlier : ∀ b' ∈ earlier, b'.capacity = capacity ∧ b'.inUse ≤ b'.peak ∧ b'.peak ≤ capacity

variable {capacity : Nat} {b : Budget} {earlier : List Budget}

/-- A new budget is watched from its start. -/
theorem watched_ofCapacity (made : ofCapacity capacity = .ok b) : Watched capacity b [] := by
  unfold ofCapacity at made
  split at made
  case isTrue => cases made
  case isFalse =>
    cases made
    refine ⟨rfl, Nat.le_refl _, Nat.zero_le _, ⟨⟨_, List.mem_cons_self, rfl⟩, ?_⟩,
      fun _ mem => by cases mem⟩
    rintro bytes ⟨passed, mem, rfl⟩
    rw [List.mem_singleton.1 mem]

/-- A budget whose peak takes its new charge into account is as bounded as the one before. -/
theorem Watched.next (watched : Watched capacity b earlier) {b' : Budget}
    (capacity_eq : b'.capacity = b.capacity) (fits : b'.inUse ≤ capacity)
    (peak_eq : b'.peak = max b.peak b'.inUse) : Watched capacity b' (b :: earlier) := by
  obtain ⟨⟨highest, mem, reached⟩, most⟩ := watched.peak
  refine ⟨capacity_eq.trans watched.capacity_eq, ?_, ?_, ⟨?_, ?_⟩, ?_⟩
  · exact peak_eq ▸ Nat.le_max_right _ _
  · exact peak_eq ▸ Nat.max_le.2 ⟨watched.peak_le, fits⟩
  · -- The peak is either the new charge or the one that was the greatest before.
    rcases Nat.le_total b.peak b'.inUse with exceeds | below
    · exact ⟨b', List.mem_cons_self, (peak_eq.trans (Nat.max_eq_right exceeds)).symm⟩
    · exact ⟨highest, List.mem_cons_of_mem _ mem,
        reached.trans (peak_eq.trans (Nat.max_eq_left below)).symm⟩
  · rintro bytes ⟨passed, mem, rfl⟩
    rw [peak_eq]
    rcases List.mem_cons.1 mem with rfl | before
    · exact Nat.le_max_right _ _
    · exact (most ⟨passed, before, rfl⟩).trans (Nat.le_max_left _ _)
  · intro passed mem
    rcases List.mem_cons.1 mem with rfl | before
    · exact ⟨watched.capacity_eq, watched.inUse_le, watched.peak_le⟩
    · exact watched.earlier passed before

/-- Every move keeps the bounds, whatever was reserved before it. -/
theorem Watched.apply (watched : Watched capacity b earlier) (m : Move) :
    Watched capacity (b.apply m) (b :: earlier) := by
  have inUse_le := watched.inUse_le
  have peak_le := watched.peak_le
  cases m with
  | release bytes =>
    have less : b.inUse - bytes ≤ b.peak := (Nat.sub_le _ _).trans inUse_le
    exact watched.next rfl (less.trans peak_le) (Nat.max_eq_left less).symm
  | reserve bytes =>
    rw [apply_reserve]
    split
    case isTrue fits => exact watched.next rfl (watched.capacity_eq ▸ fits) rfl
    case isFalse =>
      exact watched.next rfl (inUse_le.trans peak_le) (Nat.max_eq_left inUse_le).symm

/-- Moves keep a budget watched, by induction on them. -/
theorem Watched.foldl {x : Budget × List Budget} (watched : Watched capacity x.1 x.2)
    (moves : List Move) : Watched capacity (moves.foldl pass x).1 (moves.foldl pass x).2 := by
  induction moves generalizing x with
  | nil => exact watched
  | cons m moves ih => exact ih (watched.apply m)

end Budget

/-! ### The moves of a request -/

namespace Ledger

open Budget (Move returning)

/-- What a request does to the budget, move by move. A lease is charged before the one that had its
name is returned; a limiter keeps all its charges together. -/
def moves (l : Ledger) : Step → List Move
  | .reserve bytes => [.reserve bytes]
  | .release bytes => [.release bytes]
  | .lease name bytes _ =>
    .reserve bytes ::
      if (l.budget.reserve? bytes).isSome then
        returning ((l.leases.get? name).bind Handle.deleted)
      else []
  | .leaseReset name bytes =>
    returning ((l.leases.get? name).bind fun lease => (lease.reset bytes).2)
  | .leaseDrop name => returning ((l.leases.get? name).bind Handle.deleted)
  | .limiter name | .limiterDrop name =>
    returning (((l.limiters.get? name).map Limiter.charged).bind Handle.deleted)
  | .grow name current desired maximum =>
    if (l.limiters.get? name).isSome ∧ ¬ maximum.any (· < desired) then
      [.reserve (desired - current)]
    else []
  | .leaseRelease _ | .leaseGet _ | .table .. => []

/-- A request does to the budget what its moves do. -/
theorem step_budget (l : Ledger) (s : Step) :
    (l.step s).2.budget = (l.moves s).foldl Budget.apply l.budget := by
  cases s with
  | release bytes => rfl
  | reserve bytes =>
    simp only [step, moves, List.foldl_cons, List.foldl_nil, Budget.apply]
    cases l.budget.reserve? bytes <;> rfl
  | lease name bytes resource =>
    simp only [step, moves, Budget.lease, List.foldl_cons, Budget.apply]
    cases l.budget.reserve? bytes with
    | none => rfl
    | some budget => simp [giveBack]
  | leaseReset name bytes =>
    simp only [step, moves, Budget.foldl_returning]
    cases l.leases.get? name <;> rfl
  | leaseDrop name => simp [step, moves, giveBack]
  | limiter name => simp [step, moves, giveBack]
  | limiterDrop name => simp [step, moves, giveBack]
  | grow name current desired maximum =>
    cases found : l.limiters.get? name with
    | none => simp [step, moves, found]
    | some limiter =>
      -- A growth past its maximum is refused before the budget is asked.
      by_cases past : maximum.any (· < desired)
      · simp [step, moves, found, Limiter.growMemory?_eq, past]
      · simp only [step, moves, found, Limiter.growMemory?_eq, past]
        cases reserved : l.budget.reserve? (desired - current) <;> simp [Budget.apply, reserved]
  | leaseRelease name | leaseGet name =>
    simp only [step, moves, List.foldl_nil]
    cases l.leases.get? name <;> rfl
  | table name current desired maximum =>
    simp only [step, moves, List.foldl_nil]
    cases l.limiters.get? name <;> rfl

/-- One more request to a ledger, with the budgets that it passed through, the latest first. -/
def follow (x : Ledger × List Budget) (s : Step) : Ledger × List Budget :=
  ((x.1.step s).2, ((x.1.moves s).foldl Budget.pass (x.1.budget, x.2)).2)

/-- The budgets that a ledger passed through on the way of some requests, those between the moves of
one request among them. -/
def passed (l : Ledger) (steps : List Step) : List Budget :=
  (steps.foldl follow (l, [])).2

/-- To note down the budgets that were passed is nothing to the ledger. -/
theorem foldl_follow_fst (steps : List Step) (x : Ledger × List Budget) (h : History) :
    (steps.foldl follow x).1 = (steps.foldl serve (h, x.1)).2 := by
  induction steps generalizing x h with
  | nil => rfl
  | cons s steps ih => exact ih (follow x s) (h.record s (x.1.step s).1)

variable {capacity : Nat} {l : Ledger}

/-- Every request keeps the bounds of the budget. -/
theorem watched_follow {x : Ledger × List Budget} (watched : Budget.Watched capacity x.1.budget x.2)
    (s : Step) : Budget.Watched capacity (follow x s).1.budget (follow x s).2 := by
  have kept := Budget.Watched.foldl (x := (x.1.budget, x.2)) watched (x.1.moves s)
  rw [Budget.foldl_pass_fst, ← step_budget] at kept
  exact kept

/-- Steps keep the budget of a ledger watched, by induction on them. -/
theorem watched_foldl {x : Ledger × List Budget} (watched : Budget.Watched capacity x.1.budget x.2)
    (steps : List Step) :
    Budget.Watched capacity (steps.foldl follow x).1.budget (steps.foldl follow x).2 := by
  induction steps generalizing x with
  | nil => exact watched
  | cons s steps ih => exact ih (watched_follow watched s)

/-- So does a whole run. -/
theorem watched_run (l : Ledger) (watched : Budget.Watched capacity l.budget []) (steps : List Step) :
    Budget.Watched capacity (l.run steps).2.budget (l.passed steps) := by
  have kept := watched_foldl (x := (l, [])) watched steps
  rw [foldl_follow_fst steps (l, []) .empty] at kept
  exact kept

end Ledger

/-! ### Machine words -/

/-- A sum of machine words, unless it carries over: then it has wrapped to less than a summand. -/
def checkedSum? (x y : UInt64) : Option UInt64 :=
  if x + y < x then none else some (x + y)

/-- A sum is there just if it fits into a word. -/
theorem checkedSum?_eq_some_iff {x y sum : UInt64} :
    checkedSum? x y = some sum ↔ x.toNat + y.toNat = sum.toNat := by
  have wraps : (x + y).toNat = (x.toNat + y.toNat) % 2 ^ (64 : Nat) := UInt64.toNat_add x y
  have x_lt := x.toNat_lt
  have y_lt := y.toNat_lt
  have sum_lt := sum.toNat_lt
  unfold checkedSum?
  simp only [UInt64.lt_iff_toNat_lt]
  split
  case isTrue carries => simp only [reduceCtorEq, false_iff]; omega
  case isFalse =>
    rw [Option.some.injEq, ← UInt64.toNat_inj]
    omega

namespace Budget

/-- A budget in machine words. -/
structure Words where
  capacity : UInt64
  inUse : UInt64
  peak : UInt64

namespace Words

/-- The budget that the words stand for. -/
def toBudget (w : Words) : Budget :=
  ⟨w.capacity.toNat, w.inUse.toNat, w.peak.toNat⟩

/-- What is left, and nothing if more than there is were charged. -/
def available (w : Words) : UInt64 :=
  if w.inUse ≤ w.capacity then w.capacity - w.inUse else 0

/-- Charge bytes if the checked sum fits. The peak takes the sum in again without a check. -/
def reserve? (w : Words) (bytes : UInt64) : Option Words :=
  ((checkedSum? w.inUse bytes).filter (· ≤ w.capacity)).map fun sum =>
    { w with inUse := sum, peak := max w.peak (w.inUse + bytes) }

/-- Return bytes. More than were charged empties the budget. -/
def release (w : Words) (bytes : UInt64) : Words :=
  { w with inUse := if bytes ≤ w.inUse then w.inUse - bytes else 0 }

variable (w : Words) (bytes : UInt64)

/-- A difference that stops at zero is the difference of natural numbers. -/
theorem toNat_truncated_sub (x y : UInt64) :
    (if y ≤ x then x - y else 0).toNat = x.toNat - y.toNat := by
  split
  case isTrue le => exact UInt64.toNat_sub_of_le x y le
  case isFalse gt =>
    rw [UInt64.le_iff_toNat_le] at gt
    rw [UInt64.toNat_zero]
    omega

/-- The larger of two words is the larger number. -/
theorem toNat_max (x y : UInt64) : (max x y).toNat = max x.toNat y.toNat := by
  change (if x ≤ y then y else x).toNat = _
  simp only [Nat.max_def, UInt64.le_iff_toNat_le]
  split <;> rfl

/-- What is available in words is what is available in numbers. -/
theorem toNat_available : w.available.toNat = w.toBudget.available :=
  toNat_truncated_sub w.capacity w.inUse

/-- To release in words is to release in numbers: both stop at zero. -/
theorem toBudget_release : (w.release bytes).toBudget = w.toBudget.release bytes.toNat := by
  simp only [release, toBudget, Budget.release, toNat_truncated_sub]

/-- No sum wraps: in words, exactly the same bytes are granted and to the same effect. -/
theorem toBudget_reserve? :
    (w.reserve? bytes).map toBudget = w.toBudget.reserve? bytes.toNat := by
  unfold reserve? Budget.reserve?
  by_cases fits : w.toBudget.inUse + bytes.toNat ≤ w.toBudget.capacity
  · rw [if_pos fits]
    have sum_eq : (w.inUse + bytes).toNat = w.inUse.toNat + bytes.toNat :=
      (UInt64.toNat_add _ _).trans (Nat.mod_eq_of_lt (lt_of_le_of_lt fits w.capacity.toNat_lt))
    have checked : checkedSum? w.inUse bytes = some (w.inUse + bytes) :=
      checkedSum?_eq_some_iff.2 sum_eq.symm
    have within : w.inUse + bytes ≤ w.capacity := by
      rw [UInt64.le_iff_toNat_le, sum_eq]
      exact fits
    simp [checked, within, toBudget, sum_eq, toNat_max]
  · rw [if_neg fits, Option.map_map, Option.map_eq_none_iff, Option.filter_eq_none_iff]
    -- A sum that does not carry over is the true one, which exceeds the capacity.
    intro sum checked
    have sum_eq := checkedSum?_eq_some_iff.1 checked
    simp only [toBudget, sum_eq] at fits
    simpa [UInt64.le_iff_toNat_le] using fits

end Words

/-- A budget within a capacity that is a machine word can be kept in words. -/
theorem Watched.exists_words {capacity : Nat} {b : Budget} {earlier : List Budget}
    (watched : Watched capacity b earlier) (narrow : capacity < UInt64.size) :
    ∃ w : Words, w.toBudget = b := by
  have peak_lt := lt_of_le_of_lt watched.peak_le narrow
  refine ⟨⟨.ofNat b.capacity, .ofNat b.inUse, .ofNat b.peak⟩, ?_⟩
  simp only [Words.toBudget, UInt64.toNat_ofNat_of_lt' (watched.capacity_eq ▸ narrow),
    UInt64.toNat_ofNat_of_lt' peak_lt,
    UInt64.toNat_ofNat_of_lt' (lt_of_le_of_lt watched.inUse_le peak_lt)]

end Budget

/-! ### What holds of every ledger that is reached -/

namespace Ledger

variable {capacity : Nat} {l : Ledger} {earlier : List Budget}

/-- The bounds of a ledger's budget, given the budgets that it passed through. -/
structure Bounded (capacity : Nat) (earlier : List Budget) (l : Ledger) : Prop where
  capacity_eq : l.budget.capacity = capacity
  inUse_le_peak : l.budget.inUse ≤ l.budget.peak
  peak_le_capacity : l.budget.peak ≤ capacity
  /-- The peak is the greatest of all charges so far. -/
  peak : IsGreatest {bytes | ∃ b ∈ l.budget :: earlier, b.inUse = bytes} l.budget.peak
  /-- The budgets before it, those between the moves of one request too, kept within the bounds. -/
  earlier : ∀ b ∈ earlier, b.capacity = capacity ∧ b.inUse ≤ b.peak ∧ b.peak ≤ capacity
  /-- What is left is the rest of the capacity. -/
  available : (l.budget.available : Int) = capacity - l.budget.inUse
  /-- Bytes that are at most what is left are granted, and charged exactly. -/
  granted : ∀ bytes ≤ l.budget.available, l.step (.reserve bytes) =
    (.flag true, { l with budget :=
      ⟨capacity, l.budget.inUse + bytes, max l.budget.peak (l.budget.inUse + bytes)⟩ })
  /-- Bytes that are more are refused, and nothing changes. -/
  refused : ∀ bytes, l.budget.available < bytes → l.step (.reserve bytes) = (.flag false, l)
  /-- A release takes its bytes off the charge, down to zero at most, and leaves the peak. -/
  released : ∀ bytes : Nat, ∃ inUse : Nat, (inUse : Int) = max ((l.budget.inUse : Int) - bytes) 0 ∧
    l.step (.release bytes) = (.done, { l with budget := { l.budget with inUse } })
  /-- In machine words, whatever their number of bytes, requests are granted and returned alike. -/
  words : capacity < UInt64.size → ∃ w : Budget.Words, w.toBudget = l.budget ∧
    w.available.toNat = l.budget.available ∧
    (∀ bytes, (w.reserve? bytes).map Budget.Words.toBudget = l.budget.reserve? bytes.toNat) ∧
    ∀ bytes, (w.release bytes).toBudget = l.budget.release bytes.toNat

/-- A watched budget is bounded: this puts together what is known of each move. -/
theorem bounded_of_watched (watched : Budget.Watched capacity l.budget earlier) :
    Bounded capacity earlier l := by
  have inUse_le := watched.inUse_le.trans watched.peak_le
  have within : l.budget.inUse ≤ l.budget.capacity := watched.capacity_eq ▸ inUse_le
  refine ⟨watched.capacity_eq, watched.inUse_le, watched.peak_le, watched.peak, watched.earlier,
    ?_, ?_, ?_, ?_, ?_⟩
  · rw [Budget.available, watched.capacity_eq, Int.ofNat_sub inUse_le]
  · intro bytes fits
    have granted : l.budget.reserve? bytes = some _ :=
      Budget.reserve?_some_iff.2 ⟨by unfold Budget.available at fits; omega, rfl⟩
    rw [watched.capacity_eq] at granted
    simp only [step, granted]
  · intro bytes exceeds
    simp only [step, (Budget.reserve?_none_iff within).2 exceeds]
  · intro bytes
    refine ⟨l.budget.inUse - bytes, ?_, rfl⟩
    omega
  -- In words, the budget is the one that it stands for as long as no number is too wide.
  · intro narrow
    obtain ⟨w, stands⟩ := watched.exists_words narrow
    rw [← stands]
    exact ⟨w, rfl, w.toNat_available, w.toBudget_reserve?, w.toBudget_release⟩

/-- **The bounds hold.** Whatever is asked of a new ledger, raw releases of any amount and leases that
adopt any amount among it, the charge is at most the peak and the peak at most the capacity; the peak
is the greatest charge of all budgets it passed through; and a reservation is granted exactly if it
fits into what is left, for every machine word, with no sum that wraps. -/
theorem bounded_run (pos : 0 < capacity) : ∃ l, ofCapacity capacity = .ok l ∧
    l.budget = ⟨capacity, 0, 0⟩ ∧ l.leases = Table.empty ∧ l.limiters = Table.empty ∧
    ∀ steps, Bounded capacity (l.passed steps) (l.run steps).2 := by
  have made : Budget.ofCapacity capacity = .ok ⟨capacity, 0, 0⟩ := if_neg pos.ne'
  -- No book is kept of who charged what: the bounds are carried by the moves alone.
  refine ⟨⟨⟨capacity, 0, 0⟩, .empty, .empty⟩, by rw [ofCapacity, made]; rfl, rfl, rfl, rfl,
    fun steps => ?_⟩
  exact bounded_of_watched (watched_run _ (Budget.watched_ofCapacity made) steps)

/-- Requests that return what was never reserved. -/
def misused : List Step :=
  [.reserve 40, .lease "stack" 20 .environment, .release 50, .leaseReset "stack" 90,
    .lease "stack" 70 .environment, .limiter "memory", .grow "memory" 0 30 none,
    .leaseReset "stack" 5, .release 18446744073709551615, .reserve 100, .limiterDrop "memory"]

theorem bounded_misused : 0 < 18446744073709551615 ∧
    ∃ l, ofCapacity 18446744073709551615 = .ok l ∧
      Bounded 18446744073709551615 (l.passed misused) (l.run misused).2 := by
  have pos : 0 < 18446744073709551615 := by decide
  obtain ⟨l, made, -, -, -, bounded⟩ := bounded_run pos
  exact ⟨pos, l, made, bounded misused⟩

end Ledger

end Embedder
