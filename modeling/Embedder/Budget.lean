import Embedder.Error
import Embedder.Handle

namespace Embedder

/-!
# Budgets

A budget of bytes that a runtime's modules, instances and environments are charged to, together
with the highest charge seen.

* `Budget.ofCapacity`, `Budget.reserve?`, `Budget.release`: the ledger of one budget.
* `Budget.lease`: a reservation that fails with an error.
* `Limiter.growMemory?`, `Limiter.growMemory?_eq`: the charge for growing linear memory.
-/

/-- A budget: how many bytes there are, how many are charged, and the most there ever were. -/
structure Budget where
  capacity : Nat
  inUse : Nat
  peak : Nat
  deriving DecidableEq, Repr

namespace Budget

/-- A budget with nothing charged. -/
def ofCapacity (capacity : Nat) : Except Error Budget :=
  if capacity = 0 then .error (.initFailed .arena .zeroCapacity)
  else .ok ⟨capacity, 0, 0⟩

/-- The bytes that are left. -/
def available (b : Budget) : Nat :=
  b.capacity - b.inUse

/-- Charge bytes if they fit. -/
def reserve? (b : Budget) (bytes : Nat) : Option Budget :=
  if b.inUse + bytes ≤ b.capacity then
    some { b with inUse := b.inUse + bytes, peak := max b.peak (b.inUse + bytes) }
  else none

/-- Return bytes. More than were charged empties the budget. -/
def release (b : Budget) (bytes : Nat) : Budget :=
  { b with inUse := b.inUse - bytes }

/-- Charge bytes for a resource. -/
def lease (b : Budget) (bytes : Nat) (resource : Resource) : Except Error Budget :=
  match b.reserve? bytes with
  | some b => .ok b
  | none => .error (.initFailed resource (.budgetExhausted bytes b.available b.capacity))

/-- Return what a handle hands to its deleter. -/
def releaseDeleted (b : Budget) : Option Nat → Budget
  | some bytes => b.release bytes
  | none => b

end Budget

/-! ### Growth of linear memory -/

/-- The charge of one instance's linear memories, held as a single lease. -/
structure Limiter where
  charged : Handle
  deriving DecidableEq, Repr

namespace Limiter

/-- A limiter with nothing charged. -/
def empty : Limiter :=
  ⟨.null⟩

/-- Charge the growth of a memory from `current` to `desired` bytes. Refused past the memory's
maximum and past the budget. -/
def growMemory? (l : Limiter) (b : Budget) (current desired : Nat) (maximum : Option Nat) :
    Option (Limiter × Budget) :=
  if maximum.any (· < desired) then none
  else do
    let b ← b.reserve? (desired - current)
    let (given, before) := l.charged.release
    let (charged, old) := given.reset (before + (desired - current))
    pure (⟨charged⟩, b.releaseDeleted old)

/-- All charges of a limiter stay together: what it held before is given up and adopted again with the
growth, and nothing of it is returned on the way. -/
theorem growMemory?_eq (l : Limiter) (b : Budget) (current desired : Nat) (maximum : Option Nat) :
    l.growMemory? b current desired maximum =
      if maximum.any (· < desired) then none
      else (b.reserve? (desired - current)).map fun b =>
        (⟨⟨l.charged.value + (desired - current)⟩⟩, b) := by
  unfold growMemory?
  split
  case isTrue => rfl
  case isFalse =>
    cases b.reserve? (desired - current) with
    | none => rfl
    | some b =>
      simp [Handle.release, Handle.reset_null, Budget.releaseDeleted]

/-- Tables cost nothing; only their own maximum limits them. -/
def allowsTable (desired : Nat) (maximum : Option Nat) : Bool :=
  !maximum.any (· < desired)

end Limiter

end Embedder
