import Embedder.Budget
import Embedder.Table

namespace Embedder

/-!
# A budget and its debtors

One budget with the leases and limiters that draw on it, each under a name.

* `Ledger.Step`, `Ledger.Answer`: what can be asked, and what is answered.
* `Ledger.step`: one request.
-/

/-- A budget, and the leases and limiters that draw on it. -/
structure Ledger where
  budget : Budget
  leases : Table String Handle
  limiters : Table String Limiter

namespace Ledger

/-- A request to a ledger. -/
inductive Step where
  /-- Charge bytes that nobody holds. -/
  | reserve (bytes : Nat)
  /-- Return bytes, whoever was charged for them. -/
  | release (bytes : Nat)
  /-- Take out a lease under a name. -/
  | lease (name : String) (bytes : Nat) (resource : Resource)
  /-- Let a lease adopt another number of bytes. -/
  | leaseReset (name : String) (bytes : Nat)
  /-- Let a lease give its bytes up. -/
  | leaseRelease (name : String)
  /-- Look at a lease. -/
  | leaseGet (name : String)
  /-- Drop a lease. -/
  | leaseDrop (name : String)
  /-- Make a limiter. -/
  | limiter (name : String)
  /-- Grow a memory under a limiter. -/
  | grow (name : String) (current desired : Nat) (maximum : Option Nat)
  /-- Grow a table under a limiter. -/
  | table (name : String) (current desired : Nat) (maximum : Option Nat)
  /-- Drop a limiter. -/
  | limiterDrop (name : String)
  deriving Repr

/-- What a ledger answers. -/
inductive Answer where
  | done
  | flag (value : Bool)
  | amount (bytes : Nat)
  | leased (handle : Handle)
  | held (handle : Handle)
  | growth (allowed : Bool) (charged : Nat)
  | failed (e : Error)
  deriving DecidableEq, Repr

/-- A ledger on which nobody draws. -/
def ofCapacity (capacity : Nat) : Except Error Ledger := do
  pure ⟨← Budget.ofCapacity capacity, Table.empty, Table.empty⟩

/-- Return what a dropped handle still held. -/
def giveBack (l : Ledger) (h : Option Handle) : Ledger :=
  { l with budget := l.budget.releaseDeleted (h.bind Handle.deleted) }

/-- One request. -/
def step (l : Ledger) : Step → Answer × Ledger
  | .reserve bytes =>
    match l.budget.reserve? bytes with
    | some budget => (.flag true, { l with budget })
    | none => (.flag false, l)
  | .release bytes => (.done, { l with budget := l.budget.release bytes })
  | .lease name bytes resource =>
    match l.budget.lease bytes resource with
    | .error e => (.failed e, l)
    | .ok budget =>
      let old := l.leases.get? name
      let lease : Handle := ⟨bytes⟩
      (.leased lease, { l with budget, leases := l.leases.set name lease }.giveBack old)
  | .leaseReset name bytes =>
    match l.leases.get? name with
    | none => (.failed .badHandle, l)
    | some lease =>
      let (lease, old) := lease.reset bytes
      (.done, { l with
        budget := l.budget.releaseDeleted old
        leases := l.leases.set name lease })
  | .leaseRelease name =>
    match l.leases.get? name with
    | none => (.failed .badHandle, l)
    | some lease =>
      let (lease, bytes) := lease.release
      (.amount bytes, { l with leases := l.leases.set name lease })
  | .leaseGet name =>
    match l.leases.get? name with
    | none => (.failed .badHandle, l)
    | some lease => (.held lease, l)
  | .leaseDrop name =>
    let old := l.leases.get? name
    (.flag old.isSome, { l with leases := l.leases.erase name }.giveBack old)
  | .limiter name =>
    let old := l.limiters.get? name
    (.done, { l with limiters := l.limiters.set name .empty }.giveBack (old.map Limiter.charged))
  | .grow name current desired maximum =>
    match l.limiters.get? name with
    | none => (.failed .badHandle, l)
    | some limiter =>
      match limiter.growMemory? l.budget current desired maximum with
      | none => (.growth false limiter.charged.value, l)
      | some (limiter, budget) =>
        (.growth true limiter.charged.value,
          { l with budget, limiters := l.limiters.set name limiter })
  | .table name _ desired maximum =>
    match l.limiters.get? name with
    | none => (.failed .badHandle, l)
    | some limiter =>
      (.growth (Limiter.allowsTable desired maximum) limiter.charged.value, l)
  | .limiterDrop name =>
    let old := l.limiters.get? name
    (.flag old.isSome,
      { l with limiters := l.limiters.erase name }.giveBack (old.map Limiter.charged))

end Ledger

end Embedder
