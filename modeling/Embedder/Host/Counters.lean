import Embedder.Host.Inspection

namespace Embedder

/-!
# Instruction counters

An instrumented guest counts its instructions in one exported global and keeps the threshold it
was started with in another.

* `Counters`, `Counters.exceeded`: a reading of both, and whether the counter is past the threshold.
* `HostM.readCounters`, `HostM.resetCounters`: the guest's counters.
-/

/-- A reading of an instrumented guest's globals; the guest may export no threshold. -/
structure Counters where
  counter : UInt64
  threshold : Option UInt64
  deriving DecidableEq, Repr

/-- Whether the counter is past a known threshold. -/
def Counters.exceeded (c : Counters) : Bool :=
  c.threshold.any (· < c.counter)

variable {σ : Type}

namespace HostM

/-- The value of an exported global of 64 unsigned bits. -/
def getUInt64 (id : Nat) (name : String) : HostM σ UInt64 := do
  match ← getGlobal id name .u64 with
  | .u64 v => pure v
  | v => throw (.typeMismatch NumType.i64.name v.type.kind.name)

/-- The counter. -/
def readCounter (id : Nat) : HostM σ UInt64 :=
  getUInt64 id counterGlobal

/-- The counter and the threshold, if the guest exports one. -/
def readCounters (id : Nat) : HostM σ Counters := do
  let counter ← readCounter id
  tryCatch
    (do pure ⟨counter, some (← getUInt64 id thresholdGlobal)⟩)
    fun e => if e.isNotFound then pure ⟨counter, none⟩ else throw e

/-- Set the counter to zero, and the threshold, too, if the guest exports one. -/
def resetCounters (id : Nat) : HostM σ Unit := do
  setGlobal id counterGlobal (.u64 0)
  tryCatch (setGlobal id thresholdGlobal (.u64 0)) fun e =>
    if e.isNotFound then pure () else throw e

end HostM

end Embedder
