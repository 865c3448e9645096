import Embedder.Engine
import Embedder.Host.Callback

namespace Embedder

/-!
# Execution

How a guest's code runs on a host: an engine takes the steps, and its requests are answered by the
callbacks and by the budget.

* `Flight.growMemory?`: more pages for a memory, if the budget has them.
* `FlightM.drive`: run a thread to its end.
* `FlightM.enter`: call a function from the host.
-/

variable [Engine] {σ : Type}

/-- The state after a memory has grown by pages, and how many it had before. Refused past the
memory's maximum and past the budget. -/
def Flight.growMemory? (s : Flight σ) (c : Caller) (memory pages : Nat) :
    Option (Nat × Flight σ) := do
  let m ← s.store.guest.memories[memory]?
  let i ← s.host.instance? c.inst
  let commons ← s.host.commons? c.commons
  let size := m.size + pages * Wasm.pageSize
  let (limiter, budget) ← i.limiter.growMemory? commons.budget m.size size m.limit
  let host := s.host.modifyInstance c.inst fun i => { i with limiter }
  pure (m.pages,
    { store := { s.store with guest := s.store.guest.setMemory memory (m.grow size) }
      host := host.modifyBudget c.commons fun _ => budget })

namespace FlightM

/-- More pages for a memory, as code sees it: how many there were, or else all bits set. -/
def growMemory (c : Caller) (memory pages : Nat) : FlightM σ Wasm.Value := do
  match (← get).growMemory? c memory pages with
  | none => pure (.i32 (-1))
  | some (before, s) =>
    set s
    pure (.i32 (UInt32.ofNat before))

/-- Run a thread to its end, for at most `fuel` steps. -/
def drive (printer : Printer σ) (c : Caller) :
    (fuel : Nat) → Engine.Thread → FlightM σ (List Wasm.Value)
  | 0, _ => throw Wasm.Trap.outOfFuel.cause
  | fuel + 1, t => do
    match Engine.step (← store).guest t with
    | .running guest t =>
      modifyStore fun s => { s with guest }
      drive printer c fuel t
    | .finished results => pure results
    | .trapped trap => throw trap.cause
    | .calls name args _ t =>
      let results ← name.run printer { c with hasExports := true } args
      drive printer c fuel (Engine.resume t results)
    | .grows memory pages t =>
      let before ← growMemory c memory pages
      drive printer c fuel (Engine.push t before)

/-- Call a function from the host. Code may take up `room` bytes of stack. -/
def enter (printer : Printer σ) (c : Caller) (room function : Nat) (args : List Wasm.Value) :
    FlightM σ (List Wasm.Value) := do
  match (← store).guest.funcs[function]? with
  | none => throw Wasm.Trap.illTyped.cause
  | some (.native name _) => name.run printer c args
  | some (.code type code) => drive printer c Engine.fuel (Engine.start type code args room)

end FlightM

/-- Run part of a call in flight on a store; the answer tells how it ended and what became of the
store. -/
def HostM.inFlight (s : Store) (act : FlightM σ α) : HostM σ (Except String α × Store) := do
  let (result, after) := act.run.run ⟨s, ← get⟩
  set after.host
  pure (result, after.store)

end Embedder
