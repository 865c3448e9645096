import Embedder.Host.State

namespace Embedder

/-!
# Callbacks at work

What each callback does when a guest calls it. A callback works on the store that its call holds and
on the rest of the host, and either gives results or unwinds the guest.

* `Flight`: the state of a call in flight.
* `Caller`: who calls.
* `Native.run`, `Probe.run`, `Callback.run`: one callback.
-/

variable {σ : Type}

/-- The state of a call in flight: the store it holds, and the host around it. -/
structure Flight (σ : Type) where
  store : Store
  host : Host σ

/-- Part of a call in flight. It may unwind the guest, in words that describe the root cause. -/
abbrev FlightM (σ : Type) := ExceptT String (StateM (Flight σ))

/-- Who calls a callback: the instance, what its guests share, and whether the instance's exports
are in reach. They are not where the host calls a callback that a guest only passes on. -/
structure Caller where
  inst : Nat
  commons : Nat
  hasExports : Bool
  deriving DecidableEq, Repr

namespace FlightM

/-! ### The store and the host -/

/-- The store that the call holds. -/
def store : FlightM σ Store := do
  pure (← get).store

/-- Change the store that the call holds. -/
def modifyStore (f : Store → Store) : FlightM σ Unit :=
  modify fun s => { s with store := f s.store }

/-- Change the host around the call. -/
def modifyHost (f : Host σ → Host σ) : FlightM σ Unit :=
  modify fun s => { s with host := f s.host }

/-- Latch a fault, in place of any earlier one. -/
def latch (fault : Fault) : FlightM σ Unit :=
  modifyStore fun s => { s with latch := some fault }

/-- Latch a fault and unwind the guest. -/
def raise (kind : FaultKind) (message : String) : FlightM σ α := do
  latch ⟨kind, message⟩
  throw message

/-- Unwind the guest because a callback cannot do its work. -/
def hostFailure (message : String) : FlightM σ α :=
  raise .hostFailure message

/-- The value, or else unwind the guest. -/
def orFail (message : String) : Option α → FlightM σ α
  | some a => pure a
  | none => hostFailure message

/-! ### What callbacks refer to -/

/-- The number of the memory that callbacks refer to, and its state. -/
def guestMemory (c : Caller) : FlightM σ (Nat × Wasm.Memory) := do
  let guest := (← store).guest
  let found := if c.hasExports then guest.exportedMemory? memoryExport else none
  orFail ("guest exports no `" ++ memoryExport ++ "`") do
    let i ← found
    pure (i, ← guest.memories[i]?)

/-- The value of an exported global of 64 bits. -/
def counterValue (c : Caller) (name : String) : FlightM σ UInt64 := do
  let guest := (← store).guest
  let found := if c.hasExports then guest.exportedGlobal? name else none
  let (i, _) ← orFail ("guest exports no global `" ++ name ++ "`") found
  match guest.globals[i]? with
  | some (.i64 bits) => pure bits
  | _ => hostFailure ("global `" ++ name ++ "` is not a u64")

/-- The user data lent to the call. -/
def userData : FlightM σ UserData := do
  orFail "no execution environment is active" ((← store).active.map ActiveCall.userData)

/-- Change the user data lent to the call. -/
def modifyUserData (f : UserData → UserData) : FlightM σ Unit :=
  modifyStore fun s =>
    { s with active := s.active.map fun a => { a with userData := f a.userData } }

/-- Read the clock. -/
def clock (c : Caller) : FlightM σ Reading := do
  let (reading, host) := (← get).host.readClock c.commons
  modifyHost fun _ => host
  pure reading

/-- Read the clock, or else unwind the guest. -/
def now (c : Caller) : FlightM σ UInt64 := do
  match ← clock c with
  | .ok time => pure time
  | .error e => hostFailure ("timestamp source failed: " ++ e.message)

/-- Print bytes. -/
def printBytes (printer : Printer σ) (c : Caller) (bytes : Bytes) : FlightM σ Unit :=
  modifyHost (printer c.commons bytes)

end FlightM

namespace Native

open FlightM

/-! ### Results -/

/-- A length as the guest sees it: its low 32 bits. -/
def lengthResult (length : Nat) : List Wasm.Value :=
  [.i32 (UInt32.ofNat length)]

/-! ### The callbacks -/

/-- Print the text at an address. -/
def runPrint (printer : Printer σ) (c : Caller) (address : Nat) :
    FlightM σ (List Wasm.Value) := do
  let (_, m) ← guestMemory c
  let text ← orFail s!"no NUL-terminated string at guest address {address}" (m.cString? address)
  printBytes printer c text
  pure []

/-- Announce a benchmark and take down when it starts. -/
def runStart (printer : Printer σ) (c : Caller) : FlightM σ (List Wasm.Value) := do
  printBytes printer c (Bytes.ofText "Benchmark started.\n")
  let time ← now c
  let _ ← userData
  modifyUserData fun u => { u with startTime := time }
  pure []

/-- Tell when the benchmark started, when it ended, and how long it took. -/
def runStop (printer : Printer σ) (c : Caller) : FlightM σ (List Wasm.Value) := do
  let stop := (← now c).toNat
  let start := (← userData).startTime.toNat
  printBytes printer c (Bytes.ofText
    s!"Benchmark stopped. (Started @ {start} us, ended @ {stop} us, spent {stop - start} us)\n")
  pure []

/-- Copy as much of the event as fits into a stretch of memory; the answer is the event's full
length. -/
def runCopy (c : Caller) (name : String) (select : UserData → Bytes) (address capacity : Nat) :
    FlightM σ (List Wasm.Value) := do
  let (i, m) ← guestMemory c
  let active ← orFail (name ++ ": no execution environment is active") (← store).active
  let source := select active.userData
  let bytes := source.take capacity
  let m ← orFail
    (name ++ s!": {bytes.length} bytes at guest address {address} are out of bounds")
    (m.write? address bytes)
  modifyStore fun s => { s with guest := s.guest.setMemory i m }
  pure (lengthResult source.length)

/-- Report the counter and the threshold, record the counter, and unwind the guest. -/
def runCounterExceeded (printer : Printer σ) (c : Caller) : FlightM σ (List Wasm.Value) := do
  let threshold ← counterValue c thresholdGlobal
  let counter ← counterValue c counterGlobal
  printBytes printer c (Bytes.ofText
    s!"Counter exceeded. (Threshold: {threshold}, Counter: {counter})\n")
  let _ ← userData
  modifyUserData fun u => u.recordExceeded counter
  raise .counterExceeded s!"counter {counter} exceeded threshold {threshold}"

/-! ### All of them -/

/-- What a callback of the guest interface does with its arguments. -/
def run (printer : Printer σ) (c : Caller) :
    Native → List Wasm.Value → FlightM σ (List Wasm.Value)
  | sum, [.i32 a, .i32 b] => pure [.i32 (a + b)]
  | print, [.i32 address] => runPrint printer c address.toNat
  | printString, [.i32 address] => runPrint printer c address.toNat
  | startBenchmark, _ => runStart printer c
  | stopBenchmark, _ => runStop printer c
  | eventIdLength, _ => do
    pure (lengthResult (← userData).eventId.length)
  | eventPayloadLength, _ => do
    pure (lengthResult (← userData).eventPayload.length)
  | eventId, [.i32 address, .i32 capacity] =>
    runCopy c eventId.name UserData.eventId address.toNat capacity.toNat
  | eventPayload, [.i32 address, .i32 capacity] =>
    runCopy c eventPayload.name UserData.eventPayload address.toNat capacity.toNat
  | exit, [.i32 code] => runExit code
  | systemExit, [.i32 code] => runExit code
  | counterExceeded, _ => runCounterExceeded printer c
  | _, _ => throw Wasm.Trap.illTyped.cause
where
  /-- Unwind the guest because it asked to end with a status. -/
  runExit (code : UInt32) : FlightM σ (List Wasm.Value) :=
    raise (.exit code.toInt32) s!"guest exit with code {code.toInt32}"

end Native

/-! ### The application's callbacks -/

/-- The diagnostic form of an instance's state as callbacks see it. -/
def Store.debug (s : Store) (charged : Nat) : String :=
  let exception :=
    match s.latch with
    | none => "None"
    | some fault =>
      "Some(" ++ Error.record "Exception"
        [("kind", fault.kind.debug), ("message", Text.quoted fault.message)] ++ ")"
  let environment := if s.active.isSome then "Some(<env>)" else "None"
  s!"ExecContext \x7b exception: {exception}, active_environment: {environment}, "
    ++ s!"memory_charged: {charged}, .. \x7d"

namespace Probe

open FlightM

/-- A truth value as the guest sees it. -/
def flagResult (flag : Bool) : List Wasm.Value :=
  [.i32 (if flag then 1 else 0)]

/-- The fault kind that a probe's number stands for. -/
def faultKind (k : Int32) : FaultKind :=
  if k = 0 then .trap
  else if k = 1 then .exit 41
  else if k = 2 then .counterExceeded
  else .hostFailure

/-- What a probe does with its arguments. -/
def run (printer : Printer σ) (c : Caller) :
    Probe → List Wasm.Value → FlightM σ (List Wasm.Value)
  | .fail, _ => throw "plain failure"
  | .failContext, _ => throw "inner cause"
  | .latch, [.i32 k] => do
    FlightM.latch ⟨faultKind k.toInt32, s!"latched {k.toInt32}"⟩
    pure []
  | .raise, [.i32 k] => FlightM.raise (faultKind k.toInt32) s!"raised {k.toInt32}"
  | .clear, _ => do
    let latched := (← store).latch.isSome
    modifyStore fun s => { s with latch := none }
    pure (flagResult latched)
  | .charged, _ => do
    let charged := ((← get).host.instance? c.inst).map fun i => i.limiter.charged.value
    pure [.i64 (UInt64.ofNat (charged.getD 0))]
  | .active, _ => do
    pure [.i32 (if (← store).active.isSome then 7 else 0)]
  | .now, _ => do
    match ← clock c with
    | .ok time => pure [.i64 time]
    | .error _ => pure [.i64 (-1)]
  | .setStart, [.i64 time] => do
    modifyUserData fun u => { u with startTime := time }
    pure []
  | .debug, _ => do
    let charged := ((← get).host.instance? c.inst).map fun i => i.limiter.charged.value
    printBytes printer c (Bytes.ofText ((← store).debug (charged.getD 0)))
    pure []
  | _, _ => throw Wasm.Trap.illTyped.cause

end Probe

/-- What a callback does with its arguments. -/
def Callback.run (printer : Printer σ) (c : Caller) :
    Callback → List Wasm.Value → FlightM σ (List Wasm.Value)
  | native n, args => n.run printer c args
  | probe p, args => p.run printer c args

end Embedder
