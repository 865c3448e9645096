import Embedder.Host.Call
import Embedder.Host.Counters

namespace Embedder

/-!
# Runners

A runner brings up one guest program with an event and runs its entry points. A guest that exits or
passes its instruction threshold has ended as it was meant to: the run has an outcome, and the
fault is cleared.

* `Outcome`: how a run ended.
* `HostM.createRunner`: a program, ready to run, or nothing kept.
* `HostM.runPlain`, `HostM.runInstrumented`: the entry points.
* `HostM.resetRunner`: the counters back to zero.
-/

/-! ### Outcomes -/

/-- How a run ended. -/
inductive Outcome where
  | returned (status : Int32)
  | exited (status : Int32)
  | thresholdExceeded (counter threshold : UInt64)
  deriving DecidableEq, Repr

/-- The status of a program that ended on its own. -/
def Outcome.status : Outcome → Option Int32
  | .returned status => some status
  | .exited status => some status
  | .thresholdExceeded .. => none

/-- What a guest's end means, if it was meant to end that way. -/
def Outcome.ofFault? (counter threshold : UInt64) : FaultKind → Option Outcome
  | .exit code => some (.exited code)
  | .counterExceeded => some (.thresholdExceeded counter threshold)
  | .trap => none
  | .hostFailure => none

/-- Event bytes with a zero byte after them, so that guests can print them. -/
def terminated (bytes : Bytes) : Bytes :=
  bytes ++ [0]

variable [Engine] {σ : Type}

namespace HostM

/-- Run an operation and look at how it ended. -/
def attempt (act : HostM σ α) : HostM σ (Except Error α) :=
  tryCatch (do pure (.ok (← act))) fun e => pure (.error e)

/-- Print a text. -/
def printText (printer : Printer σ) (commons : Nat) (text : String) : HostM σ Unit :=
  modify (printer commons (Bytes.ofText text))

/-- Change a runner. -/
def modifyRunner (id : Nat) (f : Runner → Runner) : HostM σ Unit :=
  modify fun h => { h with runners := h.runners.modify id f }

/-! ### Creation -/

/-- An environment that carries an event. -/
def createEventEnvironment (inst stack : Nat) (eventId payload : Bytes) : HostM σ Nat := do
  let environment ← createEnvironment inst stack
  orUndo (·.dropEnvironment environment) do
    let userData ← ofExcept (UserData.withEvent (terminated eventId) (terminated payload))
    modify fun h => h.modifyEnvironment environment fun e => { e with userData }
    pure environment

/-- Load a program, instantiate it, and bind an environment that carries the event. -/
def createRunner (printer : Printer σ) (runtime : Nat) (bytecode eventId payload : Bytes)
    (config : ModuleConfig) (execStack : Nat) : HostM σ Nat := do
  let commons := (← HostM.runtime runtime).commons
  let module ← load runtime bytecode
  orUndo (·.releaseModule module) do
    let inst ← instantiate printer module config.stackSize.toNat config.heapSize.toNat
    orUndo (·.releaseInstance inst) do
      let environment ← createEventEnvironment inst execStack eventId payload
      let h ← get
      let (runners, id) := h.runners.insert {
        environment, inst, module, commons
        threshold := 0
        counter := 0 }
      set { h with runners }
      pure id

/-! ### Runs -/

/-- The outcome of an entry point's call. The fault of a guest that was meant to end is cleared;
every other error stands. -/
def settle (id : Nat) : Except Error (List HostValue) → HostM σ Outcome
  | .ok [.i32 status] => pure (.returned status)
  | .ok values => throw (.typeMismatch "1 results" s!"{values.length} results")
  | .error e => do
    let r ← runner id
    let counter := (← environment r.environment).userData.instructionCount
    match e.faultKind?.bind (Outcome.ofFault? counter r.threshold) with
    | none => throw e
    | some outcome => do
      let _ ← clearException r.inst
      pure outcome

/-- The lengths of the event, as an entry point takes them. -/
def eventLengths (environment : Nat) : HostM σ (List HostValue) := do
  let u := (← HostM.environment environment).userData
  pure [.u32 (UInt32.ofNat u.eventId.length), .u32 (UInt32.ofNat u.eventPayload.length)]

/-- Call an entry point with the lengths of the event, and settle how it ended. -/
def runEntry (printer : Printer σ) (id : Nat) (name : String) (more : List HostValue) :
    HostM σ Outcome := do
  let r ← runner id
  let lengths ← eventLengths r.environment
  settle id (← attempt (call printer r.environment name (lengths ++ more) [.i32]))

/-- Run the plain entry point. -/
def runPlain (printer : Printer σ) (id : Nat) : HostM σ Outcome := do
  printText printer (← runner id).commons "\n\nRunning plain wasm...\n"
  runEntry printer id plainMain []

/-- What an instrumented run's outcome says once the counter has been read. -/
def recounted (counter threshold : UInt64) : Outcome → Outcome
  | .thresholdExceeded .. => .thresholdExceeded counter threshold
  | outcome => outcome

/-- Run the instrumented entry point up to a threshold, and read and print its counter. -/
def runInstrumented (printer : Printer σ) (id : Nat) (threshold : UInt64) : HostM σ Outcome := do
  modifyRunner id fun r => { r with threshold }
  let r ← runner id
  printText printer r.commons "\n\nRunning instrumented wasm...\n"
  let outcome ← runEntry printer id instrumentedMain [.u64 threshold]
  let counter ← readCounter r.inst
  modifyRunner id fun r => { r with counter }
  printText printer r.commons s!"Threshold: {threshold}, Counter: {counter}\n"
  pure (recounted counter threshold outcome)

/-- Set the guest's counters and what is recorded of them back to zero. -/
def resetRunner (id : Nat) : HostM σ Unit := do
  let r ← runner id
  resetCounters r.inst
  modify fun h => h.modifyEnvironment r.environment fun e =>
    { e with userData := e.userData.resetInstrumentation }
  modifyRunner id fun r => { r with threshold := 0, counter := 0 }

end HostM

end Embedder
