import Embedder.Host.Runner

namespace Embedder

/-!
# Benchmarks

Two builds of a program, a plain and an instrumented one, each run a number of times. The first
error ends the benchmark.

* `Report`: the outcomes, and the error that came before the end, if one did.
* `HostM.benchmark`: a whole benchmark.
-/

/-- What a benchmark yields: an outcome for every completed run, and the error that ended it. -/
structure Report where
  plain : List Outcome
  instrumented : List Outcome
  error : Option Error
  deriving DecidableEq, Repr

/-- Whether every run was completed. -/
def Report.isSuccess (r : Report) : Bool :=
  r.error.isNone

variable [Engine] {σ : Type}

namespace HostM

/-- Do something up to `count` times, until it fails. -/
def repeatedly (act : HostM σ α) : (count : Nat) → HostM σ (List α × Option Error)
  | 0 => pure ([], none)
  | count + 1 => do
    match ← attempt act with
    | .error e => pure ([], some e)
    | .ok a => do
      let (rest, e) ← repeatedly act count
      pure (a :: rest, e)

/-- Bring up one build, run it again and again, and drop it. -/
def benchmarkBuild (printer : Printer σ) (runtime : Nat) (run : RunConfig) (bytecode : Bytes)
    (once : Nat → HostM σ Outcome) : HostM σ (List Outcome × Option Error) := do
  let config := (← HostM.runtime runtime).config
  let created ← attempt <| createRunner printer runtime bytecode (Bytes.ofText run.eventId)
    (Bytes.ofText run.eventPayload) config.module config.execStackSize.toNat
  match created with
  | .error e => pure ([], some e)
  | .ok id => do
    let result ← repeatedly (once id) run.repetitions.toNat
    modify (·.dropRunner id)
    pure result

/-- Announce a run of one kind of build, run it, and announce its end. -/
def announced (printer : Printer σ) (commons : Nat) (kind : String) (act : HostM σ Outcome) :
    HostM σ Outcome := do
  printText printer commons s!"\n\nStarting to run WASM program (type={kind})...\n"
  let outcome ← act
  printText printer commons s!"Finished to run WASM program (type={kind})...\n"
  pure outcome

/-- Run the plain build, then the instrumented one, whose counters are reset after every run. -/
def benchmark (printer : Printer σ) (runtime : Nat) (run : RunConfig)
    (plain instrumented : Bytes) : HostM σ Report := do
  let commons := (← HostM.runtime runtime).commons
  let (plainRuns, e) ← benchmarkBuild printer runtime run plain fun id =>
    announced printer commons "plain" (runPlain printer id)
  let report : Report := ⟨plainRuns, [], e⟩
  if e.isSome then return report
  let (runs, e) ← benchmarkBuild printer runtime run instrumented fun id =>
    announced printer commons "instrumented" do
      let outcome ← runInstrumented printer id run.threshold
      resetRunner id
      pure outcome
  pure { report with instrumented := runs, error := e }

end HostM

end Embedder
