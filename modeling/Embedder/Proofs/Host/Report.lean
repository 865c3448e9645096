import Embedder.Host.Benchmark
import Embedder.Proofs.Monad

namespace Embedder

/-!
# What a benchmark reports

A benchmark brings up a build, runs it again and again, and drops it, first the plain build and then
the instrumented one. What it reports are the outcomes of the runs up to the first error, in order.

* `Build`, `Build.Runs`: one run, which for an instrumented build includes the reset of its counters.
* `Trail`, `trail_repeatedly`: runs one after another, and what is left of them.
* `Build.Goes`, `Benchmarked`: a build, and both of them.
* `benchmarked_of_stays`, `Benchmarked.tells`: a benchmark, and what its report says.
-/

variable {σ α : Type} {printer : Printer σ}

/-! ### One run -/

/-- The two builds of a program. -/
inductive Build where
  | plain
  | instrumented
  deriving DecidableEq

/-- The name under which the runs of a build are announced. -/
def Build.kind : Build → String
  | plain => "plain"
  | instrumented => "instrumented"

/-- The host once a text is printed. -/
def Host.tell (h : Host σ) (printer : Printer σ) (commons : Nat) (text : String) : Host σ :=
  printer commons (Bytes.ofText text) h

/-- Where, how and how far a build is run: its outputs, its runner, and its threshold. -/
structure Bench where
  commons : Nat
  runner : Nat
  threshold : UInt64

namespace Build

/-- A run of a build is announced. -/
def announce (b : Build) (printer : Printer σ) (commons : Nat) (h : Host σ) : Host σ :=
  h.tell printer commons s!"\n\nStarting to run WASM program (type={b.kind})...\n"

/-- The end of a run of a build is announced. -/
def conclude (b : Build) (printer : Printer σ) (commons : Nat) (h : Host σ) : Host σ :=
  h.tell printer commons s!"Finished to run WASM program (type={b.kind})...\n"

/-- One run of a build, from its announcement on. It is completed when its end has been announced,
and before that the counters of an instrumented build have been reset; else it ends with the error of
the step that failed. -/
inductive Runs [Engine] (printer : Printer σ) (c : Bench) (h : Host σ) :
    Build → Except Error Outcome → Host σ → Prop
  | returned {outcome : Outcome} {u : Host σ}
      (ran : exec (HostM.runPlain printer c.runner) (plain.announce printer c.commons h) =
        (.ok outcome, u)) :
      Runs printer c h plain (.ok outcome) (plain.conclude printer c.commons u)
  | failed {e : Error} {u : Host σ}
      (ran : exec (HostM.runPlain printer c.runner) (plain.announce printer c.commons h) =
        (.error e, u)) :
      Runs printer c h plain (.error e) u
  | reset {outcome : Outcome} {u v : Host σ}
      (ran : exec (HostM.runInstrumented printer c.runner c.threshold)
        (instrumented.announce printer c.commons h) = (.ok outcome, u))
      (reset : exec (HostM.resetRunner c.runner) u = (.ok (), v)) :
      Runs printer c h instrumented (.ok outcome) (instrumented.conclude printer c.commons v)
  | stopped {e : Error} {u : Host σ}
      (ran : exec (HostM.runInstrumented printer c.runner c.threshold)
        (instrumented.announce printer c.commons h) = (.error e, u)) :
      Runs printer c h instrumented (.error e) u
  | unreset {outcome : Outcome} {e : Error} {u v : Host σ}
      (ran : exec (HostM.runInstrumented printer c.runner c.threshold)
        (instrumented.announce printer c.commons h) = (.ok outcome, u))
      (failed : exec (HostM.resetRunner c.runner) u = (.error e, v)) :
      Runs printer c h instrumented (.error e) v

/-- What a benchmark does for one run of a build. -/
def once [Engine] (b : Build) (printer : Printer σ) (c : Bench) : HostM σ Outcome :=
  HostM.announced printer c.commons b.kind <|
    match b with
    | plain => HostM.runPlain printer c.runner
    | instrumented => do
      let outcome ← HostM.runInstrumented printer c.runner c.threshold
      HostM.resetRunner c.runner
      pure outcome

/-- A run is announced, and concluded if it has an outcome. -/
theorem exec_announced (act : HostM σ Outcome) (b : Build) (commons : Nat) (h : Host σ) :
    exec (HostM.announced printer commons b.kind act) h =
      match exec act (b.announce printer commons h) with
      | (.ok outcome, u) => (.ok outcome, b.conclude printer commons u)
      | (.error e, u) => (.error e, u) := by
  unfold HostM.announced
  rw [exec_bind]
  show exec (act >>= _) (b.announce printer commons h) = _
  rw [exec_bind]
  rcases exec act (b.announce printer commons h) with ⟨e | outcome, u⟩ <;> rfl

/-- One run of a benchmark is announced, run, reset and concluded. -/
theorem runs_once [Engine] (b : Build) (printer : Printer σ) (c : Bench) (h : Host σ) :
    Runs printer c h b (exec (b.once printer c) h).1 (exec (b.once printer c) h).2 := by
  cases b with
  | plain =>
    unfold once
    rw [exec_announced]
    rcases ran : exec (HostM.runPlain printer c.runner) (plain.announce printer c.commons h)
      with ⟨e | outcome, u⟩
    · exact .failed ran
    · exact .returned ran
  | instrumented =>
    unfold once
    rw [exec_announced, exec_bind]
    rcases ran : exec (HostM.runInstrumented printer c.runner c.threshold)
      (instrumented.announce printer c.commons h) with ⟨e | outcome, u⟩
    · exact .stopped ran
    · dsimp only
      rw [exec_bind]
      -- A reset that fails ends the run with an error, although it had an outcome.
      rcases reset : exec (HostM.resetRunner c.runner) u with ⟨e | ⟨⟩, v⟩
      · exact .unreset ran reset
      · exact .reset ran reset

end Build

/-! ### Runs one after another -/

/-- Something is done again and again, each time where it ended before: with these results in order,
and with this host in the end. -/
inductive Trail (does : Host σ → α → Host σ → Prop) : Host σ → List α → Host σ → Prop
  | nil {h : Host σ} : Trail does h [] h
  | cons {h u t : Host σ} {a : α} {as : List α} (first : does h a u) (rest : Trail does u as t) :
      Trail does h (a :: as) t

/-- What is to be done once more and as often as before is done once, and then as often as before
unless that failed. -/
theorem exec_repeatedly_succ (act : HostM σ α) (count : Nat) (h : Host σ) :
    exec (HostM.repeatedly act (count + 1)) h =
      match exec act h with
      | (.error e, u) => (.ok ([], some e), u)
      | (.ok a, u) => exec (do
          let (rest, e) ← HostM.repeatedly act count
          pure (a :: rest, e)) u := by
  show exec (HostM.attempt act >>= _) h = _
  unfold HostM.attempt
  rw [exec_bind, exec_tryCatch, exec_bind]
  rcases exec act h with ⟨e | a, u⟩ <;> rfl

/-- What is done up to so many times is done so many times, or else fewer times, until it fails; then
nothing is done any more. By induction on how often it is to be done. -/
theorem trail_repeatedly {act : HostM σ α} {does : Host σ → Except Error α → Host σ → Prop}
    (acts : ∀ h, does h (exec act h).1 (exec act h).2) (count : Nat) (h : Host σ) :
    ∃ as t, Trail (fun h a u => does h (.ok a) u) h as t ∧
      (as.length = count ∧ exec (HostM.repeatedly act count) h = (.ok (as, none), t) ∨
        as.length < count ∧ ∃ e u, does t (.error e) u ∧
          exec (HostM.repeatedly act count) h = (.ok (as, some e), u)) := by
  -- The host is generalized: what is left is done in the host that the first time leaves behind.
  induction count generalizing h with
  | zero => exact ⟨[], h, .nil, .inl ⟨rfl, rfl⟩⟩
  | succ count ih =>
    have first := acts h
    rw [exec_repeatedly_succ]
    rcases ran : exec act h with ⟨e | a, u⟩ <;> rw [ran] at first
    · exact ⟨[], h, .nil, .inr ⟨Nat.succ_pos count, e, u, first, rfl⟩⟩
    · dsimp only
      rw [exec_bind]
      obtain ⟨as, t, trail, ended⟩ := ih u
      refine ⟨a :: as, t, .cons first trail, ?_⟩
      rcases ended with ⟨all, done⟩ | ⟨fewer, e, v, failed, done⟩ <;> rw [done]
      · exact .inl ⟨congrArg Nat.succ all, rfl⟩
      · exact .inr ⟨Nat.succ_lt_succ fewer, e, v, failed, rfl⟩

/-! ### One build -/

/-- What a benchmark is asked for: its runtime with its settings, and how builds are to be run. -/
structure Setting where
  runtime : Nat
  settings : Runtime
  run : RunConfig

/-- A runtime that is there is found. -/
theorem exec_runtime {h : Host σ} {id : Nat} {r : Runtime} (there : h.runtime? id = some r) :
    exec (HostM.runtime id) h = (.ok r, h) := by
  unfold HostM.runtime
  rw [exec_bind]
  show exec (HostM.ofOption .badHandle (h.runtime? id)) h = _
  rw [there]
  rfl

variable [Engine]

namespace Build

/-- A build is brought up as a runner. -/
def bringUp (printer : Printer σ) (x : Setting) (bytecode : Bytes) : HostM σ Nat :=
  HostM.createRunner printer x.runtime bytecode (Bytes.ofText x.run.eventId)
    (Bytes.ofText x.run.eventPayload) x.settings.config.module
    x.settings.config.execStackSize.toNat

/-- How the runs of a runner are made. -/
def bench (x : Setting) (runner : Nat) : Bench :=
  ⟨x.settings.commons, runner, x.run.threshold⟩

/-- A build is brought up, run and dropped. Its outcomes are those of the runs that were completed,
and its error is the one of the first step that failed. -/
inductive Goes (printer : Printer σ) (x : Setting) (b : Build) (bytecode : Bytes) (h : Host σ) :
    List Outcome → Option Error → Host σ → Prop
  /-- It could not be brought up. -/
  | stillborn {e : Error} {t : Host σ} (failed : exec (bringUp printer x bytecode) h = (.error e, t)) :
      Goes printer x b bytecode h [] (some e) t
  /-- It was run as often as it was to be. -/
  | completed {id : Nat} {outcomes : List Outcome} {u v : Host σ}
      (created : exec (bringUp printer x bytecode) h = (.ok id, u))
      (runs : Trail (fun h outcome t => Runs printer (bench x id) h b (.ok outcome) t) u outcomes v)
      (all : outcomes.length = x.run.repetitions.toNat) :
      Goes printer x b bytecode h outcomes none (v.dropRunner id)
  /-- A run failed. -/
  | broken {id : Nat} {outcomes : List Outcome} {e : Error} {u v w : Host σ}
      (created : exec (bringUp printer x bytecode) h = (.ok id, u))
      (runs : Trail (fun h outcome t => Runs printer (bench x id) h b (.ok outcome) t) u outcomes v)
      (fewer : outcomes.length < x.run.repetitions.toNat)
      (failed : Runs printer (bench x id) v b (.error e) w) :
      Goes printer x b bytecode h outcomes (some e) (w.dropRunner id)

/-- There are no more outcomes than repetitions. -/
theorem Goes.length_le {x : Setting} {b : Build} {bytecode : Bytes} {h t : Host σ}
    {outcomes : List Outcome} {e : Option Error} (goes : Goes printer x b bytecode h outcomes e t) :
    outcomes.length ≤ x.run.repetitions.toNat := by
  cases goes with
  | stillborn => exact Nat.zero_le _
  | completed _ _ all => exact Nat.le_of_eq all
  | broken _ _ fewer => exact Nat.le_of_lt fewer

/-- If nothing fails, there are as many. -/
theorem Goes.length_of_none {x : Setting} {b : Build} {bytecode : Bytes} {h t : Host σ}
    {outcomes : List Outcome} (goes : Goes printer x b bytecode h outcomes none t) :
    outcomes.length = x.run.repetitions.toNat := by
  cases goes with
  | completed _ _ all => exact all

/-- The runtime of a benchmark has been looked up, so what is left of a build is to bring it up, to run
it and to drop it. -/
theorem exec_benchmarkBuild (printer : Printer σ) (x : Setting) (b : Build) (bytecode : Bytes)
    {h : Host σ} (there : h.runtime? x.runtime = some x.settings) :
    exec (HostM.benchmarkBuild printer x.runtime x.run bytecode fun id =>
      b.once printer (bench x id)) h =
      match exec (bringUp printer x bytecode) h with
      | (.error e, u) => (.ok ([], some e), u)
      | (.ok id, u) => exec (do
          let result ← HostM.repeatedly (b.once printer (bench x id)) x.run.repetitions.toNat
          modify (·.dropRunner id)
          pure result) u := by
  unfold HostM.benchmarkBuild HostM.attempt
  rw [exec_bind, exec_runtime there]
  dsimp only
  rw [exec_bind, exec_tryCatch, exec_bind]
  show _ = match exec (HostM.createRunner printer x.runtime bytecode (Bytes.ofText x.run.eventId)
    (Bytes.ofText x.run.eventPayload) x.settings.config.module
    x.settings.config.execStackSize.toNat) h with
    | (.error e, u) => _
    | (.ok id, u) => _
  rcases exec (HostM.createRunner printer x.runtime bytecode (Bytes.ofText x.run.eventId)
    (Bytes.ofText x.run.eventPayload) x.settings.config.module
    x.settings.config.execStackSize.toNat) h with ⟨e | id, u⟩ <;> rfl

/-- **Builds.** A build of a benchmark goes one of its ways. -/
theorem goes_benchmarkBuild (printer : Printer σ) (x : Setting) (b : Build) (bytecode : Bytes)
    {h : Host σ} (there : h.runtime? x.runtime = some x.settings) :
    ∃ outcomes e t, Goes printer x b bytecode h outcomes e t ∧
      exec (HostM.benchmarkBuild printer x.runtime x.run bytecode fun id =>
        b.once printer (bench x id)) h = (.ok (outcomes, e), t) := by
  rw [exec_benchmarkBuild printer x b bytecode there]
  rcases created : exec (bringUp printer x bytecode) h with ⟨e | id, u⟩
  · exact ⟨[], some e, u, .stillborn created, rfl⟩
  · dsimp only
    rw [exec_bind]
    obtain ⟨outcomes, v, trail, ended⟩ :=
      trail_repeatedly (runs_once b printer (bench x id)) x.run.repetitions.toNat u
    rcases ended with ⟨all, done⟩ | ⟨fewer, e, w, failed, done⟩ <;> rw [done]
    · exact ⟨outcomes, none, _, .completed created trail all, rfl⟩
    · exact ⟨outcomes, some e, _, .broken created trail fewer failed, rfl⟩

end Build

/-! ### Both builds -/

/-- A benchmark: the plain build, and then, unless that has ended with an error, the instrumented
one. -/
inductive Benchmarked (printer : Printer σ) (x : Setting) (plain instrumented : Bytes) (h : Host σ) :
    Report → Host σ → Prop
  | first {outcomes : List Outcome} {e : Error} {t : Host σ}
      (goes : Build.plain.Goes printer x plain h outcomes (some e) t) :
      Benchmarked printer x plain instrumented h ⟨outcomes, [], some e⟩ t
  | both {outcomes outcomes' : List Outcome} {e : Option Error} {u t : Host σ}
      (goes : Build.plain.Goes printer x plain h outcomes none u)
      (goes' : Build.instrumented.Goes printer x instrumented u outcomes' e t) :
      Benchmarked printer x plain instrumented h ⟨outcomes, outcomes', e⟩ t

section

variable {x : Setting} {plain instrumented : Bytes} {h : Host σ}

/-- **Benchmarks.** A benchmark runs both builds, as long as its runtime stays. -/
theorem benchmarked_of_stays (there : h.runtime? x.runtime = some x.settings)
    (stays : ∀ result t, exec (HostM.benchmarkBuild printer x.runtime x.run plain fun id =>
      Build.plain.once printer (Build.bench x id)) h = (.ok result, t) →
        t.runtime? x.runtime = some x.settings) :
    ∃ report t, Benchmarked printer x plain instrumented h report t ∧
      exec (HostM.benchmark printer x.runtime x.run plain instrumented) h = (.ok report, t) := by
  obtain ⟨outcomes, e, u, goes, done⟩ :=
    Build.goes_benchmarkBuild printer x .plain plain there
  unfold HostM.benchmark
  rw [exec_bind, exec_runtime there]
  dsimp only
  rw [exec_bind]
  -- The second build is begun only if the first came to its end without an error.
  have first : exec (HostM.benchmarkBuild printer x.runtime x.run plain fun id =>
      HostM.announced printer x.settings.commons "plain" (HostM.runPlain printer id)) h =
      (.ok (outcomes, e), u) := done
  rw [first]
  dsimp only
  cases e with
  | some e => exact ⟨⟨outcomes, [], some e⟩, u, .first goes, rfl⟩
  | none =>
    obtain ⟨outcomes', e', t, goes', done'⟩ :=
      Build.goes_benchmarkBuild printer x .instrumented instrumented
        (stays (outcomes, none) u done)
    refine ⟨⟨outcomes, outcomes', e'⟩, t, .both goes goes', ?_⟩
    show exec (_ >>= _) u = _
    rw [exec_bind]
    have second : exec (HostM.benchmarkBuild printer x.runtime x.run instrumented fun id =>
        HostM.announced printer x.settings.commons "instrumented" do
          let outcome ← HostM.runInstrumented printer id x.run.threshold
          HostM.resetRunner id
          pure outcome) u = (.ok (outcomes', e'), t) := done'
    rw [second]
    rfl

/-- What the report of a benchmark says. -/
structure Report.Tells (report : Report) (repetitions : Nat) : Prop where
  /-- Without an error, every run was completed. -/
  complete : report.error = none →
    report.plain.length = repetitions ∧ report.instrumented.length = repetitions
  /-- No run is made too often. -/
  plain_le : report.plain.length ≤ repetitions
  instrumented_le : report.instrumented.length ≤ repetitions
  /-- The instrumented build is run only when the plain one is through. -/
  inOrder : report.instrumented ≠ [] → report.plain.length = repetitions

/-- A benchmark that succeeds tells of every repetition, in order. -/
theorem Benchmarked.tells {report : Report} {t : Host σ}
    (benchmarked : Benchmarked printer x plain instrumented h report t) :
    report.Tells x.run.repetitions.toNat := by
  cases benchmarked with
  | first goes => exact ⟨nofun, goes.length_le, Nat.zero_le _, fun some => absurd rfl some⟩
  | both goes goes' =>
    refine ⟨?_, goes.length_le, goes'.length_le, fun _ => goes.length_of_none⟩
    rintro rfl
    exact ⟨goes.length_of_none, goes'.length_of_none⟩

end

end Embedder
