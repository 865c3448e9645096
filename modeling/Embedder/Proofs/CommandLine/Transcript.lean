import Embedder.CommandLine
import Embedder.Proofs.Host.Headers
import Embedder.Proofs.Session.Benchmark

namespace Embedder

/-!
# The transcript of a benchmark

A command line runs its benchmark on a new host, in a runtime that puts the configured header in
front of what is printed. The benchmark always yields a report. What it prints, and whether the
report has an error, is the same as in a runtime without a header, whose output is then passed
through the header.

* `Leads.hasCommons`: what guests share is never given up.
* `CommandLine.bareStart`, `CommandLine.like_start`: the runtime, with its header and without.
* `CommandLine.Transcribes`: a benchmark without a header, from its start to its report.
* `CommandLine.runConfigured_of_transcribes`, `CommandLine.exists_transcribes`: what the command
  line makes of it.
-/

/-! ### What guests share -/

section

variable {σ : Type} [Holder σ] [Rule σ] {allowed : Effect → Prop} {a b : Config σ} {id : Nat}

open Session (Kind)

theorem Change.hasCommons (step : Change allowed a b) (has : a.host.has .commons id) :
    b.host.has .commons id := by
  have modified : ∀ (h : Host σ) (j : Nat) (f : Commons → Commons), h.has .commons id →
      ({ h with commons := h.commons.modify j f } : Host σ).has .commons id := by
    intro h j f has
    simp only [Host.has, Pool.get?_modify] at has ⊢
    split
    · rwa [Option.isSome_map]
    · exact has
  cases step with
  | commons => exact modified _ _ _ has
  | lease => exact modified _ _ _ has
  | giveBack => exact modified _ _ _ has
  | runtimeMade =>
    simp only [Host.has, Pool.get?_insert] at has ⊢
    split
    · rfl
    · exact has
  | _ => exact has

/-- What guests share is never given up. -/
theorem Leads.hasCommons (lead : Leads allowed a b) (ha : a.Sound) (has : a.host.has .commons id) :
    b.host.has .commons id :=
  lead.induct ha (fun _ _ _ step => step.hasCommons) has

end

namespace CommandLine

/-! ### Starting -/

/-- How a runtime is created. -/
theorem exec_createRuntime {σ : Type} (config : RuntimeConfig) (groups : List NativeGroup)
    (output : Output) (clock : Clock) (h : Host σ) :
    exec (HostM.createRuntime config groups output clock) h =
      match Budget.ofCapacity config.heapSizeBytes.toNat, runtimeNatives groups with
      | .error e, _ => (.error e, h)
      | .ok budget, natives =>
        if config.maxWasmStack = 0 then (.error (.initFailed .runtime .zeroStackLimit), h)
        else
          match natives with
          | .error e => (.error e, h)
          | .ok natives =>
            (.ok (h.runtimes.next, h.commons.next),
              { h with
                commons := (h.commons.insert { budget, output, clock }).1
                runtimes := (h.runtimes.insert
                  ⟨{ commons := h.commons.next, config, natives }, 1⟩).1 }) := by
  unfold HostM.createRuntime
  -- The three ways to fail, in the order in which they are found.
  generalize Budget.ofCapacity config.heapSizeBytes.toNat = budget
  generalize runtimeNatives groups = natives
  cases budget with
  | error e => rfl
  | ok budget =>
    by_cases zero : config.maxWasmStack = 0
    · simp only [zero, if_true]
      rfl
    · simp only [zero, if_false]
      cases natives <;> rfl

/-- A new host with a runtime that has all callbacks, and an output of which no line is marked. -/
def bareStart (config : RuntimeConfig) (clock : Clock) : Except Error (Nat × Nat) × Host Unit :=
  exec (HostM.createRuntime config [.all] (.ofHeader none) clock) (Host.empty ())

theorem startHost_of_none {config : ConfigFile} (bare : config.run.printHeader = none)
    (clock : Clock) : startHost config clock = bareStart config.runtime clock := by
  rw [startHost, bare]
  rfl

/-- The runtime and what its guests share are there once it is created. -/
theorem bareStart_made {config : RuntimeConfig} {clock : Clock} {runtime commons : Nat}
    {h : Host Unit} (made : bareStart config clock = (.ok (runtime, commons), h)) :
    (∃ r, h.runtime? runtime = some r) ∧ h.has .commons commons := by
  rw [bareStart, exec_createRuntime] at made
  split at made
  case h_1 => cases made
  case h_2 =>
    split at made
    case isTrue => cases made
    case isFalse =>
      split at made
      case h_1 => cases made
      case h_2 =>
        cases made
        constructor
        · simp [Host.runtime?, Pool.get?_insert]
        · simp [Host.has, Pool.get?_insert]

/-- With a header, the same runtime is created, or it fails in the same way. -/
theorem like_start {config : ConfigFile} {header : String}
    (marked : config.run.printHeader = some header) (clock : Clock) :
    (startHost config clock).1 = (bareStart config.runtime clock).1 ∧
      ∀ runtime commons, (bareStart config.runtime clock).1 = .ok (runtime, commons) →
        (bareStart config.runtime clock).2.Like (.headed Host.emit (Bytes.ofText header) commons)
          (startHost config clock).2 := by
  have start : startHost config clock = exec (HostM.createRuntime config.runtime [.all]
      (.ofHeader (some (Bytes.ofText header))) clock) (Host.empty ()) := by
    rw [startHost, marked]
    rfl
  rw [start, bareStart, exec_createRuntime, exec_createRuntime]
  -- Both starts fail for the same reasons, none of which has to do with the header.
  generalize Budget.ofCapacity config.runtime.heapSizeBytes.toNat = budget
  generalize runtimeNatives [.all] = natives
  rcases budget with e | budget
  · exact ⟨rfl, by rintro _ _ ⟨⟩⟩
  · by_cases zero : config.runtime.maxWasmStack = 0
    · simp only [if_pos zero, true_and]
      rintro _ _ ⟨⟩
    · simp only [if_neg zero]
      rcases natives with e | natives
      · exact ⟨rfl, by rintro _ _ ⟨⟩⟩
      · refine ⟨rfl, ?_⟩
        rintro _ _ ⟨⟩
        have empty : (Pool.empty : Pool Commons).Like
            (fun id => Commons.Like
              ((Difference.headed (σ := Unit) Host.emit (Bytes.ofText header) 0).output id))
            Pool.empty := ⟨rfl, fun _ => .none⟩
        exact
          { commons := empty.insert ⟨rfl, rfl, .fresh _⟩
            runtimes := .refl _
            modules := .refl _
            instances := .refl _
            environments := rfl
            blocks := rfl
            runners := rfl
            released := rfl
            app := ⟨fun _ _ _ _ => rfl, rfl⟩ }

/-! ### Benchmarks -/

/-- What is passed on of a text if every line gets the header, provided that there is one. -/
def passed (header : Option String) (text : Bytes) : Bytes :=
  match header with
  | none => text
  | some header => ((HeaderSink.ofHeader (Bytes.ofText header)).print text).1

variable [Engine]

/-- A benchmark in a new runtime without a header: its report, and what the guests shared in the
end. -/
inductive Transcribes (config : ConfigFile) (plain instrumented : Bytes) (clock : Clock) :
    Report → Commons → Prop
  | mk {runtime commons : Nat} {h t : Host Unit} {report : Report} {c : Commons}
    (created : bareStart config.runtime clock = (.ok (runtime, commons), h))
    (ran : exec (HostM.benchmark Host.emit runtime config.run plain instrumented) h =
      (.ok report, t))
    (shared : t.commons? commons = some c) :
    Transcribes config plain instrumented clock report c

omit [Engine] in
theorem sound_emptyHost [Rule Unit] (admits : Rule.admits 0 ()) :
    Config.Sound (⟨Host.empty (), .none⟩ : Config Unit) where
  admitted := admits
  counted := by
    intro k id _
    have holders : (Host.empty ()).holders k id = 0 := by cases k <;> rfl
    have loaned : Pending.none.loaned k id = 0 := by cases k <;> rfl
    simp only [holders, loaned]
    rfl
  runtimes := fun _ _ h => nomatch h
  modules := fun _ _ h => nomatch h
  instances := fun _ _ h => nomatch h
  present := fun _ _ h => nomatch h
  single := fun _ _ _ h => nomatch h
  custody := fun _ _ h => nomatch h

/-- A benchmark always yields a report once its runtime is created. -/
theorem exists_transcribes {config : ConfigFile} {clock : Clock} {runtime commons : Nat}
    (created : (bareStart config.runtime clock).1 = .ok (runtime, commons))
    (plain instrumented : Bytes) :
    ∃ report c, Transcribes config plain instrumented clock report c := by
  -- Only that counts are right matters here, so there is nothing else to keep to.
  let rule : Rule Unit := ⟨fun _ _ => True, fun _ _ => trivial⟩
  obtain ⟨h, made⟩ : ∃ h, bareStart config.runtime clock = (.ok (runtime, commons), h) :=
    ⟨_, Prod.ext created rfl⟩
  have start := sound_emptyHost trivial
  have lead : Leads (fun _ => True) ⟨Host.empty (), .none⟩ ⟨h, Pending.none.pin .runtime runtime⟩ :=
    (takes_createRuntime config.runtime [.all] (.ofHeader none) clock).of_ok made
  have sound := lead.sound start
  have fresh : Fresh (fun _ => True) h :=
    ⟨fun _ _ => trivial, fun _ _ => trivial, fun _ _ => trivial⟩
  obtain ⟨⟨r, there⟩, shared⟩ := bareStart_made made
  obtain ⟨report, t, -, ran⟩ := benchmarked_of_pinned traced_emit fresh sound there config.run plain
    instrumented
  have keeps := (keeps_benchmark (g := Pending.none.pin .runtime runtime) traced_emit fresh runtime
    config.run plain instrumented).of_ok ran
  obtain ⟨c, kept⟩ := Option.isSome_iff_exists.1 (keeps.hasCommons sound shared)
  exact ⟨report, c, .mk made ran kept⟩

theorem runConfigured_of_error {config : ConfigFile} {clock : Clock} {e : Error}
    (refused : (bareStart config.runtime clock).1 = .error e) (plain instrumented : Bytes) :
    runConfigured config plain instrumented clock =
      .failed ("Failed to create runtime: " ++ e.message) := by
  obtain ⟨h, started⟩ : ∃ h, startHost config clock = (.error e, h) := by
    cases header : config.run.printHeader with
    | none =>
      have same := congrArg Prod.fst (startHost_of_none header clock)
      exact ⟨_, Prod.ext (same.trans refused) rfl⟩
    | some text => exact ⟨_, Prod.ext ((like_start header clock).1.trans refused) rfl⟩
  rw [runConfigured, started]

/-- What a command line makes of a benchmark. -/
theorem runConfigured_of_transcribes {config : ConfigFile} {plain instrumented : Bytes}
    {clock : Clock} {report : Report} {c : Commons}
    (transcribes : Transcribes config plain instrumented clock report c) :
    runConfigured config plain instrumented clock =
      { status := if report.error.isSome then 1 else 0
        output := passed config.run.printHeader c.output.captured
        problem := report.error.map fun e => "Benchmark failed: " ++ e.message
        asked := c.clock.asked } := by
  obtain @⟨runtime, commons, h, t, _, _, created, ran, shared⟩ := transcribes
  cases header : config.run.printHeader with
  | none =>
    have ran : (HostM.benchmark Host.emit runtime config.run plain instrumented).run h =
      (.ok report, t) := ran
    rw [runConfigured, startHost_of_none header, created]
    simp only [ran, shared, passed]
  | some text =>
    -- The benchmark goes by nothing of the header, so it ends in the same way in a marked runtime.
    obtain ⟨same, like⟩ := like_start header clock
    rw [created] at same like
    obtain ⟨k, started⟩ : ∃ k, startHost config clock = (.ok (runtime, commons), k) :=
      ⟨(startHost config clock).2, Prod.ext same rfl⟩
    have like := like runtime commons rfl
    rw [started] at like
    obtain ⟨ends, like⟩ := ((blind_benchmark evenhanded_silent runtime config.run plain
      instrumented).ends h k like).resolve_left (Host.not_lost rfl)
    rcases marked : exec (HostM.benchmark Host.emit runtime config.run plain instrumented) k
      with ⟨result, u⟩
    rw [ran, marked] at ends like
    obtain rfl : Except.ok report = result := ends
    have captured := like.headed.captured
    have clocks := like.headed.clock commons
    rw [shared, Option.map_some, Option.map_eq_some_iff] at captured clocks
    obtain ⟨c', shared', captured⟩ := captured
    obtain ⟨c'', shared'', clocks⟩ := clocks
    cases shared'.symm.trans shared''
    have ran : (HostM.benchmark Host.emit runtime config.run plain instrumented).run k =
      (.ok report, u) := marked
    have captured : c'.output.captured = passed (some text) c.output.captured :=
      captured.trans (HeaderSink.mark_eq_headed _ _).symm
    rw [runConfigured, started]
    simp only [ran, shared', captured, clocks]

end CommandLine

end Embedder
