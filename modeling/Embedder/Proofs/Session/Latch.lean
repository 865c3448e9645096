import Embedder.Proofs.Host.Pending
import Embedder.Proofs.Session.Steps

namespace Embedder

open Session (CallRequest Kind Runs Slots Step callEach empty hookedPrinter runWith stepWith)

/-!
# Latches over a session

Whatever a session is asked, a call leaves the latch of its instance as it is told to end: empty if it
succeeds, and with the fault that it fails with if the guest was unwound. A pending fault refuses
every call and stays, except that a refused run of a runner may clear it.

* `Step.Asks`, `Step.Settles`: the steps that set or clear a pending fault.
* `Step.Quiet`, `Session.Calm`: hooks that leave the fault of an instance alone.
* `Session.Latching`, `run_latches`: the latches, and that they are always kept so.
-/

namespace Session

/-! ### What sets or clears a fault -/

/-- Whether a step asks to set or clear the fault of an instance. -/
def Step.Asks (s : Session) (id : Nat) : Step → Prop
  | .inst name (.setException _) => s.app.names.get? ⟨.inst, name⟩ = some id
  | .inst name .clearException => s.app.names.get? ⟨.inst, name⟩ = some id
  | _ => False

/-- Whether a step is a run that clears the pending fault of an instance when it is refused. -/
def Step.Settles (s : Session) (id : Nat) (fault : Fault) : Step → Prop
  | .runner name .runPlain => Runs s name id ∧ s.Settles id plainMain fault
  | .runner name (.runInstrumented _) => Runs s name id ∧ s.Settles id instrumentedMain fault
  | _ => False

/-- A step that leaves the fault of an instance alone, whatever it finds, and brings along only hooks
that do so, too. -/
inductive Step.Quiet (id : Nat) : Step → Prop
  | intro {st : Step} (latches : ∀ s : Session, id < s.instances.next → ¬ st.Latches s id)
      (hooks : ∀ hook, st.Installs hook → ∀ st' ∈ hook, Quiet id st') : Quiet id st

end Session

/-- No hook of a session sets or clears the fault of an instance. -/
def Session.Calm (s : Session) (id : Nat) : Prop :=
  ∀ commons hook, s.app.hooks.get? commons = some hook → ∀ st ∈ hook, Step.Quiet id st

/-- Whether a step brings along only hooks that leave the fault of an instance alone. -/
def Session.Step.Brings (id : Nat) (st : Step) : Prop :=
  ∀ hook, st.Installs hook → ∀ st' ∈ hook, Step.Quiet id st'

/-! ### The latches -/

/-- The latches of a session are as calls leave them. -/
structure Session.Latching [Engine] (s : Session) : Prop where
  /-- A call that succeeds leaves nothing latched. -/
  returned : ∀ (v : Invoker) e name args results values v' t,
    s.environments.get? v.environment = some e → s.Sandboxed e.inst →
      v.call hookedPrinter name args results s = (.ok values, v', t) → t.Rests e.inst none
  /-- A call whose guest is unwound fails with the fault that it leaves latched: what a callback has
  raised meanwhile, or else a trap with the root cause. -/
  unwound : ∀ (v : Invoker) name args results (entry : Entry s v.environment name args results)
    cause after, s.Sandboxed entry.env.inst → entry.run hookedPrinter = (.error cause, after) →
      ∃ fault, (v.call hookedPrinter name args results s).1 = .error (.guestTrap fault) ∧
        (v.call hookedPrinter name args results s).2.2.Rests entry.env.inst (some fault) ∧
        (fault.kind ≠ .trap ∧ (∀ f, entry.Raises hookedPrinter f ↔ f = fault) ∨
          fault = ⟨.trap, cause⟩ ∧ ∀ f, ¬ entry.Raises hookedPrinter f)
  /-- A call of an exported function is refused with the pending fault, and changes nothing. -/
  refused : ∀ (v : Invoker) e name args results fault,
    s.environments.get? v.environment = some e → s.latch? e.inst = some (some fault) →
      s.exportsFunc e.inst name →
        v.call hookedPrinter name args results s =
          (.error (.guestTrap ⟨fault.kind, "pending exception: " ++ fault.message⟩), v.ready, s)
  /-- A pending fault stays, whatever is called. -/
  called : ∀ id fault (v : Invoker) name args results, s.latch? id = some (some fault) →
    s.Calm id → (v.call hookedPrinter name args results s).2.2.Rests id (some fault)
  /-- A pending fault stays, whatever else is asked for, except for what settles it. -/
  kept : ∀ id fault st, s.latch? id = some (some fault) → s.Calm id → st.Brings id →
    ¬ st.Asks s id → ¬ st.Settles s id fault →
      (stepWith hookedPrinter st s).2.Rests id (some fault)
  /-- A refused run that settles a pending fault has an outcome and clears the fault. -/
  settled : ∀ j r fault name more, s.runners.get? j = some r →
    s.latch? r.inst = some (some fault) → s.Settles r.inst name fault →
      ∃ outcome t, exec (HostM.runEntry hookedPrinter j name more) s = (.ok outcome, t) ∧
        t.latch? r.inst = some none

namespace Session

section

variable [HookRule] {s : Session} {id : Nat} {fault : Fault}

/-! ### Hooks that leave a fault alone -/

/-- The rule that hooks leave the fault of an instance alone, which there has been before. -/
structure HookRule.IsQuiet (id : Nat) : Prop where
  since : id < HookRule.since
  admits : ∀ hook, HookRule.admits hook ↔ ∀ st ∈ hook, Step.Quiet id st

/-- What leaves the fault of an instance alone. -/
def Spares (id : Nat) (e : Effect) : Prop :=
  e ≠ .latches id

theorem traced_of_quiet [Engine] (quiet : HookRule.IsQuiet id) : Traced
    (Spares id) hookedPrinter := by
  refine traced_hookedPrinter nofun fun hook admitted st member => ?_
  obtain ⟨latches, hooks⟩ := (quiet.admits hook).1 admitted st member
  refine ⟨fun s since => ⟨fun j latched eq => ?_, fun _ _ => nofun, fun _ _ => nofun, fun _ _ => nofun⟩,
    fun hook installed => ?_⟩
  · cases eq
    exact latches s (Nat.lt_of_lt_of_le quiet.since since) latched
  · exact (quiet.admits hook).2 (hooks hook installed)

/-- While its run is in progress, a runner whose instance has a pending fault is in hand. -/
theorem stuck_of_runs (sound : Config.Sound ⟨s, .none⟩) (chained : Config.Chained ⟨s, .none⟩)
    (pending : s.latch? id = some (some fault)) {name : String} {j : Nat}
    (named : s.app.names.get? ⟨.runner, name⟩ = some j) (runs : Runs s name id) :
    Config.Sound ⟨s.modifyNames (·.erase ⟨.runner, name⟩), Pending.none.pin .runner j⟩ ∧
      Config.Chained ⟨s.modifyNames (·.erase ⟨.runner, name⟩), Pending.none.pin .runner j⟩ ∧
        ∃ r e, r.inst = id ∧ Host.Stuck (s.modifyNames (·.erase ⟨.runner, name⟩)) j r e fault := by
  obtain ⟨j', r, named', present, rfl⟩ := runs
  cases named.symm.trans named'
  have lead : Leads (fun _ => True) ⟨s, .none⟩
      ⟨s.modifyNames (·.erase ⟨.runner, name⟩), Pending.none.pin .runner j⟩ :=
    leads_erase named trivial
  have sound' := lead.sound sound
  have chained' := lead.induct sound (fun _ _ _ step => step.chained) chained
  obtain ⟨e, stuck⟩ := sound'.stuck chained' present fun _ => pending
  exact ⟨sound', chained', r, e, rfl, stuck⟩

section

variable (quiet : HookRule.IsQuiet id) (sound : Config.Sound ⟨s, .none⟩)
  (pending : s.latch? id = some (some fault))

include quiet sound pending

/-- A call leaves a pending fault alone. -/
theorem rests_call [Engine] (v : Invoker) (name : String) (args : List HostValue)
    (results : List HostType) :
    (v.call hookedPrinter name args results s).2.2.Rests id (some fault) :=
  (leads_call (g := .none) (traced_of_quiet quiet) v (fun _ _ => nofun) nofun name args
    results).pending sound (fun spared => spared rfl) pending

variable (chained : Config.Chained ⟨s, .none⟩)

include chained

/-- A runner's run leaves a pending fault alone, unless it settles it. -/
theorem steers_actOnRunner_stuck [Engine] {name : String} {r : RunnerStep}
    (latched : (Step.runner name r).Latches s id)
    (stands : ¬ (Step.runner name r).Settles s id fault) :
    Steers (Spares id) (actOnRunner hookedPrinter name r) s .none := by
  have traced := traced_of_quiet quiet
  have denied : ¬ Spares id (.latches id) := fun spared => spared rfl
  cases r with
  | runPlain =>
    refine steers_away nofun fun j named => steers_answer _ ?_
    obtain ⟨sound', chained', r, e, rfl, stuck⟩ :=
      stuck_of_runs sound chained pending named latched
    exact keeps_runPlain_stuck traced sound' chained' denied stuck
      fun settles => stands ⟨latched, settles⟩
  | runInstrumented threshold =>
    refine steers_away nofun fun j named => steers_answer _ ?_
    obtain ⟨sound', chained', r, e, rfl, stuck⟩ :=
      stuck_of_runs sound chained pending named latched
    exact keeps_runInstrumented_stuck traced sound' chained' denied stuck threshold
      fun settles => stands ⟨latched, settles⟩
  | reset => cases latched
  | state => cases latched
  | takeInstance into => cases latched

/-- A step leaves a pending fault alone, unless it asks for something else, or settles it. -/
theorem rests_stepWith [Engine] {st : Step} (brings : st.Brings id) (asks : ¬ st.Asks s id)
    (stands : ¬ st.Settles s id fault) : (stepWith hookedPrinter st s).2.Rests id (some fault) := by
  suffices lead : Leads (Spares id) ⟨s, .none⟩ ⟨(stepWith hookedPrinter st s).2, .none⟩ from
    lead.pending sound (fun spared => spared rfl) pending
  by_cases latched : st.Latches s id
  · unfold Step.Latches at latched
    split at latched
    case h_1 => exact absurd latched asks
    case h_2 => exact absurd latched asks
    case h_3 =>
      exact leads_of_steers (steers_actOnRunner_stuck (r := .runPlain) quiet sound pending chained
        latched stands)
    case h_4 =>
      exact leads_of_steers (steers_actOnRunner_stuck (r := .runInstrumented _) quiet sound pending
        chained latched stands)
    case h_5 =>
      -- The instance is older than those of a benchmark.
      obtain ⟨i, -, there, -⟩ := Host.latch?_eq_some pending
      obtain ⟨c, present, -⟩ := Option.map_eq_some_iff.1 there
      have old := Pool.lt_next_of_get?_eq_some present
      omega
    case h_6 => exact latched.elim
  · refine leads_stepWith (traced_of_quiet quiet) nofun st s
      ⟨fun j latches eq => ?_, fun _ _ => nofun, fun _ _ => nofun, fun _ _ => nofun⟩
      fun hook installed => (quiet.admits hook).2 (brings hook installed)
    cases eq
    exact latched latches

end

/-! ### A session at any time -/

/-- Where no hook touches the fault of an instance, the session keeps to the rule that none does. -/
theorem sound_of_calm (sound : Config.Sound ⟨s, .none⟩) (calm : s.Calm id)
    (pending : s.latch? id = some (some fault)) :
    ∃ _ : HookRule, HookRule.IsQuiet id ∧ Config.Sound (⟨s, .none⟩ : Config Slots) := by
  obtain ⟨i, -, there, -⟩ := Host.latch?_eq_some pending
  obtain ⟨c, hc, -⟩ := Option.map_eq_some_iff.1 there
  have old := Pool.lt_next_of_get?_eq_some hc
  obtain ⟨-, counted, runtimes, modules, instances, present, single, custody⟩ := sound
  let rule : HookRule := ⟨id + 1, fun hook => ∀ st ∈ hook, Step.Quiet id st⟩
  exact ⟨rule, ⟨Nat.lt_succ_self id, fun _ => Iff.rfl⟩,
    ⟨⟨old, calm⟩, counted, runtimes, modules, instances, present, single, custody⟩⟩

theorem latching_of_sound [Engine] (sound : Config.Sound ⟨s, .none⟩)
    (chained : Config.Chained ⟨s, .none⟩) (linked : Config.Linked ⟨s, .none⟩) : s.Latching where
  returned := by
    intro v e name args results values v' t bound sandboxed done
    obtain ⟨entry, returned, after, ran⟩ := Entry.of_call_ok done
    cases bound.symm.trans entry.bound
    obtain ⟨i, there, idle, -⟩ := Host.callee_eq_ok entry.found
    have sandboxed := linked.sandboxed sound there idle sandboxed
    have rests := (entry.call_returned sandboxed ran).2
    rw [done] at rests
    exact rests
  unwound := by
    intro v name args results entry cause after sandboxed ran
    obtain ⟨i, there, idle, -⟩ := Host.callee_eq_ok entry.found
    exact entry.call_unwound (linked.sandboxed sound there idle sandboxed) ran
  refused _ _ _ _ _ _ bound pending exported := call_pending bound pending exported
  called := by
    intro id fault v name args results pending calm
    obtain ⟨rule, quiet, sound⟩ := sound_of_calm sound calm pending
    exact rests_call quiet sound pending v name args results
  kept := by
    intro id fault st pending calm brings asks stands
    obtain ⟨rule, quiet, sound⟩ := sound_of_calm sound calm pending
    exact rests_stepWith quiet sound pending chained brings asks stands
  settled := by
    intro j r fault name more present pending settles
    obtain ⟨e, stuck⟩ := sound.stuck chained present fun _ => pending
    have ends : Ends (HostM.runEntry hookedPrinter j name more) s _ _ :=
      ends_runEntry_pending stuck name more
    -- The run cannot end with an error, which settling rules out.
    rcases ran : exec (HostM.runEntry hookedPrinter j name more) s with ⟨error | outcome, t⟩
    · exact absurd settles (ends.of_error ran).1
    · exact ⟨outcome, t, rfl, (ends.of_ok ran).2.1⟩

end

theorem linked_empty : Config.Linked ⟨empty, .none⟩ :=
  fun _ _ _ _ h => (nomatch h)

/-- **Latches.** After any steps and then any calls of one invoker, whatever hooks and guests have done
meanwhile, the latches of a session are as calls leave them. -/
theorem run_latches [Engine] (steps : List Step) (v : Invoker)
    (requests : List (CallRequest × List HostValue)) :
    Latching ((callEach hookedPrinter v requests).run (runWith hookedPrinter steps empty).2).2 := by
  let rule : HookRule := .any
  have any : ∀ hook, HookRule.admits hook := fun _ => trivial
  have start := sound_empty rfl
  have lead := (leads_run any steps).trans
    (leads_callEach (traced_of_any any) v (fun _ _ _ _ => trivial) trivial requests)
  -- what guests are linked with is kept only where objects are chained, so both go together
  have both := lead.induct (P := fun c => c.Chained ∧ c.Linked) start
    (fun _ _ sound step h => ⟨step.chained h.1, step.linked sound h.1 h.2⟩)
    ⟨chained_empty, linked_empty⟩
  exact latching_of_sound (lead.sound start) both.1 both.2

/-! ### A refused run -/

/-- A program whose plain entry point returns zero. -/
def returningZero : Bytes :=
  [0x00, 0x61, 0x73, 0x6d, 0x01, 0x00, 0x00, 0x00,
    -- one type: two numbers in, one number out
    0x01, 0x07, 0x01, 0x60, 0x02, 0x7f, 0x7f, 0x01, 0x7f,
    -- one function of that type, exported as `sandbox_main`
    0x03, 0x02, 0x01, 0x00,
    0x07, 0x10, 0x01, 0x0c, 0x73, 0x61, 0x6e, 0x64, 0x62, 0x6f, 0x78, 0x5f, 0x6d, 0x61, 0x69, 0x6e,
    0x00, 0x00,
    -- its code
    0x0a, 0x06, 0x01, 0x04, 0x00, 0x41, 0x00, 0x0b]

/-- A runner, and an exit that is latched on its instance before it has run. -/
def exitLatched : List Step :=
  [.createRuntime "rt" {} [] [] none [],
    .runtime "rt" (.createRunner "r" returningZero [] [] ⟨1, 0⟩ 1),
    .runner "r" (.takeInstance "i"),
    .inst "i" (.setException ⟨.exit 3, "stop"⟩)]

/-- A run neither sets nor clears a fault that it finds pending. Yet if the fault is an exit, the run
is refused with it, takes it for its own outcome, and clears it. -/
theorem exit_cleared_by_refused_run :
    (runWith hookedPrinter exitLatched empty).2.latch? 0 = some (some ⟨.exit 3, "stop"⟩) ∧
      (stepWith hookedPrinter (.runner "r" .runPlain)
        (runWith hookedPrinter exitLatched empty).2).2.latch? 0 = some none := by
  decide +kernel

end Session

end Embedder
