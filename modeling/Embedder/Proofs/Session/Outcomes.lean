import Embedder.Proofs.Host.Outcomes
import Embedder.Proofs.Session.Delivery

namespace Embedder

open Session (Passes Slots Step empty hookedPrinter runWith stepWith)

/-!
# Outcomes and pending faults

A run that has an outcome has entered the guest, and the guest has come to that outcome in this very
run, except where a fault is pending that guests are ended with. Such a run is refused like any other
while a fault is pending, but it takes the refusal for the end of the guest: it has the outcome that
the fault stands for, and clears the fault.

* `Passes.proper`: what is true of all that a session passes through.
* `Session.Accountable`, `accountable_of_passes`: what outcomes rest on, and what becomes of pending
  faults.
* `exit_told_by_refused_run`: an exit that is told twice.
-/

/-- What the outcomes of runs rest on, and what becomes of faults that are pending where a run calls
its entry point. -/
structure Session.Accountable [Engine] (s : Session) : Prop where
  /-- A run with an outcome has entered the guest, which has come to the outcome in this run; or else
  the end of a guest was pending before. -/
  founded : ∀ (b : Build) id r threshold u outcome t, s.runners.get? id = some r →
    b.calling hookedPrinter id r.commons threshold s = u →
      exec (b.run hookedPrinter id threshold) s = (.ok outcome, t) →
        (∃ e, u.environments.get? r.environment = some e ∧
          ∃ entry : Entry u r.environment b.main (e.lengths ++ b.more threshold) [.i32],
            s.Sandboxed r.inst → entry.Comes hookedPrinter outcome) ∨
        ∃ fault, u.latch? r.inst = some (some fault) ∧ u.Settles r.inst b.main fault
  /-- A run that a pending fault refuses does not enter the guest, fails with the fault, or because the
  entry point is not there, and leaves the fault pending, and everything else as it was. -/
  refused : ∀ (b : Build) id r threshold u fault, s.runners.get? id = some r →
    b.calling hookedPrinter id r.commons threshold s = u → u.latch? r.inst = some (some fault) →
      ¬ u.Settles r.inst b.main fault →
        (∀ args results, IsEmpty (Entry u r.environment b.main args results)) ∧
        ∃ error, exec (b.run hookedPrinter id threshold) s = (.error error, u) ∧
          ((u.runners.get? id).isSome → error = u.refusal r.inst b.main fault)
  /-- If the pending fault is the end of a guest, the guest is not entered either. Yet the run goes on
  as if the guest had been ended with it just then, and the fault is cleared. -/
  mistaken : ∀ (b : Build) id r threshold u fault, s.runners.get? id = some r →
    b.calling hookedPrinter id r.commons threshold s = u → u.latch? r.inst = some (some fault) →
      u.Settles r.inst b.main fault →
        (∀ args results, IsEmpty (Entry u r.environment b.main args results)) ∧
        ((u.runners.get? id).isSome → ∃ outcome counter told v,
          Outcome.ofFault? counter told fault.kind = some outcome ∧
            v.latch? r.inst = some none ∧
            exec (b.run hookedPrinter id threshold) s =
              exec (b.closing hookedPrinter id r threshold outcome) v)

namespace Session

/-! ### What sessions pass through -/

theorem passes_calling [Engine] {printer : Printer Slots} {s t : Session} (b : Build)
    (id commons : Nat) (threshold : UInt64) (passes : Passes printer s t) :
    Passes printer s (b.calling printer id commons threshold t) := by
  cases b with
  | plain => exact passes.print commons _
  | instrumented => exact (passes.told id threshold).print commons _

section

variable [HookRule] (any : ∀ hook, HookRule.admits hook) {s : Session}
include any

/-- Whatever a session that starts with nothing passes through is proper. -/
theorem Passes.proper [Engine] (since : HookRule.since = 0) (passes : Passes hookedPrinter empty s) :
    ∃ g : Pending, Config.Proper ⟨s, g⟩ := by
  obtain ⟨g, -, -, lead⟩ := passes.leads any (g := .none) (traced_of_any any)
  exact ⟨g, lead.proper (proper_empty since)⟩

end

/-! ### Runs -/

section

variable [Engine] {s u : Session} (passes : Passes hookedPrinter empty s) {b : Build} {id : Nat}
  {r : Runner} {threshold : UInt64} {fault : Fault} (present : s.runners.get? id = some r)
  (announced : b.calling hookedPrinter id r.commons threshold s = u)
include passes announced

/-- Where a run calls its entry point, everything is proper, and what was there before is as it was
made. -/
theorem proper_calling : ∃ (_ : HookRule) (g g' : Pending), Config.Proper (⟨s, g⟩ : Config Slots) ∧
    Config.Proper (⟨u, g'⟩ : Config Slots) ∧ s.Since u := by
  let rule : HookRule := .any
  have any : ∀ hook, HookRule.admits hook := fun _ => trivial
  subst announced
  obtain ⟨g, proper⟩ := passes.proper any rfl
  obtain ⟨g', -, -, lead⟩ := (passes_calling b id r.commons threshold .here).leads any (g := g)
    (traced_of_any any)
  exact ⟨rule, g, g', proper, lead.proper proper, lead.since proper.sound⟩

include present

/-- A run with an outcome has entered the guest, or found the end of a guest pending. -/
theorem founded_run {outcome : Outcome} {t : Session}
    (ran : exec (b.run hookedPrinter id threshold) s = (.ok outcome, t)) :
    (∃ e, u.environments.get? r.environment = some e ∧
      ∃ entry : Entry u r.environment b.main (e.lengths ++ b.more threshold) [.i32],
        s.Sandboxed r.inst → entry.Comes hookedPrinter outcome) ∨
      ∃ fault, u.latch? r.inst = some (some fault) ∧ u.Settles r.inst b.main fault := by
  obtain ⟨rule, g, g', proper, proper', since⟩ := proper_calling passes announced
  rw [exec_run b threshold present, announced, exec_bind] at ran
  rcases entered : exec (HostM.runEntry hookedPrinter id b.main (b.more threshold)) u with
    ⟨error | first, v⟩ <;> rw [entered] at ran
  · cases ran
  cases there : u.runners.get? id with
  | none => cases (exec_runEntry_of_absent _ _ there).symm.trans entered
  | some r' =>
    obtain ⟨environment, inst⟩ := since.runner present there
    obtain ⟨e, i, manned⟩ := proper'.sound.manned proper'.chained there
    have founded :=
      (ends_runEntry_founded manned b.main (b.more threshold) proper'.delivers).of_ok entered
    rw [environment, inst] at founded
    refine founded.imp_left fun ⟨entry, comes⟩ =>
      ⟨e, environment ▸ manned.bound, entry, fun sandboxed => ?_⟩
    -- The runtime has the guest interface alone, and so has the guest that was entered.
    obtain ⟨j, there, idle, -⟩ := Host.callee_eq_ok entry.found
    obtain ⟨_, _, before⟩ := proper.sound.manned proper.chained present
    obtain ⟨c, hc, -⟩ := Option.map_eq_some_iff.1 before.there
    have sandboxed' := sandboxed.since since proper.chained (Pool.lt_next_of_get?_eq_some hc)
    rw [← since.own proper.chained present entry.bound] at sandboxed'
    have imports := proper'.linked.sandboxed proper'.sound there idle sandboxed'
    exact ((comes imports).closing b id r threshold v).of_ok ran

variable (pending : u.latch? r.inst = some (some fault))
include pending

/-- While a fault is pending, a run does not enter the guest. -/
theorem isEmpty_entry_calling (args : List HostValue) (results : List HostType) :
    IsEmpty (Entry u r.environment b.main args results) := by
  obtain ⟨_, g, -, proper, -, since⟩ := proper_calling passes announced
  exact Host.isEmpty_entry_pending pending fun e bound => since.own proper.chained present bound

/-- While a fault is pending, a run finds its runner stuck, if it finds it. -/
theorem stuck_calling (still : (u.runners.get? id).isSome) :
    ∃ r' e, r'.inst = r.inst ∧ u.Stuck id r' e fault := by
  obtain ⟨rule, g, g', -, proper', since⟩ := proper_calling passes announced
  obtain ⟨r', there⟩ := Option.isSome_iff_exists.1 still
  have inst := (since.runner present there).2
  obtain ⟨e, stuck⟩ := proper'.sound.stuck proper'.chained there fun _ => inst ▸ pending
  exact ⟨r', e, inst, stuck⟩

/-- A run that is refused fails and changes nothing more. -/
theorem refused_run (stands : ¬ u.Settles r.inst b.main fault) :
    ∃ error, exec (b.run hookedPrinter id threshold) s = (.error error, u) ∧
      ((u.runners.get? id).isSome → error = u.refusal r.inst b.main fault) := by
  rw [exec_run b threshold present, announced, exec_bind]
  by_cases still : (u.runners.get? id).isSome
  · obtain ⟨r', e, inst, stuck⟩ := stuck_calling passes present announced pending still
    have ends : Ends (HostM.runEntry hookedPrinter id b.main (b.more threshold)) u _ _ :=
      ends_runEntry_pending stuck b.main (b.more threshold)
    rw [inst] at ends
    rcases ran : exec (HostM.runEntry hookedPrinter id b.main (b.more threshold)) u with
      ⟨error | outcome, v⟩
    · obtain ⟨-, rfl, rfl⟩ := ends.of_error ran
      exact ⟨_, rfl, fun _ => rfl⟩
    · exact absurd (ends.of_ok ran).1 stands
  · rw [exec_runEntry_of_absent _ _ (by simpa using still)]
    exact ⟨_, rfl, fun there => absurd there still⟩

/-- A run that takes the refusal for the end of the guest goes on with the fault cleared. -/
theorem mistaken_run (settles : u.Settles r.inst b.main fault) (still : (u.runners.get? id).isSome) :
    ∃ outcome counter told v, Outcome.ofFault? counter told fault.kind = some outcome ∧
      v.latch? r.inst = some none ∧ exec (b.run hookedPrinter id threshold) s =
        exec (b.closing hookedPrinter id r threshold outcome) v := by
  rw [exec_run b threshold present, announced, exec_bind]
  obtain ⟨r', e, inst, stuck⟩ := stuck_calling passes present announced pending still
  have ends : Ends (HostM.runEntry hookedPrinter id b.main (b.more threshold)) u _ _ :=
    ends_runEntry_pending stuck b.main (b.more threshold)
  rw [inst] at ends
  rcases ran : exec (HostM.runEntry hookedPrinter id b.main (b.more threshold)) u with
    ⟨error | outcome, v⟩
  · exact absurd settles (ends.of_error ran).1
  · obtain ⟨-, cleared, meant⟩ := ends.of_ok ran
    exact ⟨outcome, _, _, v, meant, cleared, rfl⟩

end

/-- **Outcomes.** Whatever a session that starts with nothing passes through, its runs have outcomes
that the guest has come to, or that were pending as the end of a guest. -/
theorem accountable_of_passes [Engine] {s : Session} (passes : Passes hookedPrinter empty s) :
    s.Accountable where
  founded _ _ _ _ _ _ _ present announced ran := founded_run passes present announced ran
  refused _ _ _ _ _ _ present announced pending stands :=
    ⟨isEmpty_entry_calling passes present announced pending,
      refused_run passes present announced pending stands⟩
  mistaken _ _ _ _ _ _ present announced pending settles :=
    ⟨isEmpty_entry_calling passes present announced pending,
      mistaken_run passes present announced pending settles⟩

/-! ### An exit that is told twice -/

/-- A program that exits with seven when its function `quit` is called. Its plain entry point returns
zero. -/
def quitting : Bytes :=
  [0x00, 0x61, 0x73, 0x6d, 0x01, 0x00, 0x00, 0x00,
    -- three types: one number in; nothing at all; two numbers in, one number out
    0x01, 0x0e, 0x03, 0x60, 0x01, 0x7f, 0x00, 0x60, 0x00, 0x00, 0x60, 0x02, 0x7f, 0x7f, 0x01, 0x7f,
    -- one function of the first type is imported
    0x02, 0x14, 0x01, 0x03] ++ Bytes.ofText nativeSpace ++
    [0x0c] ++ Bytes.ofText "sandbox_exit" ++ [0x00, 0x00,
    -- one of each other type is exported, as `quit` and as `sandbox_main`
    0x03, 0x03, 0x02, 0x01, 0x02,
    0x07, 0x17, 0x02, 0x04] ++ Bytes.ofText "quit" ++ [0x00, 0x01,
    0x0c] ++ Bytes.ofText plainMain ++ [0x00, 0x02,
    -- their code
    0x0a, 0x0d, 0x02, 0x06, 0x00, 0x41, 0x07, 0x10, 0x00, 0x0b, 0x04, 0x00, 0x41, 0x00, 0x0b]

/-- A runner of the program, and a call of `quit` through another environment of its instance. -/
def quitted : List Step :=
  [.createRuntime "rt" {} [.all] [] none [],
    .runtime "rt" (.createRunner "r" quitting [] [] ⟨1, 0⟩ 1),
    .runner "r" (.takeInstance "i"),
    .inst "i" (.createEnvironment "e" 1),
    .environment "e" (.call ⟨"quit", [], []⟩)]

theorem accountable_quitted : Passes hookedPrinter empty (runWith hookedPrinter quitted empty).2 ∧
    (runWith hookedPrinter quitted empty).2.Accountable :=
  ⟨passes_runWith _ .here quitted, accountable_of_passes (passes_runWith _ .here quitted)⟩

/-- The exit is pending when the runner runs, and so the guest is not entered. Yet the run is told that
the guest has exited, and nothing is pending any more. -/
theorem exit_told_by_refused_run :
    (runWith hookedPrinter quitted empty).2.latch? 0 =
        some (some ⟨.exit 7, "guest exit with code 7"⟩) ∧
      (∀ args results, IsEmpty (Entry (Build.plain.calling hookedPrinter 0 0 0
        (runWith hookedPrinter quitted empty).2) 0 plainMain args results)) ∧
      (exec (HostM.runPlain hookedPrinter 0) (runWith hookedPrinter quitted empty).2).1 matches
        .ok (.exited 7) ∧
      (exec (HostM.runPlain hookedPrinter 0) (runWith hookedPrinter quitted empty).2).2.latch? 0 =
        some none := by
  have pending : (Build.plain.calling hookedPrinter 0 0 0
      (runWith hookedPrinter quitted empty).2).latch? 0 =
        some (some ⟨.exit 7, "guest exit with code 7"⟩) := by decide +kernel
  have own : (((Build.plain.calling hookedPrinter 0 0 0
      (runWith hookedPrinter quitted empty).2).environments.get? 0).map Environment.inst) =
        some 0 := by decide +kernel
  refine ⟨by decide +kernel, fun _ _ => Host.isEmpty_entry_pending pending fun e bound => ?_,
    by decide +kernel, by decide +kernel⟩
  rw [bound] at own
  exact Option.some.inj own

/-- The next run enters the guest, which returns zero. -/
example : ((runWith hookedPrinter (quitted ++ [.runner "r" .runPlain, .runner "r" .runPlain])
    empty).1.drop 5).map (fun
      | .result (.ok (.outcome outcome)) => some outcome
      | _ => none) = [some (.exited 7), some (.returned 0)] := by
  decide +kernel

end Session

end Embedder
