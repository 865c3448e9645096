import Embedder.Proofs.Host.Standing

namespace Embedder

/-!
# What a runner is asked for

A run calls an entry point, and settles how the call has ended: a fault that is meant as the end of a
guest is cleared, and every other one stays latched. A reset leaves latched what was latched. All of this
is about a runner that is at rest, and that printing leaves alone.

* `exec_settle_error`, `ends_settle_unwound`: what becomes of a guest that was unwound.
* `ends_runEntry_entry`, `ends_runEntry_calm`: calls of entry points while nothing is latched.
* `Host.Waits`: a runner that waits for what it is asked for next.
* `ends_run_calm`, `exec_run_barred`: runs with nothing latched, and with a fault that stays.
* `waits_resetRunner`: resets.
-/

variable {σ : Type} {printer : Printer σ} {h : Host σ} {quiet : Host σ → Prop} {id : Nat} {r : Runner}
  {e : Environment} {s : Store}

/-! ### Settling -/

/-- An error is settled by what it means, and where it is the end that a guest was meant to have, the
fault is cleared. -/
theorem exec_settle_error (stands : h.Stands id r e s) (error : Error) :
    exec (HostM.settle id (.error error)) h =
      match error.faultKind?.bind (Outcome.ofFault? e.userData.instructionCount r.threshold) with
      | none => (.error error, h)
      | some outcome => (.ok outcome,
        h.modifyInstance r.inst fun i => { i with store := some { s with latch := none } }) := by
  unfold HostM.settle
  dsimp only
  rw [exec_bind, exec_runner, stands.present]
  show exec (HostM.environment r.environment >>= _) h = _
  rw [exec_bind, exec_environment stands.bound]
  dsimp only
  rcases error.faultKind?.bind (Outcome.ofFault? e.userData.instructionCount r.threshold) with
    _ | outcome
  · rfl
  · show exec (HostM.clearException r.inst >>= _) h = _
    unfold HostM.clearException
    rw [exec_bind, exec_bind, exec_store stands.idle]
    rfl

/-- The fault that an error reports. -/
def Error.fault? : Error → Option Fault
  | guestTrap fault => some fault
  | _ => none

/-- The kind of a fault that an error tells of. -/
theorem Error.map_fault? (error : Error) : error.fault?.map Fault.kind = error.faultKind? := by
  cases error <;> rfl

/-- An error without a kind of fault tells of none. -/
theorem Error.fault?_eq_none {error : Error} (none : error.faultKind? = none) :
    error.fault? = .none := by
  rwa [← error.map_fault?, Option.map_eq_none_iff] at none

/-- An error that is no fault does not halt a guest. -/
theorem Error.isHalt_eq_false {error : Error} (none : error.faultKind? = none) :
    error.isHalt = false := by
  rw [isHalt, none]
  rfl

/-- Counters are a matter of the guest. -/
theorem Store.counter?_congr {s s' : Store} (same : s'.guest = s.guest) (c : Caller) (name : String) :
    s'.counter? c name = s.counter? c name := by
  unfold counter?
  rw [same]

/-- The fault of a guest that was unwound is latched. -/
theorem Store.latchFailure_latch (s : Store) (cause : String) :
    (s.latchFailure cause).2.latch = some (s.latchFailure cause).1 := by
  unfold latchFailure
  split
  case h_1 fault latched => exact latched
  case h_2 => rfl

/-- Only a counter past its threshold makes an outcome that says so. -/
theorem Outcome.kind_of_thresholdExceeded {counter threshold counter' threshold' : UInt64}
    {kind : FaultKind}
    (meant : ofFault? counter threshold kind = some (.thresholdExceeded counter' threshold')) :
    kind = .counterExceeded := by
  cases kind with
  | counterExceeded => rfl
  | _ => cases meant

/-- A refusal is about the exports of the store at rest. -/
theorem Host.refusal_congr {h h' : Host σ} {inst : Nat} (same : h'.store? inst = h.store? inst)
    {name : String} {fault : Fault} :
    h'.refusal inst name fault = h.refusal inst name fault := by
  have exports : h'.exportsFunc inst name = h.exportsFunc inst name :=
    congrArg (Option.any fun s : Store => (s.guest.exportedFunc? name).isSome) same
  rw [refusal, refusal, exports]

/-! ### Calls of entry points -/

/-- The environment has recorded the counter of the guest, and that it is past the threshold. -/
def Store.CountedBy (s : Store) (e : Environment) : Prop :=
  e.userData.thresholdExceeded = true ∧
    ∃ c, s.counter? c counterGlobal = some e.userData.instructionCount

/-- A runner is left with nothing latched, and where the guest was ended at its threshold, with what
the counter was. -/
def Host.Cleared (h : Host σ) (quiet : Host σ → Prop) (id : Nat) (r : Runner) (outcome : Outcome) :
    Prop :=
  quiet h ∧ ∃ e s, h.Stands id r e s ∧ s.latch = none ∧
    ∀ counter threshold, outcome = .thresholdExceeded counter threshold → s.CountedBy e

/-- A runner is left with the fault latched that an error reports, if it reports one. -/
def Host.Failed (h : Host σ) (quiet : Host σ → Prop) (id : Nat) (r : Runner) (error : Error) : Prop :=
  quiet h ∧ error.isHalt = false ∧ ∃ e s, h.Stands id r e s ∧ s.latch = error.fault?

section

variable (discreet : Discreet printer quiet id r.environment r.inst) (stands : h.Stands id r e s)
  (calm : quiet h)
include discreet stands calm

/-- **Unwound guests.** The fault that a guest has left latched stays latched, unless the guest was
meant to end with it. -/
theorem ends_settle_unwound {fault : Fault} (latched : s.latch = some fault)
    (counted : fault.kind = .counterExceeded → s.CountedBy e) :
    Ends (HostM.settle id (.error (.guestTrap fault))) h
      (fun outcome t => t.Cleared quiet id r outcome) fun error t => t.Failed quiet id r error := by
  unfold Ends
  rw [exec_settle_error stands]
  dsimp only [Error.faultKind?, Option.bind_some]
  have halts := Outcome.isSome_ofFault? e.userData.instructionCount r.threshold fault.kind
  cases meant : Outcome.ofFault? e.userData.instructionCount r.threshold fault.kind with
  | none =>
    rw [meant] at halts
    exact ⟨calm, halts.symm, e, s, stands, latched⟩
  | some outcome =>
    refine ⟨discreet.putStore calm _ _, e, { s with latch := none }, stands.putStore _, rfl, ?_⟩
    rintro counter threshold rfl
    exact counted (Outcome.kind_of_thresholdExceeded meant)

variable [Holder σ] [Rule σ] {g : Pending} (traced : Traced (fun _ => True) printer)
  (proper : Config.Proper ⟨h, g⟩) (sandboxed : s.guest.Sandboxed) (name : String)
  (more : List HostValue)
include traced proper sandboxed

/-- **Entered guests.** Where the call of a run enters the guest, what is latched in the end is the
fault that the run has failed with, if there is any. -/
theorem ends_runEntry_entry [Engine] (entry : Entry h r.environment name (e.lengths ++ more) [.i32]) :
    Ends (HostM.runEntry printer id name more) h
      (fun outcome t => t.Cleared quiet id r outcome) fun error t => t.Failed quiet id r error := by
  obtain ⟨i, manned, -⟩ := stands.manned
  cases entry.store_of_idle stands.bound stands.own stands.idle
  have proper' := (leads_call (g := g) (h := h) traced (.ofEnvironment r.environment)
    (fun _ _ => trivial) trivial name (e.lengths ++ more) [.i32]).proper proper
  -- Either way the call lands with the store that the guest has left, and what is settled is its end.
  rcases ran : entry.run printer with ⟨cause | values, after⟩
  · obtain ⟨v', call⟩ := entry.call_of_error (v := .ofEnvironment r.environment) ran
    obtain ⟨fault, told, -, raised⟩ :=
      entry.call_unwound (v := .ofEnvironment r.environment) sandboxed ran
    have landed := entry.stands_landed (g := g) discreet stands calm
      (after.store.reclaim.latchFailure cause).2
    rw [call] at told proper'
    rw [ran] at landed
    cases told
    obtain ⟨userData, lent, stands', calm'⟩ := landed proper'.sound proper'.chained
    unfold Ends
    rw [exec_runEntry manned, call]
    refine ends_settle_unwound discreet stands' calm' (Store.latchFailure_latch _ _) fun kind => ?_
    -- The fault is not the trap that calls latch on their own, and so the guest has raised it.
    have raises : entry.Raises printer (after.store.reclaim.latchFailure cause).1 := by
      rcases raised with ⟨-, raises⟩ | ⟨trap, -⟩
      · exact (raises _).2 rfl
      · rw [trap] at kind
        cases kind
    obtain ⟨_, _, c, active, exceeded, count⟩ := entry.recorded_of_raises sandboxed raises kind
    rw [ran] at active count
    cases active.symm.trans lent
    -- What is latched makes no difference to the counter.
    refine ⟨exceeded, c, ?_⟩
    rw [Store.counter?_congr (after.store.reclaim.latchFailure_same cause).1]
    exact count
  · obtain ⟨v', call⟩ := entry.call_of_ok (v := .ofEnvironment r.environment) ran
    obtain ⟨-, answer, told, types, -⟩ :=
      proper.delivers.answers printer (.ofEnvironment r.environment) _ _ _ entry values after ran
    have latch : after.store.latch = none := ((entry.latched sandboxed).of_ok ran).1
    have landed := entry.stands_landed (g := g) discreet stands calm after.store.reclaim
    rw [call] at told proper'
    rw [ran] at landed
    obtain ⟨userData, -, stands', calm'⟩ := landed proper'.sound proper'.chained
    -- The call has asked for one number, and so there is one.
    obtain ⟨v, rfl, type⟩ := List.map_eq_singleton_iff.1 types
    unfold Ends
    rw [exec_runEntry manned, call]
    dsimp only at told ⊢
    rw [told]
    cases v with
    | i32 status =>
      refine ⟨calm', _, _, stands', latch, ?_⟩
      rintro _ _ ⟨⟩
    | _ => cases type

/-- **Calm runners.** A run that finds nothing latched leaves latched what it fails with, if that is a
fault. -/
theorem ends_runEntry_calm [Engine] (clear : s.latch = none) :
    Ends (HostM.runEntry printer id name more) h
      (fun outcome t => t.Cleared quiet id r outcome) fun error t => t.Failed quiet id r error := by
  obtain ⟨i, manned, idle⟩ := stands.manned
  by_cases admitted : i.Admits name (e.lengths ++ more) [.i32]
  · obtain ⟨entry, -, -⟩ := admitted.exists_entry (v := .ofEnvironment r.environment)
      manned.bound (manned.own ▸ manned.there)
    exact ends_runEntry_entry discreet stands calm traced proper sandboxed name more entry
  · obtain ⟨error, refuses, turned_down⟩ : ∃ error, i.Refuses name (e.lengths ++ more) [.i32] error ∧
        (Invoker.ofEnvironment r.environment).TurnedDown printer h name (e.lengths ++ more) [.i32]
          error :=
      Instance.exists_refusal admitted manned.bound (manned.own ▸ manned.there)
    -- No fault is pending, and so it is none that the run is refused with.
    have none : error.faultKind? = none := by
      cases refuses with
      | pending free exported latched =>
        cases idle.symm.trans free
        cases clear.symm.trans latched
      | _ => rfl
    unfold Ends
    rw [exec_runEntry manned, turned_down.answer, turned_down.host, exec_settle_error stands, none]
    refine ⟨calm, Error.isHalt_eq_false none, e, s, stands, ?_⟩
    rw [clear, Error.fault?_eq_none none]

end

/-! ### Runs -/

/-- A runner waits for what it is asked for next, with what is latched. -/
def Host.Waits (h : Host σ) (quiet : Host σ → Prop) (id : Nat) (r : Runner) (latch : Option Fault) :
    Prop :=
  quiet h ∧ ∃ threshold counter e s, h.Stands id { r with threshold, counter } e s ∧ s.latch = latch

/-- A runner, its environment and its guest say the same of a counter that is past its threshold. -/
structure Host.Concurs (h : Host σ) (id environment inst : Nat) (counter : UInt64) : Prop where
  runner : (h.runners.get? id).map Runner.counter = some counter
  environment : (h.environments.get? environment).map
    (fun e => (e.userData.instructionCount, e.userData.thresholdExceeded)) = some (counter, true)
  guest : exec (HostM.readCounter inst) h = (.ok counter, h)

/-- Where an instrumented run says that the counter is past the threshold, this is the threshold of the
run, and everybody says the same of the counter. -/
def Host.BearsOut (h : Host σ) (id environment inst : Nat) (b : Build) (threshold : UInt64)
    (outcome : Outcome) : Prop :=
  b = .instrumented → ∀ counter told, outcome = .thresholdExceeded counter told →
    told = threshold ∧ h.Concurs id environment inst counter

/-- The runner when a run calls the entry point. -/
def Build.told (threshold : UInt64) (r : Runner) : Build → Runner
  | plain => r
  | instrumented => { r with threshold }

@[simp] theorem Build.told_inst (b : Build) (threshold : UInt64) (r : Runner) :
    (b.told threshold r).inst = r.inst := by
  cases b <;> rfl

@[simp] theorem Build.told_environment (b : Build) (threshold : UInt64) (r : Runner) :
    (b.told threshold r).environment = r.environment := by
  cases b <;> rfl

/-- A run announces itself, calls the entry point, and closes. -/
theorem ends_run_iff [Engine] {b : Build} {threshold : UInt64} (present : h.runners.get? id = some r)
    {Q : Outcome → Host σ → Prop} {E : Error → Host σ → Prop} :
    Ends (b.run printer id threshold) h Q E ↔
      Ends (HostM.runEntry printer id b.main (b.more threshold) >>=
        b.closing printer id r threshold) (b.calling printer id r.commons threshold h) Q E := by
  unfold Ends
  rw [exec_run b threshold present]

section

variable (discreet : Discreet printer quiet id r.environment r.inst)
include discreet

/-- Until a run calls the entry point, nothing happens to the runner but that it is told the
threshold. -/
theorem stands_calling (stands : h.Stands id r e s) (calm : quiet h) (b : Build) (threshold : UInt64) :
    quiet (b.calling printer id r.commons threshold h) ∧
      (b.calling printer id r.commons threshold h).Stands id (b.told threshold r) e s := by
  cases b with
  | plain => exact ⟨discreet.stays _ _ _ calm, discreet.stands stands calm _ _⟩
  | instrumented =>
    have calm' := discreet.record calm (fun r => { r with threshold }) fun _ => rfl
    have told := stands.record (fun r => { r with threshold }) rfl rfl
    exact ⟨discreet.stays _ _ _ calm',
      Discreet.stands (r := { r with threshold }) discreet told calm' _ _⟩

omit discreet in
/-- Reading a counter changes nothing, and where it fails, this is not a fault. -/
theorem ends_readCounter {inst : Nat} (idle : h.store? inst = some s) :
    Ends (HostM.readCounter inst) h
      (fun counter t => t = h ∧ s.reading counterGlobal = .ok counter)
      fun error t => t = h ∧ error.faultKind? = none := by
  unfold Ends HostM.readCounter
  rw [exec_getUInt64 idle]
  cases read : s.reading counterGlobal with
  | ok counter => exact ⟨rfl, rfl⟩
  | error error => exact ⟨rfl, Store.reading_error read⟩

/-- **Ends of runs.** Once there is an outcome, the counter of an instrumented build is read, which is
the one that the environment has recorded if the guest was ended at its threshold. -/
theorem ends_closing (b : Build) (threshold : UInt64) {outcome : Outcome}
    (cleared : h.Cleared quiet id (b.told threshold r) outcome) :
    Ends (b.closing printer id r threshold outcome) h
      (fun outcome t => t.Waits quiet id r none ∧
        t.BearsOut id r.environment r.inst b threshold outcome)
      fun error t => t.Waits quiet id r none ∧ error.faultKind? = none := by
  obtain ⟨calm, e, s, stands, latch, counted⟩ := cleared
  cases b with
  | plain =>
    refine ⟨⟨calm, r.threshold, r.counter, e, s, stands, latch⟩, ?_⟩
    rintro ⟨⟩
  | instrumented =>
    have stands : h.Stands id { r with threshold } e s := stands
    -- A counter that cannot be read is an error of the run, but nothing is latched because of it.
    refine ends_bind ((ends_readCounter stands.idle).mono (fun _ _ read => read) ?_) ?_
    · rintro error _ ⟨rfl, none⟩
      exact ⟨⟨calm, threshold, r.counter, e, s, stands, latch⟩, none⟩
    · rintro counter _ ⟨rfl, read⟩
      simp only [HostM.modifyRunner, HostM.printText, ends_bind_iff, ends_modify, ends_pure]
      have counts := stands.record (fun r => { r with counter }) rfl rfl
      have calm' := discreet.record calm (fun r => { r with counter }) fun _ => rfl
      have stands' := Discreet.stands (r := { r with threshold, counter }) discreet counts calm'
        r.commons (Bytes.ofText s!"Threshold: {threshold}, Counter: {counter}\n")
      refine ⟨⟨discreet.stays _ _ _ calm', threshold, counter, e, s, stands', latch⟩, ?_⟩
      rintro - count told exceeded
      -- The outcome has got the counter and the threshold of this run.
      cases outcome with
      | thresholdExceeded _ _ =>
        cases exceeded
        obtain ⟨past, c, count⟩ := counted _ _ rfl
        have recorded := Store.reading_eq_ok read count
        refine ⟨rfl, ?_, ?_, ?_⟩
        · rw [stands'.present]
          rfl
        · rw [stands'.bound, Option.map_some, recorded, past]
        · exact (exec_getUInt64 stands'.idle _).trans (by rw [read])
      | returned _ => cases exceeded
      | exited _ => cases exceeded

omit discreet in
/-- A runner that was told a threshold waits as it did before. -/
theorem Host.Stands.waits {b : Build} {threshold : UInt64}
    (stands : h.Stands id (b.told threshold r) e s) (calm : quiet h) :
    h.Waits quiet id r s.latch := by
  cases b with
  | plain => exact ⟨calm, r.threshold, r.counter, e, s, stands, rfl⟩
  | instrumented => exact ⟨calm, threshold, r.counter, e, s, stands, rfl⟩

/-- **Calm runs.** A run that finds nothing latched leaves latched what it fails with, if that is a
fault. -/
theorem ends_run_calm [Engine] [Holder σ] [Rule σ] {g : Pending}
    (traced : Traced (fun _ => True) printer)
    (proper : Config.Proper ⟨h, g⟩) (stands : h.Stands id r e s) (calm : quiet h)
    (sandboxed : s.guest.Sandboxed) (clear : s.latch = none) (b : Build) (threshold : UInt64) :
    Ends (b.run printer id threshold) h
      (fun outcome t => t.Waits quiet id r none ∧
        t.BearsOut id r.environment r.inst b threshold outcome)
      fun error t => t.Waits quiet id r error.fault? ∧ error.isHalt = false := by
  have proper' := (leads_calling (g := g) (h := h) traced b id r.commons threshold).proper proper
  obtain ⟨calm', stands'⟩ := stands_calling discreet stands calm b threshold
  -- The call of the entry point is the one of a calm host, with the threshold that the build
  -- sets.
  have runs : Ends (HostM.runEntry printer id b.main (b.more threshold))
      (b.calling printer id r.commons threshold h)
      (fun outcome t => t.Cleared quiet id (b.told threshold r) outcome)
      fun error t => t.Failed quiet id (b.told threshold r) error := by
    cases b with
    | plain => exact ends_runEntry_calm discreet stands' calm' traced proper' sandboxed _ _ clear
    | instrumented =>
      exact ends_runEntry_calm (r := { r with threshold }) discreet stands' calm' traced proper'
        sandboxed _ _ clear
  rw [ends_run_iff stands.present]
  refine ends_bind (runs.mono (fun _ _ cleared => cleared) ?_) fun outcome t cleared => ?_
  · rintro error t ⟨calm, failure, e, s, stands, latch⟩
    exact ⟨latch ▸ stands.waits calm, failure⟩
  refine (ends_closing discreet b threshold cleared).mono (fun _ _ settled => settled) ?_
  rintro error t ⟨waits, none⟩
  rw [Error.fault?_eq_none none]
  exact ⟨waits, Error.isHalt_eq_false none⟩

/-- **Barred runs.** A run that finds a fault latched that guests do not end with is announced and then
refused, and nothing else happens. -/
theorem exec_run_barred [Engine] (stands : h.Stands id r e s) (calm : quiet h) {fault : Fault}
    (latched : s.latch = some fault) (failure : fault.kind.isHalt = false) (b : Build)
    (threshold : UInt64) :
    exec (b.run printer id threshold) h =
      (.error (h.refusal r.inst b.main fault), b.calling printer id r.commons threshold h) := by
  obtain ⟨-, stands'⟩ := stands_calling discreet stands calm b threshold
  have ends : Ends (HostM.runEntry printer id b.main (b.more threshold))
      (b.calling printer id r.commons threshold h) _ _ :=
    ends_runEntry_pending (stands'.stuck latched) b.main (b.more threshold)
  have same := stands'.idle
  rw [Build.told_inst] at ends same
  rw [exec_run b threshold stands.present, exec_bind,
    ← Host.refusal_congr (same.trans stands.idle.symm)]
  rcases ran : exec (HostM.runEntry printer id b.main (b.more threshold))
    (b.calling printer id r.commons threshold h) with ⟨error | outcome, t⟩
  · obtain ⟨-, rfl, rfl⟩ := ends.of_error ran
    rfl
  · exact absurd (ends.of_ok ran).1.1 (by rw [failure]; exact Bool.false_ne_true)

/-! ### Resets -/

variable {latch : Option Fault}

/-- A runner waits on while globals of its instance are set: whatever fails there is no fault. -/
theorem waits_setGlobal (waits : h.Waits quiet id r latch) (name : String) (value : HostValue) :
    Ends (HostM.setGlobal r.inst name value) h (fun _ t => t.Waits quiet id r latch)
      fun error t => t.Waits quiet id r latch ∧ error.faultKind? = none := by
  have before := waits
  obtain ⟨calm, threshold, counter, e, s, stands, rfl⟩ := waits
  have idle : h.store? r.inst = some s := stands.idle
  refine (ends_setGlobal idle name value).mono ?_ ?_
  · rintro _ _ ⟨s', latch, rfl⟩
    exact ⟨discreet.putStore calm _ s', threshold, counter, e, s', stands.putStore s', latch⟩
  · rintro error _ ⟨rfl, none⟩
    exact ⟨before, none⟩

/-- So it does while its counters are reset. -/
theorem waits_resetCounters (waits : h.Waits quiet id r latch) :
    Ends (HostM.resetCounters r.inst) h (fun _ t => t.Waits quiet id r latch)
      fun error t => t.Waits quiet id r latch ∧ error.faultKind? = none := by
  unfold HostM.resetCounters
  refine ends_bind (waits_setGlobal discreet waits counterGlobal (.u64 0)) fun _ t waits => ?_
  -- A guest need not export its threshold.
  refine ends_tryCatch (waits_setGlobal discreet waits thresholdGlobal (.u64 0)) ?_
  rintro error u ⟨waits, none⟩
  split
  · exact waits
  · exact ⟨waits, none⟩

/-- **Resets.** A reset leaves latched what was latched. -/
theorem waits_resetRunner (waits : h.Waits quiet id r latch) :
    Ends (HostM.resetRunner id) h (fun _ t => t.Waits quiet id r latch)
      fun error t => t.Waits quiet id r latch ∧ error.faultKind? = none := by
  have before := waits
  obtain ⟨_, threshold, counter, _, _, stands, -⟩ := waits
  simp only [HostM.resetRunner, HostM.modifyRunner, ends_bind_iff, ends_runner, ends_modify,
    stands.present, Option.some.injEq, forall_eq', reduceCtorEq, false_implies, and_true]
  refine (waits_resetCounters discreet before).mono ?_ fun _ _ failed => failed
  rintro _ t ⟨calm, threshold', counter', e, s, stands, latch⟩
  have stands' := (stands.modifyEnvironment
    (fun e => { e with userData := e.userData.resetInstrumentation }) rfl).record
      (fun r => { r with threshold := 0, counter := 0 }) rfl rfl
  have calm' := discreet.record (discreet.putUserData calm r.environment
    fun e => e.userData.resetInstrumentation) (fun r => { r with threshold := 0, counter := 0 })
      fun _ => rfl
  exact ⟨calm', 0, 0, _, s, stands', latch⟩

end

end Embedder
