import Embedder.Proofs.Host.Callbacks
import Embedder.Proofs.Host.Report

namespace Embedder

/-!
# What the outcome of a run rests on

A runner calls an entry point and settles how the call ended. Where the call has entered the guest, the
outcome is what the guest came to: it has returned the status, or a callback was called that ends it
with the status, or the one that is called past the threshold. A call that is refused because a fault
is pending may have an outcome, too: where the fault is such an end of the guest, from before.

* `Raised.asked`, `Entry.calls_of_raises`: a fault that is raised is raised by a callback that is called.
* `Build.run`, `exec_run`: a run is a call of the entry point, with something before and after.
* `Entry.Comes`: what a guest comes to in a call.
* `ends_runEntry_founded`: what the outcome of a run rests on.
-/

variable [Engine] {σ : Type} {printer : Printer σ} {c : Caller} {h : Host σ}

/-! ### Who raised a fault -/

section

variable {fault : Fault} {n : Native} {args : List Wasm.Value} {s : Flight σ}

section

variable {fuel : Nat} {t t' : Engine.Thread} {n : Callback}

/-- A step of the guest goes on with one step less. -/
theorem exec_drive_running {guest : Wasm.Guest Callback}
    (step : Engine.step s.store.guest t = .running guest t') :
    exec (FlightM.drive printer c (fuel + 1) t) s =
      exec (FlightM.drive printer c fuel t') { s with store := { s.store with guest } } := by
  conv_lhs => unfold FlightM.drive
  rw [exec_bind]
  show exec _ s = _
  rw [step]
  rfl

/-- A callback that returns gives its values to the thread. -/
theorem exec_drive_returned {values : List Wasm.Value} {results : List Wasm.ValType} {u : Flight σ}
    (step : Engine.step s.store.guest t = .calls n args results t')
    (done : exec (n.run printer { c with hasExports := true } args) s = (.ok values, u)) :
    exec (FlightM.drive printer c (fuel + 1) t) s =
      exec (FlightM.drive printer c fuel (Engine.resume t' values)) u := by
  conv_lhs => unfold FlightM.drive
  rw [exec_bind]
  show exec _ s = _
  rw [step]
  show exec (n.run printer { c with hasExports := true } args >>= _) s = _
  rw [exec_bind, done]

/-- A callback that fails ends the call. -/
theorem exec_drive_failed {cause : String} {results : List Wasm.ValType} {u : Flight σ}
    (step : Engine.step s.store.guest t = .calls n args results t')
    (failed : exec (n.run printer { c with hasExports := true } args) s = (.error cause, u)) :
    exec (FlightM.drive printer c (fuel + 1) t) s = (.error cause, u) := by
  conv_lhs => unfold FlightM.drive
  rw [exec_bind]
  show exec _ s = _
  rw [step]
  show exec (n.run printer { c with hasExports := true } args >>= _) s = _
  rw [exec_bind, failed]

/-- The thread is told how a request for memory went. -/
theorem exec_drive_grown {memory pages : Nat} {before : Wasm.Value} {u : Flight σ}
    (step : Engine.step s.store.guest t = .grows memory pages t')
    (done : exec (FlightM.growMemory c memory pages) s = (.ok before, u)) :
    exec (FlightM.drive printer c (fuel + 1) t) s =
      exec (FlightM.drive printer c fuel (Engine.push t' before)) u := by
  conv_lhs => unfold FlightM.drive
  rw [exec_bind]
  show exec _ s = _
  rw [step]
  show exec (FlightM.growMemory c memory pages >>= _) s = _
  rw [exec_bind, done]

end

omit [Engine] in
/-- What a callback raises is of a kind that it may raise. -/
theorem Native.mayRaise_of_raises (raises : (Callback.native n).Raises printer c args fault s)
    (latch : s.store.latch = none) : n.mayRaise args fault.kind := by
  obtain ⟨u, failed, latched⟩ := raises
  rcases (reports_run n args s).of_error failed with same | ⟨kind, may, reported⟩
  · rw [latch] at same
    cases same.symm.trans latched
  · have eq : fault = ⟨kind, fault.message⟩ := Option.some.inj (latched.symm.trans reported)
    rw [eq]
    exact may

/-- **Faults.** By induction on the way to where a fault is raised: as nothing was latched before, it
is raised by a callback that is called there, and the thread ends as this callback does. -/
theorem Raised.asked {fuel : Nat} {t : Engine.Thread} (raised : Raised printer c fault fuel t s)
    (sandboxed : s.store.guest.Sandboxed) (latch : s.store.latch = none) :
    ∃ (n : Native) (given : _) (u : _), Asked printer c fuel t s (.native n) given u ∧
      n.mayRaise given fault.kind ∧ exec (FlightM.drive printer c fuel t) s =
        exec (n.run printer { c with hasExports := true } given) u := by
  -- By induction on where the fault was raised; each step before it leads to the same end.
  induction raised with
  | @here fuel t t' s n args results step raises =>
    obtain ⟨n, rfl⟩ := sandboxed n (Engine.imports_of_step step)
    refine ⟨n, args, s, ⟨fuel, t, results, t', .here, step⟩, n.mayRaise_of_raises raises latch, ?_⟩
    obtain ⟨u, failed, -⟩ := raises
    exact (exec_drive_failed step failed).trans failed.symm
  | @running fuel t t' s guest step _ ih =>
    have funcs := (Engine.step_extends step).funcs
    obtain ⟨n, given, u, asked, may, ends⟩ := ih (sandboxed.of_funcs funcs) latch
    refine ⟨n, given, u, asked.running step, may, ?_⟩
    rw [← ends]
    exact exec_drive_running step
  | @returned fuel t t' s _ m args _ _ step done _ ih =>
    obtain ⟨m, rfl⟩ := sandboxed m (Engine.imports_of_step step)
    have funcs := (within_run ((working_funcs printer c).toSteady.withExports true) (.native m) args
      (fun _ _ _ => rfl) s).of_ok done
    have same := (reports_run m args s).of_ok done
    obtain ⟨n, given, u, asked, may, ends⟩ := ih (sandboxed.of_funcs funcs) (same.trans latch)
    refine ⟨n, given, u, asked.returned step done, may, ?_⟩
    rw [← ends]
    exact exec_drive_returned step done
  | @grown fuel memory pages t t' s _ _ step done _ ih =>
    have funcs := (within_growMemory (working_funcs printer c).toSteady memory pages
      (fun s => (working_funcs printer c).grow s memory pages) s).of_ok done
    have same := (ends_growMemory memory pages s).of_ok done
    obtain ⟨n, given, u, asked, may, ends⟩ := ih (sandboxed.of_funcs funcs) (same.trans latch)
    refine ⟨n, given, u, asked.grown step done, may, ?_⟩
    rw [← ends]
    exact exec_drive_grown step done

/-- A callback that ends the guest with a status. -/
def Native.Exits (n : Native) (given : List Wasm.Value) (status : Int32) : Prop :=
  (n = .exit ∨ n = .systemExit) ∧ ∃ code : UInt32, given = [.i32 code] ∧ code.toInt32 = status

omit [Engine] in
/-- A callback that may end the guest with a status was called to do so. -/
theorem Native.exits_of_mayRaise {status : Int32} (may : n.mayRaise args (.exit status)) :
    n.Exits args status := by
  unfold mayRaise at may
  split at may
  · cases may
    exact ⟨.inl rfl, _, rfl, rfl⟩
  · cases may
    exact ⟨.inr rfl, _, rfl, rfl⟩
  · rcases may with may | may <;> cases may
  · cases may

omit [Engine] in
/-- Only one callback tells that the counter is past its threshold. -/
theorem Native.eq_of_mayRaise_counterExceeded (may : n.mayRaise args .counterExceeded) :
    n = .counterExceeded := by
  unfold mayRaise at may
  split at may
  · cases may
  · cases may
  · rfl
  · cases may

end

namespace Entry

variable {environment : Nat} {name : String} {args : List HostValue} {results : List HostType}
  (entry : Entry h environment name args results)

/-- A fault that is raised while the guest runs is raised by a callback that is called, and the run ends
as this callback does. -/
theorem calls_of_raises {fault : Fault} (sandboxed : entry.callee.store.guest.Sandboxed)
    (raises : entry.Raises printer fault) :
    ∃ (n : Native) (given : _), entry.Calls printer (.native n) given ∧
      n.mayRaise given fault.kind ∧ ∃ c u, entry.run printer = exec (n.run printer c given) u := by
  obtain ⟨i, -, -, latch, -⟩ := Host.callee_eq_ok entry.found
  have ran : entry.run printer = exec (FlightM.enter printer entry.callee.caller entry.callee.room
      entry.callee.function entry.params) entry.flight := rfl
  unfold FlightM.enter at ran
  rw [exec_bind] at ran
  unfold Raises Flight.Raises at raises
  unfold Calls Asks Flight.Asks
  cases found : entry.flight.store.guest.funcs[entry.callee.function]? with
  | none => simp only [found] at raises
  | some f =>
    change entry.run printer = exec _ entry.flight at ran
    rw [found] at ran
    cases f with
    | native n type =>
      simp only [found] at raises ⊢
      obtain ⟨n, rfl⟩ := sandboxed n ⟨type, Array.mem_of_getElem? found⟩
      exact ⟨n, _, ⟨_, rfl, rfl, rfl⟩, n.mayRaise_of_raises raises latch, _, _, ran⟩
    | code type code =>
      simp only [found] at raises ⊢
      obtain ⟨n, given, u, asked, may, ends⟩ := raises.asked sandboxed latch
      exact ⟨n, given, ⟨u, asked⟩, may, _, u, ran.trans ends⟩

/-- What a guest comes to in a call. -/
inductive Comes (printer : Printer σ) : Outcome → Prop
  /-- It has returned a status. -/
  | returned (status : Int32) {after : Flight σ}
      (ran : entry.run printer = (.ok [.i32 status.toUInt32], after)) : Comes printer (.returned status)
  /-- It was ended with a status, by a callback that it has called. -/
  | exited (status : Int32) {n : Native} {given : List Wasm.Value}
      (calls : entry.Calls printer (.native n) given) (exits : n.Exits given status) {cause : String}
      {after : Flight σ} (unwound : entry.run printer = (.error cause, after)) :
      Comes printer (.exited status)
  /-- It was ended because it has called the callback for a counter past the threshold. -/
  | thresholdExceeded (counter threshold : UInt64) {given : List Wasm.Value}
      (calls : entry.Calls printer (.native .counterExceeded) given) {cause : String} {after : Flight σ}
      (unwound : entry.run printer = (.error cause, after)) :
      Comes printer (.thresholdExceeded counter threshold)

/-- A fault that is raised and has an outcome is the end that the guest has asked for. -/
theorem comes_of_raises {fault : Fault} {counter threshold : UInt64} {outcome : Outcome}
    (sandboxed : entry.callee.store.guest.Sandboxed) (raises : entry.Raises printer fault)
    (meant : Outcome.ofFault? counter threshold fault.kind = some outcome) {cause : String}
    {after : Flight σ} (unwound : entry.run printer = (.error cause, after)) :
    entry.Comes printer outcome := by
  obtain ⟨n, given, calls, may, -⟩ := entry.calls_of_raises sandboxed raises
  cases kind : fault.kind with
  | exit status =>
    rw [kind] at meant may
    cases meant
    exact .exited status calls (Native.exits_of_mayRaise may) unwound
  | counterExceeded =>
    rw [kind] at meant may
    cases meant
    cases Native.eq_of_mayRaise_counterExceeded may
    exact .thresholdExceeded _ _ calls unwound
  | trap => rw [kind] at meant; cases meant
  | hostFailure => rw [kind] at meant; cases meant

end Entry

/-! ### Runs -/

namespace Build

/-- The entry point of a build. -/
def main : Build → String
  | plain => plainMain
  | instrumented => instrumentedMain

/-- What the entry point takes after the lengths of the event. -/
def more (threshold : UInt64) : Build → List HostValue
  | plain => []
  | instrumented => [.u64 threshold]

/-- A runner's run of a build. Plain builds have no threshold. -/
def run (b : Build) (printer : Printer σ) (id : Nat) (threshold : UInt64) : HostM σ Outcome :=
  match b with
  | plain => HostM.runPlain printer id
  | instrumented => HostM.runInstrumented printer id threshold

/-- The host where a run calls the entry point: the run has been announced, and before that the
threshold of an instrumented build has been recorded. -/
def calling (b : Build) (printer : Printer σ) (id commons : Nat) (threshold : UInt64) (h : Host σ) :
    Host σ :=
  match b with
  | plain => h.tell printer commons "\n\nRunning plain wasm...\n"
  | instrumented =>
    let told := { h with runners := h.runners.modify id fun r => { r with threshold } }
    told.tell printer commons "\n\nRunning instrumented wasm...\n"

/-- What a run does once there is an outcome: the counter of an instrumented build is read, recorded
and printed. -/
def closing (b : Build) (printer : Printer σ) (id : Nat) (r : Runner) (threshold : UInt64)
    (outcome : Outcome) : HostM σ Outcome :=
  match b with
  | plain => pure outcome
  | instrumented => do
    let counter ← HostM.readCounter r.inst
    HostM.modifyRunner id fun r => { r with counter }
    HostM.printText printer r.commons s!"Threshold: {threshold}, Counter: {counter}\n"
    pure (HostM.recounted counter threshold outcome)

end Build

section

variable {id : Nat} {r : Runner}

omit [Engine] in
/-- A runner is looked up, or else its number stands for nothing. -/
theorem exec_runner :
    exec (HostM.runner id) h =
      exec (HostM.ofOption .badHandle (h.runners.get? id) : HostM σ Runner) h := by
  unfold HostM.runner
  rw [exec_bind]
  rfl

omit [Engine] in
/-- An environment that is bound is found. -/
theorem exec_environment {e : Environment} (bound : h.environments.get? id = some e) :
    exec (HostM.environment id) h = (.ok e, h) := by
  unfold HostM.environment
  rw [exec_bind]
  show exec (HostM.ofOption .badHandle (h.environments.get? id)) h = _
  rw [bound]
  rfl

omit [Engine] in
/-- An attempt does not fail, and does what the operation does. -/
theorem exec_attempt {α : Type} (act : HostM σ α) :
    exec (HostM.attempt act) h = (.ok (exec act h).1, (exec act h).2) := by
  unfold HostM.attempt
  rw [exec_tryCatch, exec_bind]
  rcases exec act h with ⟨error | a, t⟩ <;> rfl

/-- **Runs.** A run is a call of the entry point that is settled. -/
theorem exec_run (b : Build) (threshold : UInt64) (present : h.runners.get? id = some r) :
    exec (b.run printer id threshold) h =
      exec (HostM.runEntry printer id b.main (b.more threshold) >>=
        b.closing printer id r threshold) (b.calling printer id r.commons threshold h) := by
  cases b with
  | plain =>
    show exec (HostM.runPlain printer id) h = exec (_ >>= pure) _
    unfold HostM.runPlain
    rw [exec_bind, exec_runner, present, bind_pure]
    rfl
  | instrumented =>
    show exec (HostM.runInstrumented printer id threshold) h = _
    unfold HostM.runInstrumented
    rw [exec_bind]
    have told : (h.runners.modify id fun r => { r with threshold }).get? id =
        some { r with threshold } := by
      rw [Pool.get?_modify, if_pos rfl, present, Option.map_some]
    show exec (HostM.runner id >>= _)
      ({ h with runners := h.runners.modify id fun r => { r with threshold } } : Host σ) = _
    rw [exec_bind, exec_runner, told]
    rfl

end

omit [Engine] in
/-- Nothing but changes lead to where a run calls its entry point. -/
theorem leads_calling [Holder σ] [Rule σ] {g : Pending} {allowed : Effect → Prop}
    (traced : Traced allowed printer) (b : Build) (id commons : Nat) (threshold : UInt64) :
    Leads allowed ⟨h, g⟩ ⟨b.calling printer id commons threshold h, g⟩ := by
  cases b with
  | plain => exact traced commons _ h g
  | instrumented =>
    have recorded : Leads allowed ⟨h, g⟩
        ⟨{ h with runners := h.runners.modify id fun r => { r with threshold } }, g⟩ :=
      .of_change (@Change.recorded _ _ _ _ _ _ id (fun _ => threshold) Runner.counter)
    exact recorded.trans (traced commons _ _ g)

/-- What is read of the counter afterwards makes no difference to what the guest has come to. -/
theorem Entry.Comes.closing {environment : Nat} {name : String} {args : List HostValue}
    {results : List HostType} {entry : Entry h environment name args results} {outcome : Outcome}
    (comes : entry.Comes printer outcome) (b : Build) (id : Nat) (r : Runner) (threshold : UInt64)
    (u : Host σ) :
    Ends (b.closing printer id r threshold outcome) u (fun outcome _ => entry.Comes printer outcome)
      fun _ _ => True := by
  cases b with
  | plain => exact comes
  | instrumented =>
    refine ends_bind (P := fun _ _ => True) (by unfold Ends; split <;> trivial) fun counter t _ => ?_
    show entry.Comes printer (HostM.recounted counter threshold outcome)
    cases comes with
    | returned status ran => exact .returned status ran
    | exited status calls exits unwound => exact .exited status calls exits unwound
    | thresholdExceeded _ _ calls unwound => exact .thresholdExceeded _ _ calls unwound

/-! ### Calls that are settled -/

section

variable {h' : Host σ} {id : Nat} {r : Runner}

omit [Engine] in
/-- A runner keeps its environment and its instance. -/
theorem Host.Since.runner (since : h.Since h') (present : h.runners.get? id = some r) {r' : Runner}
    (there : h'.runners.get? id = some r') :
    r'.environment = r.environment ∧ r'.inst = r.inst := by
  have old := Pool.lt_next_of_get?_eq_some present
  obtain ⟨r₀, before, same⟩ := since.runners.old id r' old there
  cases present.symm.trans before
  simp only [Prod.mk.injEq] at same
  exact ⟨same.1.symm, same.2.1.symm⟩

omit [Engine] in
/-- The environment of a runner keeps the runner's instance. -/
theorem Host.Since.own (since : h.Since h') {g : Pending} (chained : Config.Chained ⟨h, g⟩)
    (present : h.runners.get? id = some r) {e : Environment}
    (bound : h'.environments.get? r.environment = some e) : e.inst = r.inst := by
  obtain ⟨old, chain⟩ := chained.runners id r present
  obtain ⟨e₀, before, same⟩ := since.environments.old _ e old bound
  simp only [Prod.mk.injEq] at same
  exact same.1.symm.trans (chain e₀ before)

end

/-- The lengths of the event, as an entry point takes them. -/
def Environment.lengths (e : Environment) : List HostValue :=
  [.u32 (UInt32.ofNat e.userData.eventId.length), .u32 (UInt32.ofNat e.userData.eventPayload.length)]

section

variable {id : Nat} {r : Runner} {e : Environment} {i : Instance} (manned : h.Manned id r e i)
  (name : String) (more : List HostValue)
include manned

/-- A run of an entry point settles a call with the lengths of the event. -/
theorem exec_runEntry :
    exec (HostM.runEntry printer id name more) h =
      exec (HostM.settle id ((Invoker.ofEnvironment r.environment).call printer name
          (e.lengths ++ more) [.i32] h).1)
        ((Invoker.ofEnvironment r.environment).call printer name (e.lengths ++ more) [.i32] h).2.2 := by
  have look : exec (HostM.eventLengths r.environment) h = (.ok e.lengths, h) := by
    unfold HostM.eventLengths
    rw [exec_bind, exec_environment manned.bound]
    rfl
  unfold HostM.runEntry
  rw [exec_bind, exec_runner, manned.present]
  show exec (HostM.eventLengths r.environment >>= _) h = _
  rw [exec_bind, look]
  dsimp only
  rw [exec_bind, exec_attempt, exec_call]

omit manned in
/-- A runner that is not there does not run. -/
theorem exec_runEntry_of_absent (absent : h.runners.get? id = none) :
    exec (HostM.runEntry printer id name more) h = (.error .badHandle, h) := by
  unfold HostM.runEntry
  rw [exec_bind, exec_runner, absent]
  rfl

omit [Engine] manned in
/-- An error has an outcome only if it is a fault that is meant as the end of a guest. -/
theorem ends_settle_error (error : Error) (t : Host σ) :
    Ends (HostM.settle id (.error error)) t
      (fun outcome _ => ∃ kind counter threshold, error.faultKind? = some kind ∧
        Outcome.ofFault? counter threshold kind = some outcome)
      fun _ _ => True := by
  simp only [HostM.settle, ends_bind_iff, ends_runner, ends_environment]
  refine ⟨fun r _ => ⟨fun e _ => ?_, fun _ => trivial⟩, fun _ => trivial⟩
  split
  case h_1 => trivial
  case h_2 outcome meant =>
    obtain ⟨kind, told, meant⟩ := Option.bind_eq_some_iff.1 meant
    exact ends_bind (P := fun _ _ => True) (by unfold Ends; split <;> trivial)
      fun _ _ _ => ⟨kind, _, _, told, meant⟩

/-- **Entered guests.** Where the call of a run enters the guest, the outcome of the run is what the
guest has come to. -/
theorem ends_runEntry_entered (delivers : h.Delivers)
    (entry : Entry h r.environment name (e.lengths ++ more) [.i32])
    (sandboxed : entry.callee.store.guest.Sandboxed) :
    Ends (HostM.runEntry printer id name more) h (fun outcome _ => entry.Comes printer outcome)
      fun _ _ => True := by
  unfold Ends
  rw [exec_runEntry manned]
  rcases ran : entry.run printer with ⟨cause | values, after⟩
  · obtain ⟨fault, told, -, raised⟩ :=
      entry.call_unwound (v := .ofEnvironment r.environment) sandboxed ran
    rw [told]
    refine (ends_settle_error _ _).mono (fun outcome _ meant => ?_) fun _ _ _ => trivial
    obtain ⟨kind, counter, threshold, told, meant⟩ := meant
    cases told
    rcases raised with ⟨-, raises⟩ | ⟨rfl, -⟩
    · exact entry.comes_of_raises sandboxed ((raises fault).2 rfl) meant ran
    · cases meant
  -- A call that returns delivers one integer, the status.
  · obtain ⟨-, answer, told, types, wires⟩ :=
      delivers.answers printer (.ofEnvironment r.environment) _ _ _ entry values after ran
    obtain ⟨v, rfl, type⟩ := List.map_eq_singleton_iff.1 types
    rw [told]
    cases v with
    | i32 status =>
      subst wires
      exact .returned status ran
    | _ => cases type

/-- **Founded outcomes.** A run that has an outcome has entered the guest, and the outcome is what the
guest has come to; unless the end of a guest was pending, and the run was refused with it. -/
theorem ends_runEntry_founded (delivers : h.Delivers) :
    Ends (HostM.runEntry printer id name more) h
      (fun outcome _ =>
        (∃ entry : Entry h r.environment name (e.lengths ++ more) [.i32],
          entry.callee.store.guest.Sandboxed → entry.Comes printer outcome) ∨
        ∃ fault, h.latch? r.inst = some (some fault) ∧ h.Settles r.inst name fault)
      fun _ _ => True := by
  by_cases admitted : i.Admits name (e.lengths ++ more) [.i32]
  · obtain ⟨entry, -, -⟩ := admitted.exists_entry (v := .ofEnvironment r.environment)
      manned.bound (manned.own ▸ manned.there)
    unfold Ends
    split
    case h_1 outcome t done =>
      exact .inl ⟨entry, fun sandboxed =>
        (ends_runEntry_entered manned name more delivers entry sandboxed).of_ok done⟩
    case h_2 => trivial
  · obtain ⟨error, refuses, turned_down⟩ : ∃ error, i.Refuses name (e.lengths ++ more) [.i32] error ∧
        (Invoker.ofEnvironment r.environment).TurnedDown printer h name (e.lengths ++ more) [.i32]
          error :=
      Instance.exists_refusal admitted manned.bound (manned.own ▸ manned.there)
    unfold Ends
    rw [exec_runEntry manned, turned_down.answer, turned_down.host]
    refine (ends_settle_error error h).mono (fun outcome _ meant => .inr ?_) fun _ _ _ => trivial
    obtain ⟨kind, counter, threshold, told, meant⟩ := meant
    -- Of all refusals, only that of a pending fault is a fault.
    cases refuses with
    | @pending s function fault free exported latched =>
      cases told
      have halts := Outcome.isSome_ofFault? counter threshold fault.kind
      rw [meant] at halts
      refine ⟨fault, ?_, halts.symm, ?_⟩
      · simp [Host.latch?, manned.there, free, latched]
      · simp [Host.exportsFunc, manned.there, free, exported]
    | busy => cases told
    | absent => cases told
    | mismatch => cases told

end

end Embedder
