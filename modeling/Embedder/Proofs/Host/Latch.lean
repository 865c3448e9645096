import Embedder.Proofs.Host.Release
import Embedder.Proofs.Host.Runs
import Embedder.Proofs.Host.Unwinding

namespace Embedder

/-!
# The latch of an instance

An instance at rest may have a fault latched. A call that enters an instance leaves it without a
fault if the guest returns, and otherwise with the fault that tells why it did not.

* `Host.latch?`, `Host.Rests`: what is latched of an instance at rest.
* `Entry`: a call that nothing refuses, and the run of its guest.
* `Entry.call_returned`, `Entry.call_unwound`: how calls end that enter a guest.
-/

variable {σ : Type} {printer : Printer σ} {h : Host σ} {id : Nat}

/-! ### Instances at rest -/

namespace Host

/-- The latch of an instance at rest. -/
def latch? (h : Host σ) (id : Nat) : Option (Option Fault) :=
  ((h.instance? id).bind Instance.store).map Store.latch

/-- An instance is at rest with such a latch, unless it is gone. -/
def Rests (h : Host σ) (id : Nat) (latch : Option Fault) : Prop :=
  (h.instance? id).isSome → h.latch? id = some latch

/-- Whether an instance at rest exports a function under a name. -/
def exportsFunc (h : Host σ) (id : Nat) (name : String) : Bool :=
  ((h.instance? id).bind Instance.store).any fun s => (s.guest.exportedFunc? name).isSome

theorem latch?_eq_some {latch : Option Fault} (there : h.latch? id = some latch) :
    ∃ i s, h.instance? id = some i ∧ i.store = some s ∧ s.latch = latch := by
  obtain ⟨s, store, rfl⟩ := Option.map_eq_some_iff.1 there
  obtain ⟨i, present, idle⟩ := Option.bind_eq_some_iff.1 store
  exact ⟨i, s, present, idle, rfl⟩

/-! ### The end of a call -/

/-- Giving up a hold on an instance leaves the instance alone, unless it was the last one. -/
theorem instance?_of_releaseInstance {i : Instance}
    (there : (h.releaseInstance id).instance? id = some i) : h.instance? id = some i := by
  unfold releaseInstance at there
  split at there
  case h_1 => exact there
  case h_2 c present =>
    split at there
    case h_1 c' released =>
      -- Either the instance has other holders and stays as it is, or it is there no more.
      unfold Counted.release? at released
      split at released
      · cases released
      · cases released
        rw [instance?, Pool.get?_modify, if_pos rfl, present] at there
        rw [instance?, present]
        exact there
    case h_2 =>
      dsimp only at there
      rw [instance?, instances_releaseModule] at there
      rw [giveBack, giveBack, modifyBudget, modifyBudget, Pool.get?_erase, if_pos rfl] at there
      cases there

/-- At the end of a call, its store is back. -/
theorem store_endCall {environment : Nat} {userData : Option UserData} {s : Store} {i : Instance}
    (there : (h.endCall id environment userData s).instance? id = some i) : i.store = some s := by
  have before := instance?_of_releaseInstance there
  rw [instance?_modifyInstance, if_pos rfl] at before
  obtain ⟨i, -, rfl⟩ := Option.map_eq_some_iff.1 before
  rfl

theorem rests_endCall (environment : Nat) (userData : Option UserData) (s : Store) :
    (h.endCall id environment userData s).Rests id s.latch := by
  intro there
  obtain ⟨i, present⟩ := Option.isSome_iff_exists.1 there
  rw [latch?, present, Option.bind_some, store_endCall present]
  rfl

end Host

/-! ### Calls that enter a guest -/

variable [Engine]

/-- A call that nothing refuses: the environment, the function to enter, and the arguments as the
guest gets them. -/
structure Entry (h : Host σ) (environment : Nat) (name : String) (args : List HostValue)
    (results : List HostType) where
  env : Environment
  callee : Callee
  params : List Wasm.Value
  bound : h.environments.get? environment = some env
  found : h.callee env.inst name = .ok callee
  encoded : encodeCall callee.type args results = .ok params

namespace Entry

variable {environment : Nat} {name : String} {args : List HostValue} {results : List HostType}

/-- The call in flight when the guest begins to run. -/
def flight (entry : Entry h environment name args results) : Flight σ :=
  ⟨entry.callee.store.lend environment entry.env.userData,
    h.beginCall entry.callee.caller.inst environment⟩

/-- The run of the guest. -/
def run (printer : Printer σ) (entry : Entry h environment name args results) :
    Except String (List Wasm.Value) × Flight σ :=
  exec (FlightM.enter printer entry.callee.caller entry.callee.room entry.callee.function
    entry.params) entry.flight

/-- A callback raises a fault while the guest runs. -/
def Raises (printer : Printer σ) (entry : Entry h environment name args results)
    (fault : Fault) : Prop :=
  entry.flight.Raises printer entry.callee.caller entry.callee.room entry.callee.function
    entry.params fault

section

variable (entry : Entry h environment name args results)

omit [Engine] in
theorem caller_inst : entry.callee.caller.inst = entry.env.inst := by
  obtain ⟨i, -, -, -, caller⟩ := Host.callee_eq_ok entry.found
  rw [caller]

/-- What the run of the guest leaves latched. -/
theorem latched (sandboxed : entry.callee.store.guest.Sandboxed) :
    Ends (FlightM.enter printer entry.callee.caller entry.callee.room entry.callee.function
        entry.params) entry.flight
      (fun _ u => u.store.latch = none ∧ ∀ fault, ¬ entry.Raises printer fault)
      fun cause u => Accounts (entry.Raises printer) cause u.store.latch := by
  obtain ⟨i, -, -, latch, -⟩ := Host.callee_eq_ok entry.found
  exact ends_enter _ _ _ entry.flight sandboxed latch

/-- The host when the run of the guest is over. -/
def landed (after : Flight σ) (s : Store) : Host σ :=
  after.host.endCall entry.callee.caller.inst environment
    (after.store.active.map ActiveCall.userData) s

end

variable {v : Invoker} (entry : Entry h v.environment name args results)

theorem call_of_ok {values : List Wasm.Value} {after : Flight σ}
    (ran : entry.run printer = (.ok values, after)) :
    ∃ v', v.call printer name args results h =
      (decodeResults results values, v', entry.landed after after.store.reclaim) := by
  have ran : (FlightM.enter printer entry.callee.caller entry.callee.room entry.callee.function
      entry.params).run.run ⟨entry.callee.store.lend v.environment entry.env.userData,
        h.beginCall entry.callee.caller.inst v.environment⟩ = (.ok values, after) := ran
  unfold Invoker.call
  simp only [Invoker.environment_ready, Invoker.environment_advance, entry.bound, entry.found,
    entry.encoded, Host.invoke, ran]
  exact ⟨_, rfl⟩

theorem call_of_error {cause : String} {after : Flight σ}
    (ran : entry.run printer = (.error cause, after)) :
    ∃ v', v.call printer name args results h =
      (.error (.guestTrap (after.store.reclaim.latchFailure cause).1), v',
        entry.landed after (after.store.reclaim.latchFailure cause).2) := by
  have ran : (FlightM.enter printer entry.callee.caller entry.callee.room entry.callee.function
      entry.params).run.run ⟨entry.callee.store.lend v.environment entry.env.userData,
        h.beginCall entry.callee.caller.inst v.environment⟩ = (.error cause, after) := ran
  unfold Invoker.call
  simp only [Invoker.environment_ready, Invoker.environment_advance, entry.bound, entry.found,
    entry.encoded, Host.invoke, ran]
  exact ⟨_, rfl⟩

/-- Two calls whose guests have run to the same end, and left the same store, end in the same way. -/
theorem call_congr {printer printer' : Printer σ}
    (same : (entry.run printer').1 = (entry.run printer).1)
    (store : (entry.run printer').2.store = (entry.run printer).2.store) :
    (v.call printer' name args results h).1 = (v.call printer name args results h).1 ∧
      (v.call printer' name args results h).2.1 = (v.call printer name args results h).2.1 ∧
        ∃ s, (v.call printer name args results h).2.2 = entry.landed (entry.run printer).2 s ∧
          (v.call printer' name args results h).2.2 = entry.landed (entry.run printer').2 s := by
  -- What a call does is a matter of how its guest has run.
  have run : ∀ p, entry.run p = (FlightM.enter p entry.callee.caller entry.callee.room
      entry.callee.function entry.params).run.run ⟨entry.callee.store.lend v.environment
        entry.env.userData, h.beginCall entry.callee.caller.inst v.environment⟩ := fun _ => rfl
  unfold Invoker.call
  simp only [Invoker.environment_ready, Invoker.environment_advance, entry.bound, entry.found,
    entry.encoded, Host.invoke, ← run]
  generalize entry.run printer = r at same store ⊢
  generalize entry.run printer' = r' at same store ⊢
  obtain ⟨ended, after⟩ := r
  obtain ⟨ended', after'⟩ := r'
  subst same
  dsimp only at store
  cases ended' with
  | ok values => exact ⟨rfl, rfl, _, rfl, by rw [← store]; rfl⟩
  | error cause =>
    dsimp only
    rw [store]
    exact ⟨rfl, rfl, _, rfl, by rw [← store]; rfl⟩

/-- **Guests that return.** A call whose guest returns leaves nothing latched. -/
theorem call_returned (sandboxed : entry.callee.store.guest.Sandboxed) {values : List Wasm.Value}
    {after : Flight σ} (ran : entry.run printer = (.ok values, after)) :
    (v.call printer name args results h).1 = decodeResults results values ∧
      (v.call printer name args results h).2.2.Rests entry.env.inst none := by
  obtain ⟨v', call⟩ := entry.call_of_ok ran
  have latch : after.store.latch = none := ((entry.latched sandboxed).of_ok ran).1
  rw [call, ← entry.caller_inst, ← latch]
  exact ⟨rfl, Host.rests_endCall _ _ _⟩

/-- **Guests that are unwound.** A call whose guest is unwound fails with the fault that it leaves
latched: what a callback raised, or else a trap with the root cause. -/
theorem call_unwound (sandboxed : entry.callee.store.guest.Sandboxed) {cause : String}
    {after : Flight σ} (ran : entry.run printer = (.error cause, after)) :
    ∃ fault, (v.call printer name args results h).1 = .error (.guestTrap fault) ∧
      (v.call printer name args results h).2.2.Rests entry.env.inst (some fault) ∧
      (fault.kind ≠ .trap ∧ (∀ f, entry.Raises printer f ↔ f = fault) ∨
        fault = ⟨.trap, cause⟩ ∧ ∀ f, ¬ entry.Raises printer f) := by
  obtain ⟨v', call⟩ := entry.call_of_error ran
  have accounts := (entry.latched sandboxed).of_error ran
  rw [call, ← entry.caller_inst]
  -- A clear latch after a failure is that of a trap; otherwise it tells what was raised.
  cases latch : after.store.latch with
  | none =>
    have failure : after.store.reclaim.latchFailure cause =
        (⟨.trap, cause⟩, { after.store.reclaim with latch := some ⟨.trap, cause⟩ }) := by
      simp only [Store.latchFailure, Store.reclaim, latch]
    rw [failure]
    refine ⟨_, rfl, Host.rests_endCall _ _ _, .inr ⟨rfl, fun f raised => ?_⟩⟩
    cases latch.symm.trans ((accounts.raised f).1 raised)
  | some fault =>
    have failure : after.store.reclaim.latchFailure cause = (fault, after.store.reclaim) := by
      simp only [Store.latchFailure, Store.reclaim, latch]
    rw [failure]
    refine ⟨fault, rfl, ?_, .inl ⟨(accounts.said fault latch).1, fun f => ?_⟩⟩
    · rw [← latch]
      exact Host.rests_endCall _ _ _
    · rw [accounts.raised f, latch, Option.some.injEq]
      exact eq_comm

/-- A call that gives results has entered the guest, which has returned. -/
theorem of_call_ok {values : List HostValue} {v' : Invoker} {t : Host σ}
    (done : v.call printer name args results h = (.ok values, v', t)) :
    ∃ (entry : Entry h v.environment name args results) (returned : List Wasm.Value)
      (after : Flight σ), entry.run printer = (.ok returned, after) := by
  have call := done
  -- Every other way to end a call ends with an error.
  unfold Invoker.call at call
  simp only [Invoker.environment_ready, Invoker.environment_advance] at call
  split at call
  case h_1 => cases call
  case h_2 env bound =>
    split at call
    case h_1 => cases call
    case h_2 callee found =>
      split at call
      case h_1 => cases call
      case h_2 params encoded =>
        let entry : Entry h v.environment name args results :=
          ⟨env, callee, params, bound, found, encoded⟩
        rcases ran : entry.run printer with ⟨cause | returned, after⟩
        · obtain ⟨v'', failed⟩ := entry.call_of_error ran
          cases failed.symm.trans done
        · exact ⟨entry, returned, after, ran⟩

end Entry

end Embedder
