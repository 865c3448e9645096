import Embedder.Proofs.Host.Flight

namespace Embedder

/-!
# Who unwound the guest

A guest is unwound by the virtual machine or by a callback. Which of the two it was, the latch tells:
a callback of the guest interface latches a fault before it fails, in the words in which it fails,
and as long as none fails the latch stays as it was.

* `Native.mayRaise`: the kinds of faults that a callback raises.
* `Reports`: parts of a call that latch why they fail, with `reports_run`.
* `Callback.Raises`, `Raised`: a callback raises a fault, by itself and while a thread runs.
* `ends_drive`, `ends_enter`: what is latched at the end is what was raised.
-/

variable {σ α β : Type} {printer : Printer σ} {c : Caller}

/-! ### What callbacks latch -/

/-- The kinds of faults that a callback of the guest interface raises: the two that end the guest end
it with the status asked for, and one more tells that the counter is past its threshold. Whatever
else goes wrong is a failure of the host. -/
def Native.mayRaise : Native → List Wasm.Value → FaultKind → Prop
  | exit, [.i32 code], kind => kind = .exit code.toInt32
  | systemExit, [.i32 code], kind => kind = .exit code.toInt32
  | counterExceeded, _, kind => kind = .counterExceeded ∨ kind = .hostFailure
  | _, _, kind => kind = .hostFailure

/-- No callback calls its own failure a trap. -/
theorem Native.mayRaise_ne_trap {n : Native} {args : List Wasm.Value} {kind : FaultKind}
    (raise : n.mayRaise args kind) : kind ≠ .trap := by
  unfold mayRaise at raise
  split at raise
  · rw [raise]; nofun
  · rw [raise]; nofun
  · rcases raise with e | e <;> rw [e] <;> nofun
  · rw [raise]; nofun

/-- A part of a call that leaves the latch alone unless it fails. If it fails and latches a fault,
the fault is of an expected kind and says what the failure says. -/
def Reports (kinds : FaultKind → Prop) (x : FlightM σ α) : Prop :=
  ∀ s, Ends x s (fun _ t => t.store.latch = s.store.latch) fun cause t =>
    t.store.latch = s.store.latch ∨ ∃ kind, kinds kind ∧ t.store.latch = some ⟨kind, cause⟩

section

variable {kinds : FaultKind → Prop}

/-- To return something latches nothing. -/
theorem reports_pure (a : α) : Reports kinds (pure a : FlightM σ α) :=
  fun _ => rfl

/-- To fail without a fault latches nothing. -/
theorem reports_throw (e : String) : Reports kinds (throw e : FlightM σ α) :=
  fun _ => .inl rfl

/-- Of one part after another, the one that fails reports: those before it have left the latch
alone. -/
theorem reports_bind {x : FlightM σ α} {f : α → FlightM σ β} (first : Reports kinds x)
    (rest : ∀ a, Reports kinds (f a)) : Reports kinds (x >>= f) := by
  intro s
  refine ends_bind (first s) fun a t same => ?_
  refine (rest a t).mono (fun _ u same' => same'.trans same) fun cause u failed => ?_
  exact failed.imp_left fun same' => same'.trans same

/-- To look at the store latches nothing. -/
theorem reports_store : Reports kinds (FlightM.store : FlightM σ Store) :=
  fun _ => rfl

/-- A change that leaves the latch alone. -/
theorem reports_modifyStore {f : Store → Store} (same : ∀ s, (f s).latch = s.latch) :
    Reports kinds (FlightM.modifyStore f : FlightM σ Unit) :=
  fun s => same s.store

/-- The latch is no part of the host. -/
theorem reports_modifyHost (f : Host σ → Host σ) : Reports kinds (FlightM.modifyHost f) :=
  fun _ => rfl

/-- A fault of an expected kind is latched in its own words. -/
theorem reports_raise {kind : FaultKind} (message : String) (expected : kinds kind) :
    Reports kinds (FlightM.raise kind message : FlightM σ α) :=
  fun _ => .inr ⟨kind, expected, rfl⟩

/-- To read the clock latches nothing. -/
theorem reports_clock : Reports kinds (FlightM.clock c : FlightM σ Reading) :=
  fun _ => rfl

/-- To change user data latches nothing. -/
theorem reports_modifyUserData (f : UserData → UserData) :
    Reports kinds (FlightM.modifyUserData f : FlightM σ Unit) :=
  reports_modifyStore fun _ => rfl

/-- To print latches nothing. -/
theorem reports_printBytes (bytes : Bytes) :
    Reports kinds (FlightM.printBytes printer c bytes) :=
  reports_modifyHost _

section

variable (expected : kinds .hostFailure)
include expected

/-- What is missing is a failure of the host, which is always expected. -/
theorem reports_orFail (message : String) (a : Option α) :
    Reports kinds (FlightM.orFail message a : FlightM σ α) := by
  cases a with
  | none => exact reports_raise message expected
  | some a => exact reports_pure a

/-- A missing memory is such a failure. -/
theorem reports_guestMemory :
    Reports kinds (FlightM.guestMemory c : FlightM σ (Nat × Wasm.Memory)) :=
  reports_bind reports_store fun _ => reports_orFail expected _ _

/-- So is a missing counter. -/
theorem reports_counterValue (name : String) :
    Reports kinds (FlightM.counterValue c name : FlightM σ UInt64) := by
  refine reports_bind reports_store fun s => ?_
  refine reports_bind (reports_orFail expected _ _) fun found => ?_
  dsimp only
  split
  · exact reports_pure _
  · exact reports_raise _ expected

/-- So is missing user data. -/
theorem reports_userData : Reports kinds (FlightM.userData : FlightM σ UserData) :=
  reports_bind reports_store fun _ => reports_orFail expected _ _

/-- A clock that fails is such a failure. -/
theorem reports_now : Reports kinds (FlightM.now c : FlightM σ UInt64) := by
  refine reports_bind reports_clock fun r => ?_
  cases r with
  | ok time => exact reports_pure time
  | error e => exact reports_raise _ expected

/-- So is a print outside of memory. -/
theorem reports_print (address : Nat) :
    Reports kinds (Native.runPrint printer c address) := by
  refine reports_bind (reports_guestMemory expected) fun _ => ?_
  refine reports_bind (reports_orFail expected _ _) fun _ => ?_
  exact reports_bind (reports_printBytes _) fun _ => reports_pure _

/-- So is a copy outside of memory. -/
theorem reports_copy (name : String) (select : UserData → Bytes) (address capacity : Nat) :
    Reports kinds (Native.runCopy (σ := σ) c name select address capacity) := by
  refine reports_bind (reports_guestMemory expected) fun _ => ?_
  refine reports_bind reports_store fun _ => ?_
  refine reports_bind (reports_orFail expected _ _) fun _ => ?_
  refine reports_bind (reports_orFail expected _ _) fun _ => ?_
  exact reports_bind (reports_modifyStore fun _ => rfl) fun _ => reports_pure _

end

end

/-- A counter past its threshold is a fault of its own kind. -/
theorem reports_counterExceeded :
    Reports (fun kind => kind = .counterExceeded ∨ kind = .hostFailure)
      (Native.runCounterExceeded printer c) := by
  refine reports_bind (reports_counterValue (.inr rfl) _) fun _ => ?_
  refine reports_bind (reports_counterValue (.inr rfl) _) fun _ => ?_
  refine reports_bind (reports_printBytes _) fun _ => ?_
  refine reports_bind (reports_userData (.inr rfl)) fun _ => ?_
  exact reports_bind (reports_modifyUserData _) fun _ => reports_raise _ (.inl rfl)

/-- **Callbacks.** A callback of the guest interface latches why it fails. -/
theorem reports_run (n : Native) (args : List Wasm.Value) :
    Reports (n.mayRaise args) (n.run printer c args) := by
  unfold Native.run
  split
  case h_1 => exact reports_pure _
  case h_2 => exact reports_print (by rfl) _
  case h_3 => exact reports_print (by rfl) _
  case h_4 =>
    refine reports_bind (reports_printBytes _) fun _ => ?_
    refine reports_bind (reports_now rfl) fun _ => ?_
    refine reports_bind (reports_userData rfl) fun _ => ?_
    exact reports_bind (reports_modifyUserData _) fun _ => reports_pure _
  case h_5 =>
    refine reports_bind (reports_now rfl) fun _ => ?_
    refine reports_bind (reports_userData rfl) fun _ => ?_
    exact reports_bind (reports_printBytes _) fun _ => reports_pure _
  case h_6 => exact reports_bind (reports_userData rfl) fun _ => reports_pure _
  case h_7 => exact reports_bind (reports_userData rfl) fun _ => reports_pure _
  case h_8 => exact reports_copy (by rfl) _ _ _ _
  case h_9 => exact reports_copy (by rfl) _ _ _ _
  case h_10 => exact reports_raise _ rfl
  case h_11 => exact reports_raise _ rfl
  case h_12 => exact reports_counterExceeded
  case h_13 => exact reports_throw _

/-! ### What is raised -/

variable [Engine]

/-- A callback raises a fault: it latches the fault, and fails in the fault's words. -/
def Callback.Raises (printer : Printer σ) (c : Caller) (n : Callback) (args : List Wasm.Value)
    (fault : Fault) (s : Flight σ) : Prop :=
  ∃ t, exec (n.run printer c args) s = (.error fault.message, t) ∧ t.store.latch = some fault

/-- A callback raises a fault while a thread runs for at most so many steps. -/
inductive Raised (printer : Printer σ) (c : Caller) (fault : Fault) :
    Nat → Engine.Thread → Flight σ → Prop
  /-- The callback that is called raises it. -/
  | here {fuel : Nat} {t t' : Engine.Thread} {s : Flight σ} {n : Callback} {args : List Wasm.Value}
      {results : List Wasm.ValType} (step : Engine.step s.store.guest t = .calls n args results t')
      (raises : n.Raises printer { c with hasExports := true } args fault s) :
      Raised printer c fault (fuel + 1) t s
  /-- One is called later, after a step of the code. -/
  | running {fuel : Nat} {t t' : Engine.Thread} {s : Flight σ} {guest : Wasm.Guest Callback}
      (step : Engine.step s.store.guest t = .running guest t')
      (later : Raised printer c fault fuel t' { s with store := { s.store with guest } }) :
      Raised printer c fault (fuel + 1) t s
  /-- One is called later, after another one has returned. -/
  | returned {fuel : Nat} {t t' : Engine.Thread} {s u : Flight σ} {n : Callback}
      {args values : List Wasm.Value} {results : List Wasm.ValType}
      (step : Engine.step s.store.guest t = .calls n args results t')
      (done : exec (n.run printer { c with hasExports := true } args) s = (.ok values, u))
      (later : Raised printer c fault fuel (Engine.resume t' values) u) :
      Raised printer c fault (fuel + 1) t s
  /-- One is called later, after more memory was asked for. -/
  | grown {fuel memory pages : Nat} {t t' : Engine.Thread} {s u : Flight σ} {before : Wasm.Value}
      (step : Engine.step s.store.guest t = .grows memory pages t')
      (done : exec (FlightM.growMemory c memory pages) s = (.ok before, u))
      (later : Raised printer c fault fuel (Engine.push t' before) u) :
      Raised printer c fault (fuel + 1) t s

/-- A callback raises a fault during a call of a function: the function itself, or one that its code
calls. -/
def Flight.Raises (printer : Printer σ) (c : Caller) (room function : Nat)
    (args : List Wasm.Value) (s : Flight σ) (fault : Fault) : Prop :=
  match s.store.guest.funcs[function]? with
  | none => False
  | some (.native n _) => n.Raises printer c args fault s
  | some (.code type code) => Raised printer c fault Engine.fuel (Engine.start type code args room) s

/-! ### When a thread raises a fault -/

section

variable {fault : Fault} {fuel : Nat} {t t' : Engine.Thread} {s u : Flight σ} {n : Callback}
  {args values : List Wasm.Value} {results : List Wasm.ValType}

/-- A step of the guest raises nothing, so what is raised is raised after it. -/
theorem raised_running {guest : Wasm.Guest Callback}
    (step : Engine.step s.store.guest t = .running guest t') :
    Raised printer c fault (fuel + 1) t s ↔
      Raised printer c fault fuel t' { s with store := { s.store with guest } } := by
  refine ⟨fun raised => ?_, .running step⟩
  cases raised with
  | here step' => cases step.symm.trans step'
  | running step' later => cases step.symm.trans step'; exact later
  | returned step' => cases step.symm.trans step'
  | grown step' => cases step.symm.trans step'

/-- A callback that has returned has raised nothing. -/
theorem raised_returned (step : Engine.step s.store.guest t = .calls n args results t')
    (done : exec (n.run printer { c with hasExports := true } args) s = (.ok values, u)) :
    Raised printer c fault (fuel + 1) t s ↔ Raised printer c fault fuel
      (Engine.resume t' values) u := by
  refine ⟨fun raised => ?_, .returned step done⟩
  cases raised with
  | here step' raises =>
    cases step.symm.trans step'
    obtain ⟨_, failed, -⟩ := raises
    cases done.symm.trans failed
  | running step' => cases step.symm.trans step'
  | returned step' done' later =>
    cases step.symm.trans step'
    cases done.symm.trans done'
    exact later
  | grown step' => cases step.symm.trans step'

/-- What is raised by a callback that fails is what it has latched. -/
theorem raised_failed {cause : String} (step : Engine.step s.store.guest t = .calls n args results t')
    (failed : exec (n.run printer { c with hasExports := true } args) s = (.error cause, u)) :
    Raised printer c fault (fuel + 1) t s ↔
      n.Raises printer { c with hasExports := true } args fault s := by
  refine ⟨fun raised => ?_, .here step⟩
  cases raised with
  | here step' raises => cases step.symm.trans step'; exact raises
  | running step' => cases step.symm.trans step'
  | returned step' done =>
    cases step.symm.trans step'
    cases failed.symm.trans done
  | grown step' => cases step.symm.trans step'

/-- Memory that grows raises nothing. -/
theorem raised_grown {memory pages : Nat} {before : Wasm.Value}
    (step : Engine.step s.store.guest t = .grows memory pages t')
    (done : exec (FlightM.growMemory c memory pages) s = (.ok before, u)) :
    Raised printer c fault (fuel + 1) t s ↔ Raised printer c fault fuel
      (Engine.push t' before) u := by
  refine ⟨fun raised => ?_, .grown step done⟩
  cases raised with
  | here step' => cases step.symm.trans step'
  | running step' => cases step.symm.trans step'
  | returned step' => cases step.symm.trans step'
  | grown step' done' later =>
    cases step.symm.trans step'
    cases done.symm.trans done'
    exact later

/-- A thread at its end calls nothing more. -/
theorem not_raised {p : Wasm.Progress Callback Engine.Thread}
    (step : Engine.step s.store.guest t = p)
    (ended : (∃ values, p = .finished values) ∨ ∃ trap, p = .trapped trap) :
    ¬ Raised printer c fault (fuel + 1) t s := by
  intro raised
  rcases ended with ⟨_, rfl⟩ | ⟨_, rfl⟩ <;> cases raised with
  | here step' => cases step.symm.trans step'
  | running step' => cases step.symm.trans step'
  | returned step' => cases step.symm.trans step'
  | grown step' => cases step.symm.trans step'

end

/-! ### What is latched at the end -/

/-- What is latched is what was raised, and it says why the guest was unwound. -/
structure Accounts (raised : Fault → Prop) (cause : String) (latch : Option Fault) : Prop where
  raised : ∀ fault, raised fault ↔ latch = some fault
  said : ∀ fault, latch = some fault → fault.kind ≠ .trap ∧ fault.message = cause

omit [Engine] in
/-- Where nothing is raised, nothing is latched. -/
theorem Accounts.none {raised : Fault → Prop} {latch : Option Fault} (cause : String)
    (none : ∀ fault, ¬ raised fault) (empty : latch = .none) : Accounts raised cause latch where
  raised fault := ⟨fun h => absurd h (none fault), fun h => nomatch empty.symm.trans h⟩
  said _ h := nomatch empty.symm.trans h

/-- A guest that imports no callbacks but those of the guest interface. -/
def Wasm.Guest.Sandboxed (guest : Wasm.Guest Callback) : Prop :=
  ∀ f, guest.Imports f → ∃ n, f = .native n

omit [Engine] in
/-- Whether a guest is sandboxed depends on its functions alone. -/
theorem Wasm.Guest.Sandboxed.of_funcs {g g' : Wasm.Guest Callback} (sandboxed : g.Sandboxed)
    (same : g'.funcs = g.funcs) : g'.Sandboxed := by
  intro f ⟨type, imported⟩
  exact sandboxed f ⟨type, same ▸ imported⟩

omit [Engine] in
/-- Whatever a call does, it leaves the functions alone. -/
theorem working_funcs (printer : Printer σ) (c : Caller) :
    Working printer c fun s t => t.store.guest.funcs = s.store.guest.funcs :=
  working_of_view (fun s => s.guest.funcs) printer c (fun _ _ guest _ _ => guest.funcs)
    (fun _ _ => rfl) fun _ _ _ => rfl

omit [Engine] in
/-- Asking for memory latches nothing and does not fail. -/
theorem ends_growMemory (memory pages : Nat) (s : Flight σ) :
    Ends (FlightM.growMemory c memory pages) s (fun _ u => u.store.latch = s.store.latch)
      fun _ _ => False := by
  unfold FlightM.growMemory
  rw [ends_bind_iff, ends_get]
  split
  · exact rfl
  case h_2 before t grown =>
    obtain ⟨_, _, _, _, -, -, -, -, -, -, store, -⟩ := Flight.growMemory?_eq_some grown
    show t.store.latch = _
    rw [store]

section

variable {s : Flight σ} {n : Native} {args : List Wasm.Value}

omit [Engine] in
/-- What a callback latches when it fails is what it raises. -/
theorem accounts_of_run (latch : s.store.latch = none) {cause : String} {u : Flight σ}
    (failed : exec (n.run printer c args) s = (.error cause, u)) :
    Accounts (fun fault => (Callback.native n).Raises printer c args fault s) cause
      u.store.latch := by
  rcases (reports_run n args s).of_error failed with same | ⟨kind, raise, latched⟩
  · rw [latch] at same
    refine .none cause ?_ same
    rintro fault ⟨t, failed', latched⟩
    cases failed.symm.trans failed'
    cases same.symm.trans latched
  · refine ⟨fun fault => ⟨?_, fun eq => ?_⟩, fun fault eq => ?_⟩
    · rintro ⟨t, failed', latched'⟩
      cases failed.symm.trans failed'
      exact latched'
    · cases latched.symm.trans eq
      exact ⟨u, failed, latched⟩
    · cases latched.symm.trans eq
      exact ⟨Native.mayRaise_ne_trap raise, rfl⟩

/-- **Running code.** By induction on the steps: as long as no callback fails, nothing is latched,
and the first one that fails is the last one that is called. -/
theorem ends_drive (fuel : Nat) (t : Engine.Thread) (s : Flight σ)
    (sandboxed : s.store.guest.Sandboxed) (latch : s.store.latch = none) :
    Ends (FlightM.drive printer c fuel t) s
      (fun _ u => u.store.latch = none ∧ ∀ fault, ¬ Raised printer c fault fuel t s)
      fun cause u => Accounts (fun fault => Raised printer c fault fuel t s) cause u.store.latch := by
  -- By induction on the fuel: after each step the latch is still clear, and the rest raises what
  -- the whole does.
  induction fuel generalizing t s with
  | zero => exact .none _ (fun _ raised => nomatch raised) latch
  | succ fuel ih =>
    unfold FlightM.drive
    rw [ends_bind_iff, ends_loan]
    cases step : Engine.step s.store.guest t with
    | running guest t' =>
      simp only [raised_running step]
      rw [ends_bind_iff, ends_modifyStore]
      exact ih t' _ (sandboxed.of_funcs (Engine.step_extends step).funcs) latch
    | finished values => exact ⟨latch, fun _ => not_raised step (.inl ⟨_, rfl⟩)⟩
    | trapped trap => exact .none _ (fun _ => not_raised step (.inr ⟨_, rfl⟩)) latch
    | calls n args results t' =>
      obtain ⟨n, rfl⟩ := sandboxed n (Engine.imports_of_step step)
      rcases ended : exec ((Callback.native n).run printer { c with hasExports := true } args) s with
        ⟨cause | values, u⟩
      · simp only [raised_failed step ended]
        rw [ends_bind_of_error ended]
        exact accounts_of_run latch ended
      · simp only [raised_returned step ended]
        rw [ends_bind_of_ok ended]
        have funcs := (within_run ((working_funcs printer c).toSteady.withExports true) (.native n) args
          (fun _ _ _ => rfl) s).of_ok ended
        have same := (reports_run n args s).of_ok ended
        exact ih _ u (sandboxed.of_funcs funcs) (same.trans latch)
    | grows memory pages t' =>
      rcases ended : exec (FlightM.growMemory c memory pages) s with ⟨cause | before, u⟩
      · exact ((ends_growMemory memory pages s).of_error ended).elim
      · simp only [raised_grown step ended]
        rw [ends_bind_of_ok ended]
        have funcs := (within_growMemory (working_funcs printer c).toSteady memory pages
          (fun s => (working_funcs printer c).grow s memory pages) s).of_ok ended
        exact ih _ u (sandboxed.of_funcs funcs) (((ends_growMemory memory pages s).of_ok ended).trans latch)

/-- **Calls.** What is latched when a guest has run is what was raised during the run. -/
theorem ends_enter (room function : Nat) (args : List Wasm.Value) (s : Flight σ)
    (sandboxed : s.store.guest.Sandboxed) (latch : s.store.latch = none) :
    Ends (FlightM.enter printer c room function args) s
      (fun _ u => u.store.latch = none ∧ ∀ fault, ¬ s.Raises printer c room function args fault)
      fun cause u => Accounts (s.Raises printer c room function args) cause u.store.latch := by
  unfold FlightM.enter Flight.Raises
  rw [ends_bind_iff, ends_loan]
  cases found : s.store.guest.funcs[function]? with
  | none => exact .none _ (fun _ raised => raised) latch
  | some f =>
    cases f with
    -- A callback that is exported as it is has no frames: it is run at once.
    | native n type =>
      obtain ⟨n, rfl⟩ := sandboxed n ⟨type, Array.mem_of_getElem? found⟩
      unfold Ends
      rcases ended : exec ((Callback.native n).run printer c args) s with ⟨cause | values, u⟩
      · exact accounts_of_run latch ended
      · refine ⟨((reports_run n args s).of_ok ended).trans latch, ?_⟩
        rintro fault ⟨_, failed, -⟩
        cases ended.symm.trans failed
    | code type code => exact ends_drive _ _ s sandboxed latch

end

end Embedder
