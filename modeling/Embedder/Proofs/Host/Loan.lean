import Embedder.Proofs.Host.Latch

namespace Embedder

/-!
# User data on loan

A call that enters a guest takes the user data of its environment along, and brings it back when the
guest is done. While it is away, callbacks may mark it: they take down when a benchmark starts, and
record the counter that is past its threshold. Nothing else happens to it, and nothing to the user
data of other environments.

* `UserData.Marked`, `Store.Lent`: what callbacks make of user data, and of the user data that a store
  has on loan.
* `Entry.sees`, `Entry.returns`: what callbacks see, and what the environment gets back.
* `Entry.call_induct`: what a call keeps.
* `Custody.Idle`, `Change.idle`: a store at rest has nothing on loan.
* `Leads.userData`: the user data of an environment stays if it is neither lent nor replaced.
-/

variable {σ : Type} {printer : Printer σ} {c : Caller}

/-! ### Marks -/

/-- What callbacks make of user data, one mark after the other. -/
inductive UserData.Marked (called : Callback → List Wasm.Value → Prop) (u : UserData) :
    UserData → Prop
  /-- Nothing. -/
  | same : Marked called u u
  /-- A callback that is called makes one more mark. -/
  | mark {w : UserData} {n : Callback} {args : List Wasm.Value} {f : UserData → UserData}
      (before : Marked called u w) (call : called n args) (marks : n.Marks args f) :
      Marked called u (f w)

section

variable {called : Callback → List Wasm.Value → Prop} {u v w : UserData}

/-- User data that is marked twice is marked by callbacks that were called. -/
theorem UserData.Marked.trans (first : Marked called u v) (second : Marked called v w) :
    Marked called u w := by
  induction second with
  | same => exact first
  | mark _ call marks ih => exact .mark ih call marks

/-- Marks of some callbacks are marks of more of them. -/
theorem UserData.Marked.mono {called' : Callback → List Wasm.Value → Prop} (marked : Marked called u w)
    (more : ∀ n args, called n args → called' n args) : Marked called' u w := by
  induction marked with
  | same => exact .same
  | mark _ call marks ih => exact .mark ih (more _ _ call) marks

/-- **Events.** Whatever callbacks are called, the event stays as it is. -/
theorem UserData.Marked.event (marked : Marked called u w) :
    w.eventId = u.eventId ∧ w.eventPayload = u.eventPayload := by
  refine Prod.mk.inj (?_ : w.event = u.event)
  induction marked with
  | same => rfl
  | mark _ _ marks ih => exact (marks.event _).trans ih

/-- Where no callback is called that makes marks, the user data stays as it is. -/
theorem UserData.Marked.eq_of_unmarked (marked : Marked called u w)
    (unmarked : ∀ n args f, called n args → ¬ n.Marks args f) : w = u := by
  cases marked with
  | same => rfl
  | mark _ call marks => exact absurd marks (unmarked _ _ _ call)

end

/-! ### On loan -/

/-- What a store has on loan, another one has on loan, too, with the marks of callbacks. -/
def Store.Lent (called : Callback → List Wasm.Value → Prop) (s t : Store) : Prop :=
  ∀ environment u, s.active = some ⟨environment, u⟩ →
    ∃ w, t.active = some ⟨environment, w⟩ ∧ u.Marked called w

section

variable (called : Callback → List Wasm.Value → Prop)

/-- Whatever a call does short of marking, it keeps what it has on loan. -/
theorem steady_lent (printer : Printer σ) (c : Caller) :
    Steady printer c fun s t => s.store.Lent called t.store where
  refl _ _ u lent := ⟨u, lent, .same⟩
  trans first second environment u lent := by
    obtain ⟨v, lent, marked⟩ := first environment u lent
    obtain ⟨w, lent, marked'⟩ := second environment v lent
    exact ⟨w, lent, marked.trans marked'⟩
  store _ _ _ _ active _ u lent := ⟨u, active.trans lent, .same⟩
  print _ _ _ u lent := ⟨u, lent, .same⟩
  clock _ _ u lent := ⟨u, lent, .same⟩

/-- To grow is nothing to what is lent. -/
theorem lent_of_growMemory {s t : Flight σ} {memory pages before : Nat}
    (grown : s.growMemory? c memory pages = some (before, t)) : s.store.Lent called t.store := by
  intro environment u lent
  obtain ⟨_, _, _, _, -, -, -, -, -, -, store, -⟩ := Flight.growMemory?_eq_some grown
  rw [store]
  exact ⟨u, lent, .same⟩

/-- A call leaves with a store what was lent to it, but for the marks of callbacks. -/
theorem allows_lent : Allows (fun s t : Flight σ => s.store.Lent called t.store) called := by
  intro n args f call marks s environment u lent
  refine ⟨f u, ?_, .mark .same call marks⟩
  show s.store.active.map _ = _
  rw [lent]
  rfl

end

/-! ### Calls -/

variable [Engine]

namespace Entry

variable {h : Host σ} {environment : Nat} {name : String} {args : List HostValue}
  {results : List HostType} (entry : Entry h environment name args results)

/-- A callback is called while the guest runs, in a state of the call. -/
def Asks (printer : Printer σ) (n : Callback) (given : List Wasm.Value) (u : Flight σ) : Prop :=
  entry.flight.Asks printer entry.callee.caller entry.callee.room entry.callee.function entry.params
    n given u

/-- A callback is called while the guest runs. -/
def Calls (printer : Printer σ) (n : Callback) (given : List Wasm.Value) : Prop :=
  ∃ u, entry.Asks printer n given u

/-- A callback that is called finds the user data of the environment on loan, with the marks of the
callbacks of this call. -/
theorem sees {n : Callback} {given : List Wasm.Value} {u : Flight σ}
    (asks : entry.Asks printer n given u) :
    ∃ w, u.store.active = some ⟨environment, w⟩ ∧
      entry.env.userData.Marked (entry.Calls printer) w :=
  Flight.Asks.within (steady_lent (entry.Calls printer) printer entry.callee.caller)
    (fun _ _ _ _ _ => lent_of_growMemory _) (allows_lent _) asks _ _ rfl

/-- When the guest is done, the user data of the environment is still on loan. -/
theorem returns (printer : Printer σ) : ∃ w, (entry.run printer).2.store.active = some ⟨environment, w⟩ ∧
    entry.env.userData.Marked (entry.Calls printer) w := by
  have ended : Ends (FlightM.enter printer entry.callee.caller entry.callee.room
      entry.callee.function entry.params) entry.flight _ _ :=
    ends_enter_of_asked (steady_lent (entry.Calls printer) printer entry.callee.caller)
      (fun _ _ _ _ _ => lent_of_growMemory _) (allows_lent _)
  rcases ran : entry.run printer with ⟨cause | values, after⟩
  · exact ended.of_error ran _ _ rfl
  · exact ended.of_ok ran _ _ rfl

end Entry

omit [Engine] in
/-- The environment of a call gets its user data back, whatever else the end of the call does. -/
theorem Host.environments_endCall (h : Host σ) (id environment : Nat) (u : UserData) (s : Store) :
    (h.endCall id environment (some u) s).environments =
      h.environments.modify environment fun e => { e with userData := u } :=
  (Host.undisturbed_releaseInstance _ _).environments

omit [Engine] in
theorem Host.app_endCall (h : Host σ) (id environment : Nat) (u : Option UserData) (s : Store) :
    (h.endCall id environment u s).app = h.app :=
  (Host.undisturbed_releaseInstance _ _).app

/-- **Calls.** A call that enters a guest gives the environment its user data back, with the marks of
the callbacks that were called. -/
theorem Entry.userData_call (printer : Printer σ) {h : Host σ} {v : Invoker} {name : String}
    {args : List HostValue} {results : List HostType}
    (entry : Entry h v.environment name args results) :
    ∃ w, entry.env.userData.Marked (entry.Calls printer) w ∧
      (v.call printer name args results h).2.2.environments =
        (entry.run printer).2.host.environments.modify v.environment fun e =>
          { e with userData := w } := by
  obtain ⟨w, lent, marked⟩ := entry.returns printer
  refine ⟨w, marked, ?_⟩
  rcases ran : entry.run printer with ⟨cause | values, after⟩
  · obtain ⟨_, call⟩ := entry.call_of_error ran
    rw [ran] at lent
    rw [call, Entry.landed, lent]
    exact Host.environments_endCall _ _ _ _ _
  · obtain ⟨_, call⟩ := entry.call_of_ok ran
    rw [ran] at lent
    rw [call, Entry.landed, lent]
    exact Host.environments_endCall _ _ _ _ _

/-- After a call, user data is as it was, but for the marks of callbacks. -/
theorem Entry.marked_call {h : Host σ} {v : Invoker} {name : String} {args : List HostValue}
    {results : List HostType} (entry : Entry h v.environment name args results) {e : Environment}
    (there : (v.call printer name args results h).2.2.environments.get? v.environment = some e) :
    entry.env.userData.Marked (entry.Calls printer) e.userData := by
  obtain ⟨w, marked, after⟩ := entry.userData_call printer
  rw [after, Pool.get?_modify, if_pos rfl] at there
  obtain ⟨_, -, rfl⟩ := Option.map_eq_some_iff.1 there
  exact marked

/-- A call that enters no guest leaves the host as it was. -/
theorem Invoker.exists_entry_or_same (printer : Printer σ) (v : Invoker) (name : String)
    (args : List HostValue) (results : List HostType) (h : Host σ) :
    Nonempty (Entry h v.environment name args results) ∨
      (v.call printer name args results h).2.2 = h := by
  unfold call
  simp only [environment_ready, environment_advance]
  split
  case h_1 => exact .inr rfl
  case h_2 env bound =>
    split
    case h_1 => exact .inr rfl
    case h_2 callee found =>
      split
      case h_1 => exact .inr rfl
      case h_2 params encoded => exact .inl ⟨env, callee, params, bound, found, encoded⟩

/-! ### At rest -/

/-- Nothing is on loan to a store at rest. -/
def Custody.Idle (x : Custody) : Prop :=
  ∀ s, x.record.store = some s → s.active = none

section

variable [Holder σ] [Rule σ] {allowed : Effect → Prop} {a b : Config σ}

omit [Engine] [Holder σ] [Rule σ] in
/-- What happens to an instance leaves nothing on loan at rest. -/
theorem Evolves.idle {id paid : Nat} {x y : Custody} (step : Evolves allowed id x paid y)
    (sound : x.Sound) (hx : x.Idle) : y.Idle := by
  intro s there
  cases step with
  | edit idle _ _ _ active =>
    cases there
    exact active.trans (hx _ idle)
  | latch idle =>
    have rest := hx _ idle
    cases there
    exact rest
  | alloc idle =>
    have rest := hx _ idle
    cases there
    exact rest
  | free idle =>
    have rest := hx _ idle
    cases there
    exact rest
  | enter => cases there
  | leave =>
    cases there
    rfl
  | complete _ active =>
    cases there
    exact active
  -- The store is in hand, and not in its place.
  | run held => cases (sound.held _ held).1.symm.trans there
  | grow held => cases (sound.held _ held).1.symm.trans there
  | manage held => cases (sound.held _ held).1.symm.trans there

omit [Engine] in
/-- **Rest.** Whatever happens to a host, nothing is on loan to a store at rest. -/
theorem Change.idle (step : Change allowed a b) (sound : a.Sound)
    (ha : ∀ id x, a.custody? id = some x → x.Idle) :
    ∀ id x, b.custody? id = some x → x.Idle := by
  refine step.custody_induct sound (fun _ _ _ hx => hx)
    (fun _ _ _ _ sound step hx => step.idle sound hx) ?_ ha
  intro id x made
  cases made with
  | made module runtime commons linked limiter store memory =>
    intro s there
    cases store.symm.trans there

section

variable {h : Host σ} {g : Pending} {environment : Nat} {name : String} {args : List HostValue}
  {results : List HostType} (entry : Entry h environment name args results)

omit [Engine] in
/-- A call that enters a guest takes its store in hand. -/
theorem Entry.leads_flight (enters : allowed (.enters entry.callee.caller.inst))
    (lends : allowed (.lends environment)) :
    Leads allowed ⟨h, g⟩ (entry.flight.config g entry.callee.caller.inst
      entry.callee.caller.commons true) := by
  obtain ⟨i, there, idle, latch, caller⟩ := Host.callee_eq_ok entry.found
  rw [← entry.caller_inst] at there
  have commons : entry.callee.caller.commons = i.commons := by rw [caller]
  rw [commons]
  exact leads_beginCall there idle latch entry.bound entry.caller_inst.symm enters lends

/-- From the beginning of a call, nothing but changes lead to where a callback is called. -/
theorem Entry.leads_asks (traced : Traced allowed printer) {n : Callback} {given : List Wasm.Value}
    {u : Flight σ} (asks : entry.Asks printer n given u) :
    Leads allowed
      (entry.flight.config g entry.callee.caller.inst entry.callee.caller.commons true)
      (u.config g entry.callee.caller.inst entry.callee.caller.commons true) :=
  have working := working_leads traced entry.callee.caller g true
  Flight.Asks.within working.toSteady working.grow (fun _ _ f _ marks s =>
    working.mark s f marks.event) asks

end

section

variable {h : Host σ} {g : Pending} {v : Invoker} {name : String} {args : List HostValue}
  {results : List HostType} (entry : Entry h v.environment name args results)

omit [Holder σ] [Rule σ] in
/-- A call that has entered a guest ends with some store, and the app heap in it is as it was. -/
theorem Entry.heap_call (printer : Printer σ) :
    ∃ store : Store, store.heap = entry.callee.store.heap ∧
      ∀ i, (v.call printer name args results h).2.2.instance? entry.env.inst = some i →
        i.store = some store := by
  have heap := (within_enter (working_heap printer entry.callee.caller) entry.callee.room
    entry.callee.function entry.params).snd entry.flight
  change (entry.run printer).2.store.heap = entry.callee.store.heap at heap
  rw [← entry.caller_inst]
  rcases ran : entry.run printer with ⟨cause | values, after⟩ <;> rw [ran] at heap
  · obtain ⟨_, call⟩ := entry.call_of_error ran
    obtain ⟨-, kept, -⟩ := after.store.reclaim.latchFailure_same cause
    rw [call]
    exact ⟨_, kept.trans heap, fun i there => Host.store_endCall there⟩
  · obtain ⟨_, call⟩ := entry.call_of_ok ran
    rw [call]
    exact ⟨after.store.reclaim, heap, fun i there => Host.store_endCall there⟩

/-- **Calls.** Whatever the changes keep that a call itself makes, and what is printed meanwhile keeps,
the call keeps. -/
theorem Entry.call_induct {P : Config σ → Prop} (free : g.held entry.env.inst = none)
    (enters : allowed (.enters entry.env.inst)) (lends : allowed (.lends v.environment))
    (leads : ∀ {a b}, Leads allowed a b → P a → P b)
    (prints : ∀ (t : Host σ) loan commons bytes, loan.ready = true →
      P ⟨t, g.lend entry.env.inst loan⟩ →
        P ⟨printer commons bytes t, g.lend entry.env.inst loan⟩)
    (start : P ⟨h, g⟩) : P ⟨(v.call printer name args results h).2.2, g⟩ := by
  rw [← entry.caller_inst] at free enters prints
  have traced : Traced allowed (Host.emit : Printer σ) := traced_emit
  have quiet := working_leads traced entry.callee.caller g true
  have working : Working printer entry.callee.caller fun x y =>
      P (x.config g entry.callee.caller.inst entry.callee.caller.commons true) →
        P (y.config g entry.callee.caller.inst entry.callee.caller.commons true) :=
    { refl := fun _ => id
      trans := fun first second => second ∘ first
      store := fun x store guest heap active => leads (quiet.store x store guest heap active)
      print := fun x bytes => prints x.host _ _ bytes rfl
      clock := fun x => leads (quiet.clock x)
      mark := fun x f event => leads (quiet.mark x f event)
      grow := fun x memory pages before y grown => leads (quiet.grow x memory pages before y grown) }
  have flown := (within_enter working entry.callee.room entry.callee.function entry.params).snd
    entry.flight (leads (entry.leads_flight enters lends) start)
  change P ((entry.run printer).2.config g _ _ true) at flown
  -- However the guest ends, the call gives back what it has had in hand.
  obtain ⟨u, lent, -⟩ := entry.returns printer
  have landed : ∀ (after : Flight σ) (store : Store), after.store.guest.Extends store.guest →
      store.heap = after.store.heap → after.store.active = some ⟨v.environment, u⟩ →
        store.active = none → P (after.config g entry.callee.caller.inst
          entry.callee.caller.commons true) → P ⟨entry.landed after store, g⟩ := by
    intro after store guest heap lent active
    rw [Entry.landed, lent]
    exact leads (leads_endCall free guest heap lent active lends)
  rcases ran : entry.run printer with ⟨cause | values, after⟩ <;> rw [ran] at flown lent
  · obtain ⟨_, call⟩ := entry.call_of_error ran
    obtain ⟨guest, kept, active⟩ := after.store.reclaim.latchFailure_same cause
    rw [call]
    exact landed after _ (guest ▸ .refl _) kept lent active flown
  · obtain ⟨_, call⟩ := entry.call_of_ok ran
    rw [call]
    exact landed after after.store.reclaim (.refl _) rfl lent rfl flown

end

omit [Engine] in
/-- **Environments.** The user data of an environment stays as it is where it is neither lent nor
replaced. -/
theorem Leads.userData (lead : Leads allowed a b) (ha : a.Sound) {id : Nat}
    (denied : ¬ allowed (.lends id)) {e e' : Environment}
    (before : a.host.environments.get? id = some e)
    (after : b.host.environments.get? id = some e') : e'.userData = e.userData := by
  suffices all : id < b.host.environments.next ∧
      ∀ e', b.host.environments.get? id = some e' → e'.userData = e.userData from all.2 e' after
  refine lead.induct (P := fun c => id < c.host.environments.next ∧
    ∀ e', c.host.environments.get? id = some e' → e'.userData = e.userData) ha ?_ ?_
  · intro c d _ step ⟨old, same⟩
    refine ⟨Nat.lt_of_lt_of_le old step.since.environments.next, fun e' there => ?_⟩
    -- Only a change of user data touches what is there, and it is one of another environment.
    cases step with
    | environmentMade =>
      rw [Pool.get?_insert, if_neg (Nat.ne_of_lt old)] at there
      exact same e' there
    | environmentGone =>
      rw [Pool.get?_erase] at there
      split at there
      · cases there
      · exact same e' there
    | @userData h g j f permit =>
      have other : id ≠ j := fun eq => denied (eq ▸ permit)
      rw [Host.modifyEnvironment, Pool.get?_modify, if_neg other] at there
      exact same e' there
    | _ => exact same e' there
  · refine ⟨Pool.lt_next_of_get?_eq_some before, fun e' there => ?_⟩
    cases before.symm.trans there
    rfl

end

end Embedder
