import Embedder.Proofs.Host.Outcomes

namespace Embedder

/-!
# Events of runners

A runner keeps the event that it was made with. The event is in the user data of the runner's
environment, or, while a call is in flight, in what the call has on loan. Whatever happens to a host,
nobody replaces it: the environment belongs to the runner and to nobody else.

* `Pending.event?`, `Config.Bears`: where the event of an environment is.
* `Change.bears`: no change touches it, as long as somebody inside the host holds the environment.
* `Config.Bounded`, `Leads.bounded`: nothing is on loan from environments that are yet to come.
* `Config.Carries`, `Leads.carries`: the event of a runner.
* `ends_createRunner_carries`: a new runner carries the event that it is made with.
-/

-- Powers are those of the core library, whatever else is imported.
attribute [local instance (1100)] instPowNat

variable {σ : Type}

/-! ### Where events are -/

/-- Whose user data the call in flight on an instance has on loan, and the event in it. -/
def Pending.event? (g : Pending) (id : Nat) : Option (Nat × Bytes × Bytes) :=
  (g.held id).bind fun loan => loan.store.event?

theorem Store.event?_eq_some {s : Store} {environment : Nat} {event : Bytes × Bytes}
    (lent : s.event? = some (environment, event)) :
    ∃ u, s.active = some ⟨environment, u⟩ ∧ u.event = event := by
  obtain ⟨⟨_, u⟩, active, same⟩ := Option.map_eq_some_iff.1 lent
  cases same
  exact ⟨u, active, rfl⟩

/-- What is on loan to the call in flight on one instance is its own. -/
theorem Pending.event?_update {g g' : Pending} {j : Nat} {loan : Option Loan}
    (held : g'.held = Function.update g.held j loan) (id : Nat) :
    g'.event? id = if id = j then loan.bind fun loan => loan.store.event? else g.event? id := by
  rw [event?, held]
  by_cases own : id = j
  · rw [own, Function.update_self, if_pos rfl]
  · rw [Function.update_of_ne own, if_neg own]
    rfl

/-- Nothing is on loan to a guest that has just been made. -/
theorem Pending.event?_lend_ofGuest (g : Pending) (j : Nat) (guest : Wasm.Guest Callback) (commons : Nat)
    (ready : Bool) (id : Nat) :
    (g.lend j ⟨.ofGuest guest, commons, ready⟩).event? id =
      if id = j then .none else g.event? id := by
  have held : (g.lend j ⟨.ofGuest guest, commons, ready⟩).held = Function.update g.held j _ := rfl
  exact event?_update held id

/-- Nothing is on loan to an instance that is given up. -/
theorem Pending.event?_giveUp (g : Pending) (j : Nat) (pins : Holds) (debt : Charges) (id : Nat) :
    ((({ g with held := Function.update g.held j .none } : Pending).hold pins).owe debt).event? id =
      if id = j then .none else g.event? id := by
  have held : ((({ g with held := Function.update g.held j .none } : Pending).hold pins).owe debt).held =
      Function.update g.held j .none := rfl
  exact event?_update held id

/-- Where user data is on loan, so is the event in it. -/
theorem Pending.event?_of_lends {g : Pending} {environment : Nat} (lends : g.Lends environment) :
    ∃ id event, g.event? id = some (environment, event) := by
  obtain ⟨id, loan, u, held, active⟩ := lends
  refine ⟨id, u.event, ?_⟩
  rw [event?, held, Option.bind_some, Store.event?, active]
  rfl

/-- An environment of an instance has an event: the user data on loan has it, or else the user data in
its place does. -/
structure Config.Bears (c : Config σ) (environment inst : Nat) (event : Bytes × Bytes) : Prop where
  lent : ∀ id e, c.pending.event? id = some (environment, e) → id = inst ∧ e = event
  rests : (∀ e, c.pending.event? inst ≠ some (environment, e)) →
    ∀ e, c.host.environments.get? environment = some e → e.userData.event = event

section

variable {allowed : Effect → Prop} {a b : Config σ} {environment inst : Nat} {event : Bytes × Bytes}

/-- Where nothing becomes of what is on loan, and of the event in its place, the environment bears it
still. -/
theorem Config.Bears.congr (bears : a.Bears environment inst event)
    (lent : ∀ id, b.pending.event? id = a.pending.event? id)
    (rests : ∀ e, b.host.environments.get? environment = some e →
      ∃ e', a.host.environments.get? environment = some e' ∧ e.userData.event = e'.userData.event) :
    b.Bears environment inst event where
  lent id e on := bears.lent id e (lent id ▸ on)
  rests free e there := by
    obtain ⟨e', before, same⟩ := rests e there
    rw [lent inst] at free
    exact same.trans (bears.rests free e' before)

/-- What happens to a store in hand leaves the event alone that it has on loan. -/
theorem Evolves.event? {id paid : Nat} {x y : Custody} (step : Evolves allowed id x paid y)
    {loan loan' : Loan} (before : x.held = some loan) (after : y.held = some loan') :
    loan'.store.event? = loan.store.event? := by
  have same : x.held = some loan' → loan'.store.event? = loan.store.event? := by
    intro here
    cases before.symm.trans here
    rfl
  -- Only what runs with the store in hand could change it, and callbacks leave the event alone.
  cases step with
  | edit => exact same after
  | latch => exact same after
  | alloc => exact same after
  | free => exact same after
  | enter _ free => cases free.symm.trans before
  | leave => cases after
  | complete => cases after
  | run held _ _ event =>
    cases held.symm.trans before
    cases after
    exact event
  | grow held =>
    cases held.symm.trans before
    cases after
    rfl
  | manage held =>
    cases held.symm.trans before
    cases after
    rfl

/-- Whatever happens to an instance that is known, an event that a call takes on loan is the one that
was in its place, and what it gives back is the one that it had. -/
theorem Config.Bears.evolve {h h' : Host σ} {g g' : Pending} {id paid : Nat} {x y : Custody}
    {e₀ : Environment} (bears : Config.Bears ⟨h, g⟩ environment inst event)
    (there : h.environments.get? environment = some e₀) (own : e₀.inst = inst)
    (same : h'.environments = h.environments) (held : g.held id = x.held)
    (after : g'.held = Function.update g.held id y.held) (step : Evolves allowed id x paid y)
    (square : x.Squares h.environments id y) : Config.Bears ⟨h', g'⟩ environment inst event := by
  -- What is on loan elsewhere does not change.
  have here : g'.event? id = y.held.bind fun loan => loan.store.event? := by
    rw [Pending.event?_update after, if_pos rfl]
  have before : g.event? id = x.held.bind fun loan => loan.store.event? := by
    rw [Pending.event?, held]
  have elsewhere : ∀ j, j ≠ id → g'.event? j = g.event? j := by
    intro j other
    rw [Pending.event?_update after, if_neg other]
  have kept : g'.event? id = g.event? id → Config.Bears ⟨h', g'⟩ environment inst event := by
    intro still
    refine bears.congr (fun j => ?_) fun e here => ⟨e, same ▸ here, rfl⟩
    by_cases other : j = id
    · rw [other]
      exact still
    · exact elsewhere j other
  rcases taken : x.held with _ | loan <;> rcases given : y.held with _ | loan'
  · exact kept (by rw [here, before, taken, given])
  · -- A call takes the store: the environment is one of this instance, and nothing was on loan.
    rw [given, Option.bind_some] at here
    rw [taken, Option.bind_none] at before
    refine ⟨fun j e on => ?_, fun free e present => ?_⟩
    · by_cases other : j = id
      · subst other
        obtain ⟨u, active, rfl⟩ := Store.event?_eq_some (here.symm.trans on)
        obtain ⟨e', present, own', rfl⟩ := square.borrowed taken loan' environment u given active
        cases there.symm.trans present
        have at_rest : ∀ e, g.event? inst ≠ some (environment, e) := by
          intro e on
          rw [← own, own', before] at on
          cases on
        exact ⟨own'.symm.trans own, bears.rests at_rest e₀ there⟩
      · exact bears.lent j e ((elsewhere j other).symm.trans on)
    · refine bears.rests (fun e on => ?_) e (same ▸ present)
      by_cases other : inst = id
      · rw [other, before] at on
        cases on
      · exact free e ((elsewhere inst other).trans on)
  · -- A call gives the store back: the user data that it had on loan is in its place.
    rw [given, Option.bind_none] at here
    rw [taken, Option.bind_some] at before
    refine ⟨fun j e on => ?_, fun free e present => ?_⟩
    · by_cases other : j = id
      · rw [other, here] at on
        cases on
      · exact bears.lent j e ((elsewhere j other).symm.trans on)
    · rw [same] at present
      by_cases lent : ∃ e', g.event? inst = some (environment, e')
      · obtain ⟨e', on⟩ := lent
        by_cases other : inst = id
        · rw [other] at on
          obtain ⟨u, active, rfl⟩ := Store.event?_eq_some (before.symm.trans on)
          rw [square.returned given loan environment u e taken active present]
          exact (bears.lent id _ on).2
        · exact absurd ((elsewhere inst other).trans on) (free e')
      · exact bears.rests (not_exists.1 lent) e present
  · refine kept ?_
    rw [here, before, taken, given]
    exact step.event? taken given

/-! ### Changes -/

variable [Holder σ] [Rule σ]

/-- What somebody inside the host holds belongs neither to the application nor to an operation, if it can
have one holder only. -/
theorem Config.Sound.unowned (sound : a.Sound) (inner : 0 < a.host.inner .environment environment) :
    Holder.holds a.host.app .environment environment + a.pending.pins .environment environment = 0 := by
  have counted := sound.counted .environment environment nofun
  have one : a.host.holders .environment environment ≤ 1 := by
    show Pool.owned _ _ ≤ 1
    unfold Pool.owned
    split <;> omega
  omega

/-- An instance that has an environment has another holder than the operation that makes it. -/
theorem Config.Sound.complete_of_environment (sound : a.Sound) {e : Environment}
    (there : a.host.environments.get? environment = some e) {c : Counted Instance} {loan : Loan}
    (present : a.host.instances.get? e.inst = some c) (held : a.pending.held e.inst = some loan) :
    c.holders ≠ 1 := by
  have counted := sound.counted .inst e.inst nofun
  have refs := Pool.le_total there fun e' => e'.refs .inst e.inst
  have one : e.refs .inst e.inst = 1 := by simp [Environment.refs, Holds.on]
  have count : a.host.holders .inst e.inst = c.holders := Pool.count_of_get? present
  have loaned : a.pending.loaned .inst e.inst = 1 := by
    show (if (a.pending.held e.inst).isSome then 1 else 0) = 1
    rw [held]
    rfl
  simp only [Host.inner] at counted
  omega

/-- **Events.** Whatever happens to a host, an environment that somebody inside the host holds keeps its
event. -/
theorem Change.bears (step : Change allowed a b) (sound : a.Sound) {e₀ : Environment}
    (there : a.host.environments.get? environment = some e₀) (own : e₀.inst = inst)
    (inner : 0 < a.host.inner .environment environment) (bears : a.Bears environment inst event) :
    b.Bears environment inst event := by
  -- The environment is held inside the host, so it stays, and nobody else may edit its user data.
  cases step with
  | environmentMade =>
    refine bears.congr (fun _ => rfl) fun e present => ⟨e, ?_, rfl⟩
    rwa [Pool.get?_insert, if_neg (Nat.ne_of_lt (Pool.lt_next_of_get?_eq_some there))] at present
  | environmentGone =>
    refine bears.congr (fun _ => rfl) fun e present => ⟨e, ?_, rfl⟩
    rw [Pool.get?_erase] at present
    split at present
    · cases present
    · exact present
  | @userData h g j f permit due =>
    by_cases other : environment = j
    · subst other
      have changed : ∀ e, (h.modifyEnvironment environment fun e =>
          { e with userData := f e }).environments.get? environment = some e →
            e = { e₀ with userData := f e₀ } := by
        intro e present
        rw [Host.modifyEnvironment, Pool.get?_modify, if_pos rfl, there, Option.map_some] at present
        exact (Option.some.inj present).symm
      rcases due with owned | lends | same
      · have unowned := sound.unowned inner
        exact absurd unowned (Nat.ne_of_gt owned)
      · obtain ⟨id, e, on⟩ := Pending.event?_of_lends lends
        obtain ⟨rfl, rfl⟩ := bears.lent id e on
        exact ⟨bears.lent, fun free => absurd on (free e)⟩
      · refine bears.congr (fun _ => rfl) fun e present => ⟨e₀, there, ?_⟩
        rw [changed e present]
        exact same e₀
    · refine bears.congr (fun _ => rfl) fun e present => ⟨e, ?_, rfl⟩
      rwa [Host.modifyEnvironment, Pool.get?_modify, if_neg other] at present
  | evolve _ step _ square => exact bears.evolve there own rfl rfl rfl step square
  | @inHand h g j c loan loan' present held step =>
    refine bears.evolve there own rfl held rfl step ?_
    exact Custody.squares_of_same _ _ rfl
  | @instanceMade h g i =>
    refine bears.congr (fun id => (Pending.event?_lend_ofGuest ..).trans ?_) fun e present =>
      ⟨e, present, rfl⟩
    split
    case isTrue new =>
      have free : Pending.held ((g.hold i.refs).owe i.charge) id = none := new ▸ sound.held_next
      rw [Pending.event?, free]
      rfl
    case isFalse => rfl
  | @instanceFailed h g j c loan present last held =>
    have other : inst ≠ j := by
      rintro rfl
      subst own
      exact sound.complete_of_environment there present held last
    refine ⟨fun id e on => ?_, fun free e present => ?_⟩
    · rw [Pending.event?_giveUp] at on
      split at on
      · cases on
      · exact bears.lent id e on
    · simp only [Pending.event?_giveUp, if_neg other] at free
      exact bears.rests free e present
  | _ => exact ⟨bears.lent, bears.rests⟩

/-- What is on loan to a call after something has happened to its instance was so before, or it is of an
environment that is there. -/
theorem Evolves.borrows {id paid : Nat} {x y : Custody} (step : Evolves allowed id x paid y)
    {environments : Pool Environment} (square : x.Squares environments id y) {e : Bytes × Bytes}
    (lent : (y.held.bind fun loan => loan.store.event?) = some (environment, e)) :
    (x.held.bind fun loan => loan.store.event?) = some (environment, e) ∨
      (environments.get? environment).isSome := by
  obtain ⟨loan', given, on⟩ := Option.bind_eq_some_iff.1 lent
  rcases taken : x.held with _ | loan
  · obtain ⟨u, active, -⟩ := Store.event?_eq_some on
    obtain ⟨e', present, -⟩ := square.borrowed taken loan' environment u given active
    exact .inr (by rw [present]; rfl)
  · rw [step.event? taken given] at on
    exact .inl on

/-- Nothing is on loan from environments that are yet to come. -/
def Config.Bounded (c : Config σ) : Prop :=
  ∀ id environment e, c.pending.event? id = some (environment, e) →
    environment < c.host.environments.next

omit [Holder σ] [Rule σ] in
/-- Whatever happens to an instance, what is on loan is from environments that there have been. -/
theorem Config.Bounded.evolve {h h' : Host σ} {g g' : Pending} {id paid : Nat} {x y : Custody}
    (bounded : Config.Bounded ⟨h, g⟩) (same : h'.environments = h.environments)
    (held : g.held id = x.held) (after : g'.held = Function.update g.held id y.held)
    (step : Evolves allowed id x paid y) (square : x.Squares h.environments id y) :
    Config.Bounded ⟨h', g'⟩ := by
  intro j environment e lent
  dsimp only at lent ⊢
  rw [same]
  rw [Pending.event?_update after] at lent
  by_cases other : j = id
  · rw [if_pos other] at lent
    rcases step.borrows square lent with before | present
    · rw [← held] at before
      exact bounded id environment e before
    · obtain ⟨e', there⟩ := Option.isSome_iff_exists.1 present
      exact Pool.lt_next_of_get?_eq_some there
  · rw [if_neg other] at lent
    exact bounded j environment e lent

/-- **Loans.** Whatever happens to a host, what is on loan is from environments that there have been. -/
theorem Change.bounded (step : Change allowed a b) (ha : a.Bounded) : b.Bounded := by
  -- Mostly, what is on loan stays so, and numbers of environments that are yet to come only grow.
  have kept : (∀ id, b.pending.event? id = a.pending.event? id) → b.Bounded := by
    intro same id environment e lent
    rw [same] at lent
    exact Nat.lt_of_lt_of_le (ha id environment e lent) step.since.environments.next
  cases step with
  | evolve _ step _ square => exact ha.evolve rfl rfl rfl step square
  | inHand _ held step => exact ha.evolve rfl held rfl step (Custody.squares_of_same _ _ rfl)
  | instanceMade =>
    intro id environment e lent
    rw [Pending.event?_lend_ofGuest] at lent
    split at lent
    · cases lent
    · exact ha id environment e lent
  | instanceFailed =>
    intro id environment e lent
    rw [Pending.event?_giveUp] at lent
    split at lent
    · cases lent
    · exact ha id environment e lent
  | _ => exact kept fun _ => rfl

theorem Leads.bounded (lead : Leads allowed a b) (sound : a.Sound) (ha : a.Bounded) : b.Bounded :=
  lead.induct sound (fun _ _ _ step => step.bounded) ha

end

/-! ### Runners -/

variable [Holder σ] [Rule σ] {allowed : Effect → Prop} {a b : Config σ} {id : Nat}
  {event : Bytes × Bytes}

/-- As long as a runner is there, its environment has an event. -/
structure Config.Carries (c : Config σ) (id : Nat) (event : Bytes × Bytes) : Prop where
  old : id < c.host.runners.next
  bears : ∀ r, c.host.runners.get? id = some r → c.Bears r.environment r.inst event

theorem Change.carries (step : Change allowed a b) (sound : a.Sound) (chained : a.Chained)
    (ha : a.Carries id event) : b.Carries id event where
  old := Nat.lt_of_lt_of_le ha.old step.since.runners.next
  bears := by
    intro r' after
    obtain ⟨r, before, same⟩ := step.since.runners.old id r' ha.old after
    simp only [Prod.mk.injEq] at same
    rw [← same.1, ← same.2.1]
    obtain ⟨h, g⟩ := a
    obtain ⟨e, i, manned⟩ := sound.manned chained before
    -- The runner holds its environment, and so nobody else does.
    have inner : 0 < h.inner .environment r.environment := by
      have refs : r.refs .environment r.environment ≤
          h.runners.total fun r' => r'.refs .environment r.environment :=
        Pool.le_total (p := h.runners) before fun r' => r'.refs .environment r.environment
      have pos : 0 < r.refs .environment r.environment := Runner.refs_pos.2 (.inl ⟨rfl, rfl⟩)
      simp only [Host.inner]
      omega
    exact step.bears sound manned.bound manned.own inner (ha.bears r before)

/-- **Events of runners.** Whatever happens to a host, a runner carries its event. -/
theorem Leads.carries (lead : Leads allowed a b) (sound : a.Sound) (chained : a.Chained)
    (ha : a.Carries id event) : b.Carries id event :=
  (lead.induct (P := fun c => c.Chained ∧ c.Carries id event) sound
    (fun _ _ sound step ⟨chained, carries⟩ =>
      ⟨step.chained chained, step.carries sound chained carries⟩) ⟨chained, ha⟩).2

variable [Engine]

/-- **Creation.** A new runner carries the event that it is made with, each part with a zero byte after
it, and both parts are short enough. -/
theorem ends_createRunner_carries {printer : Printer σ} {h : Host σ} {g : Pending}
    (traced : Traced allowed printer) (fresh : ∀ e, h.environments.next ≤ e → allowed (.lends e))
    (runtime : Nat) (bytecode eventId payload : Bytes) (config : ModuleConfig) (execStack : Nat)
    (sound : Config.Sound ⟨h, g⟩) (bounded : Config.Bounded ⟨h, g⟩) :
    Ends (HostM.createRunner printer runtime bytecode eventId payload config execStack) h
      (fun id h' => Config.Carries ⟨h', g.pin .runner id⟩ id (terminated eventId, terminated payload) ∧
        (terminated eventId).length < 2 ^ (32 : Nat) ∧ (terminated payload).length < 2 ^ (32 : Nat) ∧
        Leads allowed ⟨h, g⟩ ⟨h', g.pin .runner id⟩)
      fun _ h' => Leads allowed ⟨h, g⟩ ⟨h', g⟩ := by
  refine (ends_createRunner traced fresh runtime bytecode eventId payload config execStack sound).mono
    (fun id h' made => ?_) fun _ _ lead => lead
  obtain ⟨⟨r, e, present, -, newer, there, -, made⟩, lead⟩ := made
  obtain ⟨event, first, second⟩ := UserData.event_of_withEvent made
  refine ⟨⟨Pool.lt_next_of_get?_eq_some present, fun r' present' => ?_⟩, first, second, lead⟩
  cases present.symm.trans present'
  -- The environment is new, and so nothing is on loan from it.
  refine ⟨fun j e' lent => ?_, fun _ e' there' => ?_⟩
  · exact absurd (bounded j _ e' lent) (Nat.not_lt_of_le newer)
  · cases there.symm.trans there'
    exact event

end Embedder
