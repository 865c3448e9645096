import Embedder.Host.Call
import Embedder.Proofs.Host.Creation
import Embedder.Proofs.Host.Initial

namespace Embedder

open Session (Kind)

/-!
# Running guests

What runs a guest makes nothing but changes, too: a call takes the store of its instance in hand and
gives it back, whatever the guest does and whatever runs when it prints.

* `Traced`: printers that make nothing but changes.
* `keeps_call`, `ends_instantiate`: the operations that run code.
-/

variable {σ α β : Type} [Holder σ] [Rule σ] {allowed : Effect → Prop} {printer : Printer σ} {h : Host σ}
  {g : Pending}

/-- Whatever a printer runs makes nothing but changes, and leaves in hand what was. -/
def Traced (allowed : Effect → Prop) (printer : Printer σ) : Prop :=
  ∀ commons bytes h g, Leads allowed ⟨h, g⟩ ⟨printer commons bytes h, g⟩

/-- Printing without a hook can be traced: it adds to the output. -/
theorem traced_emit : Traced allowed (Host.emit : Printer σ) :=
  fun _ _ _ _ => .of_change (.commons fun _ => rfl)

/-! ### Flights -/

/-- A call in flight, seen from the host: its store is in hand. -/
def Flight.config (s : Flight σ) (g : Pending) (id commons : Nat) (ready : Bool) : Config σ :=
  ⟨s.host, g.lend id ⟨s.store, commons, ready⟩⟩

/-- Every part of a call in flight makes nothing but changes. -/
theorem working_leads (traced : Traced allowed printer) (c : Caller) (g : Pending) (ready : Bool) :
    Working printer c fun s t =>
      Leads allowed (s.config g c.inst c.commons ready) (t.config g c.inst c.commons ready) where
  refl _ := .refl
  trans := .trans
  store := by
    intro s store guest heap active
    exact leads_inHand fun _ => .run rfl guest heap (by rw [Store.event?, active, Store.event?])
  print s bytes := traced _ _ _ _
  clock := by
    intro s
    unfold Host.readClock
    split
    · exact .refl
    · exact .of_change (.commons fun _ => rfl)
  mark s f event := by
    refine leads_inHand fun _ => .run rfl (.refl _) rfl ?_
    show (s.store.active.map _).map _ = s.store.active.map _
    rw [Option.map_map]
    exact congrFun (congrArg Option.map (funext fun a => by simp [event])) _
  grow := by
    intro s memory pages before t grown
    obtain ⟨m, i, k, budget, hm, hi, hk, reserved, limit, -, store, host⟩ :=
      Flight.growMemory?_eq_some grown
    refine .of_sound fun ha => ?_
    have held : (g.lend c.inst ⟨s.store, c.commons, ready⟩).held c.inst =
        some ⟨s.store, c.commons, ready⟩ := by simp
    obtain ⟨c', hc, rfl⟩ := Option.map_eq_some_iff.1 hi
    have commons : c.commons = c'.value.commons :=
      ((ha.custody _ _ (Config.custody?_of_get? hc)).held _ held).2
    have step : Evolves allowed c.inst
        ⟨c'.value, (g.lend c.inst ⟨s.store, c.commons, ready⟩).held c.inst, g.taken c.inst⟩
        (pages * Wasm.pageSize)
        ⟨{ c'.value with
            limiter := ⟨⟨c'.value.limiter.charged.value + pages * Wasm.pageSize⟩⟩ },
          some ⟨t.store, c.commons, ready⟩, g.taken c.inst⟩ := by
      rw [store]
      exact .grow held hm (Nat.dvd_mul_left _ _) limit
    have hc' : (s.host.modifyBudget c.commons fun _ => budget).instances.get? c.inst = some c' := hc
    -- The bytes are charged first, and then they become the memory's.
    refine (Leads.of_change (.lease hk reserved)).trans ?_
    have grow := leads_evolve_paid hc' step (by simp)
    rw [← commons] at grow
    refine grow.cast ?_
    rw [Flight.config, host]
    simp only [Pending.lend, Function.update_idem, Function.update_eq_self,
      Config.mk.injEq, and_true]
    exact Host.modifyInstance_congr hc' _ rfl

/-! ### Calls -/

/-- The store of an instance at rest is not in hand. -/
theorem Config.Sound.free {id : Nat} {i : Instance} {s : Store} (ha : Config.Sound ⟨h, g⟩)
    (present : h.instance? id = some i) (idle : i.store = some s) : g.held id = none := by
  obtain ⟨c, hc, rfl⟩ := Option.map_eq_some_iff.1 present
  exact (ha.custody _ _ (Config.custody?_of_get? hc)).free idle

omit [Rule σ] in
/-- An instance that has an environment has another holder than its call. -/
theorem shared_of_environment {id : Nat} {e : Environment}
    (present : h.environments.get? id = some e) : Config.Shared ⟨h, g⟩ e.inst := by
  have le := Pool.le_total present fun e' => e'.refs .inst e.inst
  have one : e.refs .inst e.inst = 1 := by simp [Environment.refs, Holds.on]
  simp only [Config.Shared, Host.inner]
  omega

/-- A call takes the store of its instance in hand, and the user data of the environment along. -/
theorem leads_beginCall {id environment : Nat} {i : Instance} {s : Store} {e : Environment}
    (present : h.instance? id = some i) (idle : i.store = some s) (latch : s.latch = none)
    (bound : h.environments.get? environment = some e) (own : e.inst = id)
    (permit : allowed (.enters id)) (lends : allowed (.lends environment)) :
    Leads allowed ⟨h, g⟩ ⟨h.beginCall id environment,
      g.lend id ⟨s.lend environment e.userData, i.commons, true⟩⟩ := by
  refine .of_sound fun ha => ?_
  have free := ha.free present idle
  have shared : Config.Shared ⟨h, g⟩ id := own ▸ shared_of_environment bound
  refine (leads_retainInstance shared).trans ?_
  have kept : (h.retainInstance id).instance? id = some i := by simpa using present
  obtain ⟨c, hc, rfl⟩ := Option.map_eq_some_iff.1 kept
  -- The store goes from the instance into the hands of the call, with the user data on loan.
  have step : Evolves allowed id ⟨c.value, none, g.taken id⟩ 0
      ⟨{ c.value with store := none }, some ⟨s.lend environment e.userData, c.value.commons, true⟩,
        g.taken id⟩ := .enter idle rfl latch permit
  refine (leads_borrow hc free step fun environment' u lent => ?_).trans ?_
  · cases lent
    exact ⟨e, bound, own, rfl⟩
  rw [← Host.modifyInstance_congr hc (f := fun i => { i with store := none }) _ rfl]
  refine .of_change (.userData lends (.inr (.inl ?_)))
  exact ⟨id, _, e.userData, Function.update_self .., rfl⟩

/-- A call gives the store of its instance back, with what it has made of it, and the environment the
user data that it had on loan. -/
theorem leads_endCall {id environment commons : Nat} {u : UserData} {s s' : Store}
    (free : g.held id = none) (guest : s.guest.Extends s'.guest) (heap : s'.heap = s.heap)
    (lent : s.active = some ⟨environment, u⟩) (active : s'.active = none)
    (lends : allowed (.lends environment)) :
    Leads allowed ⟨h, g.lend id ⟨s, commons, true⟩⟩ ⟨h.endCall id environment (some u) s', g⟩ := by
  refine .of_sound fun ha => ?_
  have held : (g.lend id ⟨s, commons, true⟩).held id = some ⟨s, commons, true⟩ := by simp
  obtain ⟨c, hc⟩ := Option.isSome_iff_exists.1 (ha.present _ _ held)
  have rest : ({ s' with active := none } : Store) = s' := by rw [← active]
  have leave : Evolves allowed id ⟨c.value, some ⟨{ s' with active := s.active }, commons, true⟩,
      g.taken id⟩ 0 ⟨{ c.value with store := some s' }, none, g.taken id⟩ := by
    rw [← rest]
    exact .leave (s := { s' with active := s.active }) rfl
  unfold Host.endCall
  generalize hh : (h.modifyEnvironment environment fun e =>
    { e with userData := (some u).getD e.userData }) = h₁
  -- The user data goes back first, while it is still on loan, and the store after it.
  have data : Leads allowed ⟨h, g.lend id ⟨s, commons, true⟩⟩
      ⟨h₁, g.lend id ⟨s, commons, true⟩⟩ :=
    hh ▸ .of_change (.userData lends (.inr (.inl ⟨id, _, u, held, lent⟩)))
  have there : h₁.instances.get? id = some c := hh ▸ hc
  have back := leads_giveStore there free leave fun environment' u' e lent' there' => by
    cases lent.symm.trans lent'
    rw [← hh, Host.modifyEnvironment, Pool.get?_modify, if_pos rfl] at there'
    obtain ⟨_, -, rfl⟩ := Option.map_eq_some_iff.1 there'
    rfl
  rw [← Host.modifyInstance_congr there (f := fun i => { i with store := some s' }) _ rfl] at back
  refine data.trans (.trans ?_ (back.trans (leads_releaseInstance id)))
  exact leads_inHand fun _ => .run rfl guest heap rfl

omit [Holder σ] [Rule σ] in
/-- Whatever a call does, it keeps the user data of its environment on loan. -/
theorem working_borrower (printer : Printer σ) (c : Caller) : Working printer c fun s t =>
    t.store.active.map ActiveCall.environment = s.store.active.map ActiveCall.environment := by
  refine working_of_view (fun s => s.active.map ActiveCall.environment) printer c
    (fun _ _ _ _ active => by rw [active]) (fun s f => ?_) fun _ _ _ => rfl
  rw [Option.map_map]
  rfl

/-- To latch why a guest was unwound changes nothing but the latch. -/
theorem Store.latchFailure_same (s : Store) (cause : String) :
    (s.latchFailure cause).2.guest = s.guest ∧ (s.latchFailure cause).2.heap = s.heap ∧
      (s.latchFailure cause).2.active = s.active := by
  unfold latchFailure
  split <;> exact ⟨rfl, rfl, rfl⟩

/-- The store in which a guest's run ends is the one of the flight, with a fault latched if the
guest was unwound. -/
theorem leads_invoke [Engine] (traced : Traced allowed printer) {environment : Nat} {e : Environment}
    {i : Instance} {callee : Callee} {args : List Wasm.Value}
    (there : h.environments.get? environment = some e) (own : e.inst = callee.caller.inst)
    (present : h.instance? callee.caller.inst = some i) (idle : i.store = some callee.store)
    (latch : callee.store.latch = none) (commons : callee.caller.commons = i.commons)
    (permit : allowed (.enters callee.caller.inst)) (lends : allowed (.lends environment)) :
    Leads allowed ⟨h, g⟩ ⟨(h.invoke printer environment e.userData callee args).2, g⟩ := by
  refine .of_sound fun ha => ?_
  have free := ha.free present idle
  -- The call begins, runs and ends. What runs keeps the loan of the environment, so that its user
  -- data goes back to where it came from.
  have begun : Leads allowed ⟨h, g⟩ (Flight.config
      ⟨callee.store.lend environment e.userData, h.beginCall callee.caller.inst environment⟩ g
      callee.caller.inst callee.caller.commons true) := by
    rw [commons]
    exact leads_beginCall present idle latch there own permit lends
  have flown := within_enter (working_leads traced callee.caller g true) callee.room
    callee.function args
    ⟨callee.store.lend environment e.userData, h.beginCall callee.caller.inst environment⟩
  have kept := within_enter (working_borrower printer callee.caller) callee.room
    callee.function args
    ⟨callee.store.lend environment e.userData, h.beginCall callee.caller.inst environment⟩
  refine begun.trans ?_
  unfold Ends exec at flown kept
  unfold Host.invoke
  dsimp only
  generalize (FlightM.enter printer callee.caller callee.room callee.function args).run.run _ = r
    at flown kept ⊢
  obtain ⟨result, after⟩ := r
  have lent : after.store.active.map ActiveCall.environment = some environment := by
    cases result <;> exact kept
  obtain ⟨⟨_, u⟩, active, same⟩ := Option.map_eq_some_iff.1 lent
  cases same
  cases result with
  | ok values =>
    dsimp only
    rw [active]
    exact flown.trans (leads_endCall free (.refl _) rfl active rfl lends)
  | error cause =>
    obtain ⟨guest, heap, idle⟩ := after.store.reclaim.latchFailure_same cause
    dsimp only
    rw [active]
    exact flown.trans (leads_endCall free (guest ▸ .refl _) heap active idle lends)

omit [Holder σ] [Rule σ] in
/-- What it means that there is a function to enter. -/
theorem Host.callee_eq_ok {id : Nat} {name : String} {callee : Callee}
    (entered : h.callee id name = .ok callee) :
    ∃ i, h.instance? id = some i ∧ i.store = some callee.store ∧ callee.store.latch = none ∧
      callee.caller = ⟨id, i.commons, false⟩ := by
  -- Of all the ways through the checks, one ends with a function.
  unfold Host.callee at entered
  split at entered
  case h_1 => cases entered
  case h_2 i hi =>
    split at entered
    case h_1 => cases entered
    case h_2 store idle =>
      split at entered
      case h_1 => cases entered
      case h_2 =>
        split at entered
        case h_1 => cases entered
        case h_2 latch =>
          split at entered
          case h_1 => cases entered
          case h_2 => cases entered; exact ⟨i, hi, idle, latch, rfl⟩

@[simp] theorem Invoker.environment_ready (v : Invoker) : v.ready.environment = v.environment := by
  unfold Invoker.ready
  split <;> rfl

omit [Holder σ] [Rule σ] in
@[simp] theorem Invoker.environment_advance (v : Invoker) (next : Phase) :
    (v.advance next).environment = v.environment := rfl

omit [Holder σ] [Rule σ] in
/-- An invoker calls through the environment that it was made for. -/
theorem Invoker.environment_call [Engine] (printer : Printer σ) (v : Invoker) (name : String)
    (args : List HostValue) (results : List HostType) (h : Host σ) :
    (v.call printer name args results h).2.1.environment = v.environment := by
  unfold Invoker.call
  dsimp only
  split
  · exact v.environment_ready
  · split
    · exact v.environment_ready
    · split
      · exact v.environment_ready
      · split <;> exact v.environment_ready

/-- **Calls.** A call through an environment leaves in hand what was, however it ends. -/
theorem leads_call [Engine] (traced : Traced allowed printer) (v : Invoker)
    (enters : ∀ e, h.environments.get? v.environment = some e → allowed (.enters e.inst))
    (lends : allowed (.lends v.environment)) (name : String) (args : List HostValue)
    (results : List HostType) :
    Leads allowed ⟨h, g⟩ ⟨(v.call printer name args results h).2.2, g⟩ := by
  -- Only a call that passes all checks does anything.
  unfold Invoker.call
  dsimp only
  split
  case h_1 => exact .refl
  case h_2 e there =>
    split
    case h_1 => exact .refl
    case h_2 callee entered =>
      split
      case h_1 => exact .refl
      case h_2 params encoded =>
        obtain ⟨i, present, idle, latch, caller⟩ := Host.callee_eq_ok entered
        have lead : Leads allowed ⟨h, g⟩
            ⟨(h.invoke printer v.ready.environment e.userData callee params).2, g⟩ := by
          have reach := enters e (v.environment_ready ▸ there)
          rw [← v.environment_ready] at lends
          refine leads_invoke traced there ?_ ?_ idle latch ?_ ?_ lends <;> rw [caller]
          · exact present
          · exact reach
        split
        case h_1 ended => exact (congrArg Prod.snd ended) ▸ lead
        case h_2 ended => exact (congrArg Prod.snd ended) ▸ lead

omit [Holder σ] [Rule σ] in
/-- The host calls by way of an invoker of its own. -/
theorem exec_call [Engine] (printer : Printer σ) (environment : Nat) (name : String)
    (args : List HostValue) (results : List HostType) (h : Host σ) :
    exec (HostM.call printer environment name args results) h =
      (((Invoker.ofEnvironment environment).call printer name args results h).1,
        ((Invoker.ofEnvironment environment).call printer name args results h).2.2) := by
  unfold HostM.call
  rw [exec_bind]
  show exec (do
    set ((Invoker.ofEnvironment environment).call printer name args results h).2.2
    HostM.ofExcept ((Invoker.ofEnvironment environment).call printer name args results h).1) h = _
  rw [exec_bind]
  generalize (Invoker.ofEnvironment environment).call printer name args results h = r
  obtain ⟨_ | _, _, t⟩ := r <;> rfl

/-- A call leaves in hand what was. -/
theorem keeps_call [Engine] (traced : Traced allowed printer) {environment : Nat}
    (enters : ∀ e, h.environments.get? environment = some e → allowed (.enters e.inst))
    (lends : allowed (.lends environment)) (name : String) (args : List HostValue)
    (results : List HostType) :
    Keeps allowed (HostM.call printer environment name args results) ⟨h, g⟩ := by
  have lead := leads_call (g := g) (h := h) traced (.ofEnvironment environment) enters lends name
    args results
  unfold Keeps Takes Ends
  rw [exec_call]
  generalize (Invoker.ofEnvironment environment).call printer name args results h = r at lead ⊢
  obtain ⟨_ | _, _, t⟩ := r <;> exact lead

/-! ### Instances -/

omit [Holder σ] [Rule σ] in
/-- A part of a call runs with the store in hand, and ends with the store that it has left. -/
theorem ends_inFlight {s : Store} {act : FlightM σ α} {Q : Except String α × Store → Host σ → Prop}
    {E : Error → Host σ → Prop} :
    Ends (HostM.inFlight s act) h Q E ↔
      Q ((exec act ⟨s, h⟩).1, (exec act ⟨s, h⟩).2.store) (exec act ⟨s, h⟩).2.host := Iff.rfl

/-- An instance in the making has its store in hand, whatever has become of it. -/
def Unfinished (allowed : Effect → Prop) (a : Config σ) (g : Pending) (id : Nat) (h : Host σ) :
    Prop :=
  ∃ loan : Loan, loan.ready = false ∧ Leads allowed a ⟨h, g.lend id loan⟩

/-- The pages of an app heap are charged, and added to the exported memory, or there is none. -/
theorem ends_appendHeap (traced : Traced allowed printer) (c : Caller) (bytes : Nat) {s : Store}
    (empty : s.heap = none) (g : Pending) :
    Ends (HostM.appendHeap c (s.guest.exportedMemory? memoryExport) bytes s) h
      (fun s' h' => s'.active = s.active ∧
        s'.guest.exportedMemory? memoryExport = s.guest.exportedMemory? memoryExport ∧
        s'.guest.module = s.guest.module ∧ (s.guest.Stocked → s'.guest.Stocked) ∧
        Leads allowed (Flight.config ⟨s, h⟩ g c.inst c.commons false)
          (Flight.config ⟨s', h'⟩ g c.inst c.commons false))
      fun _ h' => Unfinished allowed (Flight.config ⟨s, h⟩ g c.inst c.commons false) g c.inst h' := by
  have still : Unfinished allowed (Flight.config ⟨s, h⟩ g c.inst c.commons false) g c.inst h :=
    ⟨_, rfl, .refl⟩
  simp only [HostM.appendHeap, ends_bind_iff, ends_ofOption, ends_get, ends_set]
  refine ⟨fun memory exported => ⟨?_, fun _ => still⟩, fun _ => still⟩
  -- Memory grows as it does when a guest asks for it, so this much is a step of a working call.
  rintro ⟨before, t⟩ grown
  have grew := (working_leads traced c g false).grow _ _ _ _ _ grown
  split
  · exact ⟨_, rfl, grew⟩
  · obtain ⟨m, i, k, budget, hm, -, -, -, -, rfl, store, -⟩ := Flight.growMemory?_eq_some grown
    generalize hp : (bytes + (Wasm.pageSize - 1)) / Wasm.pageSize = pages at *
    have pages_eq : (m.grow (m.size + pages * Wasm.pageSize)).pages = m.pages + pages :=
      Nat.add_mul_div_right m.size pages (show 0 < Wasm.pageSize by decide)
    have exported' : t.store.guest.exportedMemory? memoryExport = some memory := by
      rw [store]
      exact exported
    have there : t.store.guest.memories[memory]? =
        some (m.grow (m.size + pages * Wasm.pageSize)) := by
      rw [store, Wasm.Guest.getElem?_setMemory, if_pos rfl, hm]
      rfl
    have empty' : t.store.heap = none := by
      rw [store]
      exact empty
    have active : t.store.active = s.active := by rw [store]
    have module : t.store.guest.module = s.guest.module := by rw [store]; rfl
    have stocked : s.guest.Stocked → t.store.guest.Stocked :=
      Flight.stocked_of_growMemory? grown
    exact ⟨active, exported'.trans exported.symm, module, stocked,
      grew.trans (leads_inHand fun _ => .manage rfl empty' exported' there pages_eq)⟩

/-- What is linked is a callback that is registered. -/
theorem linkImport?_eq_some {natives : List Callback} {m : Wasm.Module} {i : Wasm.Import}
    {f : Wasm.Func Callback} (linked : linkImport? natives m i = some f) :
    ∃ n ∈ natives, f = .native n n.type := by
  simp only [linkImport?, Option.bind_eq_bind, Option.bind_eq_some_iff] at linked
  obtain ⟨n, found, linked⟩ := linked
  refine ⟨n, List.mem_of_find?_eq_some found, ?_⟩
  split at linked
  · split at linked
    · exact (Option.some.inj linked).symm
    · cases linked
  · cases linked

/-- What succeeds in two parts succeeds in each. -/
theorem exists_of_bind_eq_ok {ε : Type} {x : Except ε α} {f : α → Except ε β} {b : β}
    (bound : x >>= f = .ok b) : ∃ a, x = .ok a ∧ f a = .ok b := by
  cases x with
  | error e => cases bound
  | ok a => exact ⟨a, rfl, bound⟩

/-- What succeeds for a list succeeds for each of its elements. -/
theorem mem_of_mapM_eq_ok {ε : Type} {l : List α} {l' : List β} {f : α → Except ε β}
    (mapped : l.mapM f = .ok l') : ∀ b ∈ l', ∃ a ∈ l, f a = .ok b := by
  induction l generalizing l' with
  | nil =>
    cases mapped
    simp
  | cons a l ih =>
    rw [List.mapM_cons] at mapped
    obtain ⟨b, ha, mapped⟩ := exists_of_bind_eq_ok mapped
    obtain ⟨bs, hl, mapped⟩ := exists_of_bind_eq_ok mapped
    cases mapped
    intro b' hb'
    rcases List.mem_cons.1 hb' with rfl | hb'
    · exact ⟨a, List.mem_cons_self, ha⟩
    · obtain ⟨a', ha', eq⟩ := ih hl b' hb'
      exact ⟨a', List.mem_cons_of_mem _ ha', eq⟩

/-- The functions that imports are linked to are the runtime's callbacks. -/
theorem mem_link {natives : List Callback} {m : Wasm.Module} {imported : List (Wasm.Func Callback)}
    (linked : link natives m = .ok imported) :
    ∀ f ∈ imported, ∃ n ∈ natives, f = .native n n.type := by
  intro f hf
  obtain ⟨_, -, mapped⟩ := exists_of_bind_eq_ok linked
  obtain ⟨i, -, eq⟩ := mem_of_mapM_eq_ok mapped f hf
  split at eq
  case h_1 g found =>
    cases eq
    exact linkImport?_eq_some found
  case h_2 => cases eq

/-- Whatever is mapped, if all of a list can be. -/
theorem exists_of_mapM_eq_ok {ε : Type} {l : List α} {l' : List β} {f : α → Except ε β}
    (mapped : l.mapM f = .ok l') : ∀ a ∈ l, ∃ b, f a = .ok b := by
  induction l generalizing l' with
  | nil => exact fun a ha => absurd ha List.not_mem_nil
  | cons a l ih =>
    rw [List.mapM_cons] at mapped
    obtain ⟨b, ha, mapped⟩ := exists_of_bind_eq_ok mapped
    obtain ⟨bs, hl, -⟩ := exists_of_bind_eq_ok mapped
    rw [List.forall_mem_cons]
    exact ⟨⟨b, ha⟩, ih hl⟩

/-- Only functions can be linked, so a module that could be linked imports nothing else. -/
theorem standalone_of_link {natives : List Callback} {m : Wasm.Module}
    {imported : List (Wasm.Func Callback)} (linked : link natives m = .ok imported) :
    m.Standalone := by
  obtain ⟨_, -, mapped⟩ := exists_of_bind_eq_ok linked
  intro i mem
  obtain ⟨f, eq⟩ := exists_of_mapM_eq_ok mapped i mem
  split at eq
  case h_1 g found =>
    simp only [linkImport?, Option.bind_eq_bind, Option.bind_eq_some_iff] at found
    obtain ⟨n, -, found⟩ := found
    split at found
    case h_1 type kind => exact ⟨type, kind⟩
    case h_2 => cases found
  case h_2 => cases eq

/-- The store that an instance begins with, if its imports can be linked or not. -/
def firstStore (r : Runtime) (m : LoadedModule) : Store :=
  .ofGuest (.bare m.wasm ((link r.natives m.wasm).toOption.getD []))

/-- An instance that is complete gets its store. -/
theorem leads_complete {id commons : Nat} {s : Store} (free : g.held id = none)
    (active : s.active = none) (stocked : s.guest.module.isValid = true → s.guest.Stocked) :
    Leads allowed (Flight.config ⟨s, h⟩ g id commons false)
      ⟨h.modifyInstance id fun i =>
        { i with memory := s.guest.exportedMemory? memoryExport, store := some s },
        g.pin .inst id⟩ := by
  refine .of_sound fun ha => ?_
  have held : (g.lend id ⟨s, commons, false⟩).held id = some ⟨s, commons, false⟩ := by simp
  obtain ⟨c, hc : h.instances.get? id = some c⟩ :=
    Option.isSome_iff_exists.1 (ha.present _ _ held)
  rw [Host.modifyInstance_congr hc (fun _ => { c.value with
    memory := s.guest.exportedMemory? memoryExport
    store := some s }) rfl]
  refine leads_giveStore hc free (.complete rfl active stocked) fun _ _ _ lent => ?_
  cases active.symm.trans lent

variable [Engine]

/-- A guest is brought up under its own number, or its charges are still to be given back. -/
theorem ends_bringUp (traced : Traced allowed printer) (id : Nat) (r : Runtime) (m : LoadedModule)
    (heap : Nat) (free : g.held id = none) :
    Ends (HostM.bringUp printer id r m heap) h
      (fun _ h' => Leads allowed (Flight.config ⟨firstStore r m, h⟩ g id m.commons false)
        ⟨h', g.pin .inst id⟩)
      fun _ h' =>
        Unfinished allowed (Flight.config ⟨firstStore r m, h⟩ g id m.commons false) g id h' := by
  unfold HostM.bringUp
  simp only [ends_bind_iff, ends_ofExcept, ends_inFlight]
  refine ⟨fun imported linked => ?_, fun _ _ => ⟨_, rfl, .refl⟩⟩
  have linked : link r.natives m.wasm = .ok imported := by
    cases hl : link r.natives m.wasm with
    | error e => rw [hl] at linked; cases linked
    | ok fs => rw [hl] at linked; cases linked; rfl
  have first : firstStore r m = .ofGuest (.bare m.wasm imported) := by
    rw [firstStore, linked]
    rfl
  rw [← first]
  -- What becomes of the first store in the start function is seen from several sides, of which
  -- each is kept by every working call.
  have flown := within_populate (working_leads traced ⟨id, m.commons, true⟩ g false)
    r.config.maxWasmStack.toNat m.wasm ⟨firstStore r m, h⟩
  have empty := within_populate (working_heap (σ := σ) printer ⟨id, m.commons, true⟩)
    r.config.maxWasmStack.toNat m.wasm ⟨firstStore r m, h⟩
  have idle := within_populate (working_idle (σ := σ) printer ⟨id, m.commons, true⟩)
    r.config.maxWasmStack.toNat m.wasm ⟨firstStore r m, h⟩
  have module := within_populate (working_module (σ := σ) printer ⟨id, m.commons, true⟩)
    r.config.maxWasmStack.toNat m.wasm ⟨firstStore r m, h⟩
  have stocked := fun valid => ends_populate_stocked printer ⟨id, m.commons, true⟩
    (standalone_of_link linked) valid r.config.maxWasmStack.toNat
    (s := ⟨.ofGuest (.bare m.wasm imported), h⟩) (Wasm.Guest.unstocked_bare _ _)
  rw [← first] at stocked
  unfold Ends at flown empty idle module stocked
  generalize exec (FlightM.populate printer ⟨id, m.commons, true⟩ r.config.maxWasmStack.toNat m.wasm)
    ⟨firstStore r m, h⟩ = ended at flown empty idle module stocked ⊢
  obtain ⟨result, after⟩ := ended
  cases result with
  | error cause => exact ⟨by rintro _ ⟨⟩, fun _ _ => ⟨_, rfl, flown⟩⟩
  | ok _ =>
    refine ⟨fun _ _ => ?_, by rintro _ ⟨⟩⟩
    have stocked : after.store.guest.module.isValid = true → after.store.guest.Stocked := by
      rw [module]
      exact stocked
    split
    · exact flown.trans (leads_complete free (idle rfl) stocked)
    · refine ends_bind ((ends_appendHeap traced ⟨id, m.commons, true⟩ heap empty g).mono
        (fun _ _ h => h) ?_) ?_
      · rintro _ h' ⟨loan, ready, lead⟩
        exact ⟨loan, ready, flown.trans lead⟩
      · rintro s' h' ⟨active, exported, same, kept, lead⟩
        rw [ends_modify, ← exported]
        refine flown.trans (lead.trans (leads_complete free (active.trans (idle rfl)) fun valid => ?_))
        exact kept (stocked (same ▸ valid))

/-- **Instances.** An instance comes with its store, or everything that was charged and held for it
is given up. -/
theorem ends_instantiate (traced : Traced allowed printer) (module stack heap : Nat)
    (ha : Config.Sound ⟨h, g⟩) :
    Ends (HostM.instantiate printer module stack heap) h
      (fun id h' => id = h.instances.next ∧ Leads allowed ⟨h, g⟩ ⟨h', g.pin .inst id⟩)
      fun _ h' => Leads allowed ⟨h, g⟩ ⟨h', g⟩ := by
  simp only [HostM.instantiate, ends_bind_iff, ends_module, ends_runtime]
  refine ⟨fun m hm => ⟨fun r hr => ?_, fun _ => .refl⟩, fun _ => .refl⟩
  refine ends_lease (fun c budget hc fits => ?_) fun _ => .refl
  have free : g.held h.instances.next = none := ha.held_next
  generalize hh : (h.modifyBudget m.commons fun _ => budget) = h₁
  have next : h₁.instances.next = h.instances.next := by rw [← hh]; rfl
  have there : h₁.module? module = some m := hh ▸ hm
  have runtime : h₁.runtime? m.runtime = some r := hh ▸ hr
  have charged : Leads allowed ⟨h, g⟩ ⟨h₁, g.owe (.of m.commons stack)⟩ :=
    hh ▸ .of_change (.lease hc fits)
  have kept : (h₁.retainModule module).module? module = some m := by simpa using there
  simp only [ends_modify, ends_get, ends_set, ends_pure]
  let i : Instance := ⟨module, m.commons, stack, .empty, none, none⟩
  have linked : ∀ f ∈ (link r.natives m.wasm).toOption.getD [],
      ∃ n ∈ r.natives, f = .native n n.type := by
    cases hl : link r.natives m.wasm with
    | error e => exact fun f hf => absurd hf List.not_mem_nil
    | ok imported => exact mem_link hl
  -- Once it is charged for, the instance is there with its first store in hand.
  have made : Leads allowed ⟨h, g⟩ (Flight.config ⟨firstStore r m,
      { h₁.retainModule module with
        instances := ((h₁.retainModule module).instances.insert ⟨i, 1⟩).1 }⟩ g
      h.instances.next m.commons false) := by
    refine charged.trans ((leads_retainModule there).trans (.of_change ?_))
    rw [← next]
    exact @Change.instanceMade _ _ _ _ _ g i m r ((link r.natives m.wasm).toOption.getD []) kept
      runtime rfl linked rfl rfl rfl
  have number : ((h₁.retainModule module).instances.insert ⟨i, 1⟩).2 = h.instances.next := next
  rw [number]
  -- If it cannot be brought up, it is given up with its store and its charge.
  refine ends_tryCatch ((ends_bringUp traced h.instances.next r m heap free).mono
    (fun _ _ lead => ⟨rfl, made.trans lead⟩) fun _ _ lead => lead) ?_
  rintro e h' ⟨loan, ready, lead⟩
  simp only [ends_bind_iff, ends_modify, ends_throw]
  exact made.trans (lead.trans (leads_abandonInstance ready free))

end Embedder
