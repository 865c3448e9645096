import Embedder.Proofs.Host.Confinement
import Embedder.Proofs.Host.Lockstep
import Embedder.Proofs.Host.Pending

namespace Embedder

open Session (Kind)

/-!
# Two hosts with an instance in common

Where two hosts have the same instance, made from the same module and runtime, and their clocks say
the same at all times, calls of the instance end in the same way in both, as long as neither budget
refuses what the code asks for.

* `Flight.Affords`, `Invoker.Granted`: budgets that grant what code asks for.
* `Host.origin?`: what an instance was made from.
* `Tandem`: two calls in flight in two hosts, with `lockstep_tandem`.
* `Host.Shares`, `Invoker.call_alike`: hosts with an instance in common, and calls of it.
* `Leads.shares`: hosts that come from one host.
-/

variable {σ : Type} {printer : Printer σ}

/-! ### What budgets grant -/

/-- The budget has what code asks for, if the memory may grow so far at all. -/
def Flight.Affords (s : Flight σ) (c : Caller) (memory pages : Nat) : Prop :=
  ∀ m k, s.store.guest.memories[memory]? = some m → m.size + pages * Wasm.pageSize ≤ m.limit →
    s.host.commons? c.commons = some k → (k.budget.reserve? (pages * Wasm.pageSize)).isSome

/-- Whatever the code asks for during a call, the budget has it. -/
def Invoker.Granted [Engine] (printer : Printer σ) (h : Host σ) (v : Invoker) (name : String)
    (args : List HostValue) (results : List HostType) : Prop :=
  ∀ (entry : Entry h v.environment name args results) memory pages u,
    entry.flight.Wants printer entry.callee.caller entry.callee.room entry.callee.function
      entry.params memory pages u → u.Affords entry.callee.caller memory pages

/-- Growth within the limit is granted as soon as the budget has it. -/
theorem Limiter.growMemory?_of_reserve? {l : Limiter} {b b' : Budget} {current added limit : Nat}
    (fits : current + added ≤ limit) (reserved : b.reserve? added = some b') :
    l.growMemory? b current (current + added) limit = some (⟨⟨l.charged.value + added⟩⟩, b') := by
  cases grown : l.growMemory? b current (current + added) limit with
  | none =>
    unfold growMemory? at grown
    rw [if_neg (by simpa using fits), Nat.add_sub_cancel_left, reserved] at grown
    cases grown
  | some r =>
    obtain ⟨-, reserved', limiter⟩ := growMemory?_eq_some grown
    rw [Nat.add_sub_cancel_left] at reserved' limiter
    cases reserved.symm.trans reserved'
    rw [← limiter]

/-- What memory comes to that is granted does not depend on the budget. -/
theorem Flight.growth?_of_affords {s : Flight σ} {c : Caller} {memory pages : Nat}
    (affords : s.Affords c memory pages) :
    (s.growth? c memory pages).map (fun x => (x.before, x.limiter, x.guest)) =
      (s.store.guest.memories[memory]?).bind fun m => (s.host.instance? c.inst).bind fun i =>
        if (s.host.commons? c.commons).isSome ∧ m.size + pages * Wasm.pageSize ≤ m.limit then
          some (m.pages, ⟨⟨i.limiter.charged.value + pages * Wasm.pageSize⟩⟩,
            s.store.guest.setMemory memory (m.grow (m.size + pages * Wasm.pageSize)))
        else none := by
  unfold growth?
  cases hm : s.store.guest.memories[memory]? with
  | none => rfl
  | some m =>
    cases hi : s.host.instance? c.inst with
    | none => rfl
    | some i =>
      cases hk : s.host.commons? c.commons with
      | none => rfl
      | some k =>
        dsimp only [Option.bind_eq_bind, Option.bind_some]
        -- The budget does not refuse it, so only the limit of the memory can.
        by_cases fits : m.size + pages * Wasm.pageSize ≤ m.limit
        · obtain ⟨b, reserved⟩ := Option.isSome_iff_exists.1 (affords m k hm fits hk)
          rw [if_pos ⟨rfl, fits⟩, Limiter.growMemory?_of_reserve? fits reserved]
          rfl
        · rw [if_neg fun both => fits both.2]
          cases grown : i.limiter.growMemory? k.budget m.size (m.size + pages * Wasm.pageSize)
            m.limit with
          | none => rfl
          | some r => exact absurd (Limiter.growMemory?_eq_some grown).1 fits

/-! ### Two calls in flight -/

/-- A clock that always says the same says it now. -/
theorem Host.readClock_of_tells {h : Host σ} {commons : Nat} {f : Nat → Reading} {r : Reading}
    (told : h.tells? commons = some f) (steady : ∀ n, f n = r) : (h.readClock commons).1 = r := by
  obtain ⟨c, there, rfl⟩ := Option.map_eq_some_iff.1 told
  unfold readClock
  rw [there]
  exact steady c.clock.asked

/-- Without commons there is no clock. -/
theorem Host.readClock_of_none {h : Host σ} {commons : Nat} (none : h.tells? commons = none) :
    (h.readClock commons).1 = .error (.unavailable "there is no clock") := by
  unfold readClock
  rw [Option.map_eq_none_iff.1 none]

/-- Commons are there just if their clock is. -/
theorem Host.isSome_commons? (h : Host σ) (commons : Nat) :
    (h.commons? commons).isSome = (h.tells? commons).isSome :=
  Option.isSome_map.symm

/-- Two calls of one instance in flight in two hosts, through an environment of each, where what is
printed goes to the output and the clock always says the same. -/
structure Tandem (printer : Printer σ) (c : Caller) (i j : Nat) (x y : Flight σ) : Prop where
  like : x.store.Like y.store
  inst : y.host.instances.get? c.inst = x.host.instances.get? c.inst
  bound : y.host.environments.get? j = x.host.environments.get? i
  tells : y.host.tells? c.commons = x.host.tells? c.commons
  steady : ∀ f, x.host.tells? c.commons = some f → ∃ r, ∀ n, f n = r
  silent : Silent printer x.host.app
  silent' : Silent printer y.host.app

section

variable {c : Caller} {i j : Nat} {x y : Flight σ}

/-- The instance that is called is the same on both sides. -/
theorem Tandem.instance? (rel : Tandem printer c i j x y) :
    y.host.instance? c.inst = x.host.instance? c.inst :=
  congrArg (Option.map Counted.value) rel.inst

/-- What both calls do at a time keeps them in tandem. -/
theorem lockstep_tandem (printer : Printer σ) (c : Caller) (i j : Nat) :
    Lockstep printer printer c (Tandem printer c i j) fun _ => False := by
  -- Printing and the clock are all of the hosts that the calls see, and these are the same in
  -- both.
  constructor
  case lost => exact working_never printer c
  case like => exact fun rel => rel.like
  case charged => exact fun rel => by rw [rel.instance?]
  case store => exact fun rel like _ _ _ _ => { rel with like }
  case mark =>
    intro x y f _ rel
    refine { rel with like := ⟨rel.like.guest, rel.like.heap, rel.like.latch, ?_⟩ }
    have lent := congrArg (Option.map f) rel.like.lent
    simp only [Option.map_map] at lent ⊢
    show (y.store.active.map _).map _ = (x.store.active.map _).map _
    simp only [Option.map_map]
    exact lent
  case print =>
    intro x y bytes rel
    have emitted := x.host.confined_emit c.commons bytes
    have emitted' := y.host.confined_emit c.commons bytes
    rw [rel.silent c.commons bytes x.host rfl, rel.silent' c.commons bytes y.host rfl]
    exact .inr { rel with
      tells := (emitted'.tells _).trans (rel.tells.trans (emitted.tells _).symm)
      steady := fun f told => rel.steady f ((emitted.tells _).symm.trans told) }
  case clock =>
    intro x y rel
    have read := x.host.confined_readClock c.commons
    have read' := y.host.confined_readClock c.commons
    constructor
    · cases told : x.host.tells? c.commons with
      | none =>
        rw [Host.readClock_of_none told, Host.readClock_of_none (rel.tells.trans told)]
      | some f =>
        obtain ⟨r, steady⟩ := rel.steady f told
        rw [Host.readClock_of_tells told steady,
          Host.readClock_of_tells (rel.tells.trans told) steady]
    · obtain ⟨p, hx⟩ := x.host.readClock_eq c.commons
      obtain ⟨q, hy⟩ := y.host.readClock_eq c.commons
      rw [hx] at read ⊢
      rw [hy] at read' ⊢
      exact { rel with
        tells := (read'.tells _).trans (rel.tells.trans (read.tells _).symm)
        steady := fun f told => rel.steady f ((read.tells _).symm.trans told) }

/-- Memory that both budgets grant comes to the same in both calls. -/
theorem Tandem.growMemory (rel : Tandem printer c i j x y) {memory pages : Nat}
    (affords : x.Affords c memory pages) (affords' : y.Affords c memory pages) :
    AlikeAt (Tandem printer c i j) (fun _ => False) (FlightM.growMemory c memory pages)
      (FlightM.growMemory c memory pages) x y := by
  -- Both can afford the growth, so it depends on the guest and on the instance, which are the
  -- same.
  have same : (x.growth? c memory pages).map (fun x => (x.before, x.limiter, x.guest)) =
      (y.growth? c memory pages).map fun x => (x.before, x.limiter, x.guest) := by
    rw [Flight.growth?_of_affords affords, Flight.growth?_of_affords affords', rel.like.guest,
      rel.instance?, Host.isSome_commons?, Host.isSome_commons?, rel.tells]
  refine alikeAt_growMemory rel ?_ fun a b hx hy => ?_
  · have before := congrArg (Option.map Prod.fst) same
    rw [Option.map_map, Option.map_map] at before
    exact before
  · rw [hx, hy] at same
    simp only [Option.map_some, Option.some.injEq, Prod.mk.injEq] at same
    obtain ⟨-, limiter, guest⟩ := same
    have paid : ∀ (u : Flight σ) (z : Growth), (u.grow c z).host.tells? c.commons =
        u.host.tells? c.commons := fun u z => Host.Confined.tells
      (Host.confined_modifyBudget (u.host.modifyInstance c.inst _) c.commons _) c.commons
    exact
      { like := ⟨guest.symm, rel.like.heap, rel.like.latch, rel.like.lent⟩
        inst := by
          show (y.host.instances.modify c.inst _).get? c.inst =
            (x.host.instances.modify c.inst _).get? c.inst
          rw [Pool.get?_modify, Pool.get?_modify, rel.inst, limiter]
        bound := rel.bound
        tells := (paid y b).trans (rel.tells.trans (paid x a).symm)
        steady := fun f told => rel.steady f ((paid x a).symm.trans told)
        silent := rel.silent
        silent' := rel.silent' }

end

/-! ### Calls in two hosts -/

/-- What an instance was made from. -/
def Host.origin? (h : Host σ) (id : Nat) : Option (LoadedModule × Runtime) := do
  let i ← h.instance? id
  let m ← h.module? i.module
  let r ← h.runtime? m.runtime
  pure (m, r)

/-- Two hosts have an instance in common: what it is, what it was made from, and what the clock of
its runtime says, which is the same at all times. -/
structure Host.Shares (h : Host σ) (id : Nat) (k : Host σ) : Prop where
  inst : k.instances.get? id = h.instances.get? id
  origin : k.origin? id = h.origin? id
  tells : ∀ j, k.tells? j = h.tells? j
  steady : ∀ i f, h.instance? id = some i → h.tells? i.commons = some f → ∃ r, ∀ n, f n = r

/-- The room for frames is that of the runtime that the instance comes from. -/
theorem Host.room_eq {h : Host σ} {id : Nat} {i : Instance} (there : h.instance? id = some i) :
    h.room i = ((h.origin? id).map fun p => p.2.config.maxWasmStack.toNat).getD 0 := by
  unfold room origin?
  rw [there]
  show _ = (Option.map _ ((h.module? i.module).bind fun m => (h.runtime? m.runtime).bind fun r =>
    some (m, r))).getD 0
  cases h.module? i.module with
  | none => rfl
  | some m =>
    dsimp only [Option.bind_some]
    cases h.runtime? m.runtime <;> rfl

section

variable [Holder σ] [Rule σ] {allowed : Effect → Prop} {h h' k' : Host σ} {g g' f' : Pending}
  {id : Nat} {i : Instance}

/-- What an instance was made from stays as long as it is there. -/
theorem Leads.origin? (lead : Leads allowed ⟨h, g⟩ ⟨h', g'⟩) (ha : Config.Sound ⟨h, g⟩)
    (chained : Config.Chained ⟨h, g⟩) (before : h.instance? id = some i)
    (after : (h'.instance? id).isSome) : h'.origin? id = h.origin? id := by
  have since := lead.since ha
  have sound := lead.sound ha
  obtain ⟨c, present, rfl⟩ := Option.map_eq_some_iff.1 before
  obtain ⟨i', there⟩ := Option.isSome_iff_exists.1 after
  obtain ⟨j, there', same, -⟩ := since.instance? (Pool.lt_next_of_get?_eq_some present) there
  cases before.symm.trans there'
  -- The instance holds its module, and the module its runtime.
  have holds : 0 < h'.refs .inst id .module c.value.module := by
    simp [Host.refs, there, Instance.refs, same, Holds.on]
  have module : h'.has .module c.value.module := sound.has_of_refs holds
  obtain ⟨d, hd⟩ := Option.isSome_iff_exists.1 module
  have hm : h'.module? c.value.module = some d.value := by rw [Host.module?, hd, Option.map_some]
  have hm' := since.module? (chained.instances id c.value before).1 hm
  have holds' : 0 < h'.refs .module c.value.module .runtime d.value.runtime := by
    simp [Host.refs, hm, LoadedModule.refs, Holds.on]
  have runtime : h'.has .runtime d.value.runtime := sound.has_of_refs holds'
  obtain ⟨r, hr⟩ := Option.isSome_iff_exists.1 runtime
  have hr' : h'.runtime? d.value.runtime = some r.value := by
    rw [Host.runtime?, hr, Option.map_some]
  have hr'' := since.runtime? (chained.modules _ d.value hm').1 hr'
  unfold Host.origin?
  simp only [before, there, ← same, hm, hm', hr', hr'', Option.bind_eq_bind, Option.bind_some]

/-- Hosts that come from one host share an instance that has become the same in both. -/
theorem Leads.shares (lead : Leads allowed ⟨h, g⟩ ⟨h', g'⟩) (lead' : Leads allowed ⟨h, g⟩ ⟨k', f'⟩)
    (ha : Config.Sound ⟨h, g⟩) (chained : Config.Chained ⟨h, g⟩) (before : h.instance? id = some i)
    (tells : ∀ j, h'.tells? j = h.tells? j) (tells' : ∀ j, k'.tells? j = h.tells? j)
    (steady : ∀ f, h.tells? i.commons = some f → ∃ r, ∀ n, f n = r)
    (same : k'.instances.get? id = h'.instances.get? id) : h'.Shares id k' where
  inst := same
  origin := by
    have there : k'.instance? id = h'.instance? id := congrArg (Option.map Counted.value) same
    cases after : h'.instance? id with
    | none =>
      -- An instance that is gone has no origin, in whichever host.
      have none : ∀ u : Host σ, u.instance? id = none → u.origin? id = none := by
        intro u gone
        unfold Host.origin?
        rw [gone]
        rfl
      rw [none h' after, none k' (there.trans after)]
    | some i' =>
      rw [lead.origin? ha chained before (by rw [after]; rfl),
        lead'.origin? ha chained before (by rw [there, after]; rfl)]
  tells j := (tells' j).trans (tells j).symm
  steady := by
    intro i' f after told
    obtain ⟨c, present, rfl⟩ := Option.map_eq_some_iff.1 before
    obtain ⟨j, there, -, commons, -⟩ := (lead.since ha).instance?
      (Pool.lt_next_of_get?_eq_some present) after
    cases before.symm.trans there
    rw [tells, ← commons] at told
    exact steady f told

end

/-- Stores that are alike are so after the user data was taken back. -/
theorem Store.Like.reclaim {s t : Store} (like : s.Like t) : t.reclaim = s.reclaim := by
  obtain ⟨guest, heap, latch, -⟩ := like
  unfold Store.reclaim
  rw [guest, heap, latch]

section

variable {h k : Host σ} {id : Nat}

namespace Host.Shares

/-- The instance is the same in both hosts. -/
theorem instance? (shares : h.Shares id k) : k.instance? id = h.instance? id :=
  congrArg (Option.map Counted.value) shares.inst

/-- A call of the instance would enter the same function. -/
theorem callee (shares : h.Shares id k) (name : String) : k.callee id name = h.callee id name := by
  unfold Host.callee
  rw [shares.instance?]
  cases there : h.instance? id with
  | none => rfl
  | some i =>
    have room : k.room i = h.room i := by
      rw [room_eq there, room_eq (shares.instance?.trans there), shares.origin]
    dsimp only
    rw [room]

end Host.Shares

variable {v w : Invoker} {name : String} {args : List HostValue} {results : List HostType}

/-- Calls of two hosts whose guests have run to the same end, and left stores with the same contents,
end in the same way. -/
theorem Entry.call_like [Engine] (entry : Entry h v.environment name args results)
    (entry' : Entry k w.environment name args results)
    (ended : (entry'.run printer).1 = (entry.run printer).1)
    (like : (entry.run printer).2.store.Like (entry'.run printer).2.store) :
    (w.call printer name args results k).1 = (v.call printer name args results h).1 ∧
      (w.call printer name args results k).2.1.phase =
        (v.call printer name args results h).2.1.phase ∧
      ∃ s, (v.call printer name args results h).2.2 = entry.landed (entry.run printer).2 s ∧
        (w.call printer name args results k).2.2 = entry'.landed (entry'.run printer).2 s := by
  have run : entry.run printer = (FlightM.enter printer entry.callee.caller entry.callee.room
      entry.callee.function entry.params).run.run ⟨entry.callee.store.lend v.environment
        entry.env.userData, h.beginCall entry.callee.caller.inst v.environment⟩ := rfl
  have run' : entry'.run printer = (FlightM.enter printer entry'.callee.caller entry'.callee.room
      entry'.callee.function entry'.params).run.run ⟨entry'.callee.store.lend w.environment
        entry'.env.userData, k.beginCall entry'.callee.caller.inst w.environment⟩ := rfl
  unfold Invoker.call
  simp only [Invoker.environment_ready, Invoker.environment_advance, entry.bound, entry.found,
    entry.encoded, entry'.bound, entry'.found, entry'.encoded, Host.invoke, ← run, ← run']
  -- What comes after the runs depends only on how they ended and on the stores, which are alike.
  generalize entry.run printer = r at ended like ⊢
  generalize entry'.run printer = r' at ended like ⊢
  obtain ⟨end₁, after⟩ := r
  obtain ⟨end₂, after'⟩ := r'
  dsimp only at ended like
  subst ended
  have store := like.reclaim
  cases end₂ with
  | ok values => exact ⟨rfl, rfl, _, rfl, by rw [← store]; rfl⟩
  | error cause =>
    dsimp only
    rw [store]
    exact ⟨rfl, rfl, _, rfl, rfl⟩

/-- What the end of a call makes of its instance and its environment. -/
theorem Host.get?_endCall (h : Host σ) (id environment : Nat) (u : Option UserData) (s : Store) :
    (h.endCall id environment u s).instances.get? id = ((h.instances.get? id).map fun c =>
        { c with value := { c.value with store := some s } }).bind Counted.release? ∧
      (h.endCall id environment u s).environments.get? environment =
        (h.environments.get? environment).map fun e => { e with userData := u.getD e.userData } := by
  unfold endCall
  dsimp only
  refine ⟨?_, ?_⟩
  · rw [get?_releaseInstance]
    show ((h.instances.modify id _).get? id).bind _ = _
    rw [Pool.get?_modify, if_pos rfl]
  · rw [(undisturbed_releaseInstance _ _).environments]
    show (h.environments.modify environment _).get? environment = _
    rw [Pool.get?_modify, if_pos rfl]

/-- Calls of an instance begin in tandem in two hosts that have it in common. -/
theorem Host.Shares.tandem (shares : h.Shares id k) (silent : Silent printer h.app)
    (silent' : Silent printer k.app) (entry : Entry h v.environment name args results)
    (entry' : Entry k w.environment name args results) (own : entry.env.inst = id)
    (env : entry'.env = entry.env) (callee : entry'.callee = entry.callee) :
    Tandem printer entry.callee.caller v.environment w.environment entry.flight entry'.flight := by
  obtain ⟨i, there, -, -, caller⟩ := Host.callee_eq_ok entry.found
  rw [own] at there caller
  unfold Entry.flight
  rw [env, callee, caller]
  -- The beginning of a call changes nothing but its instance and its environment, in both hosts
  -- alike.
  have begun := h.confined_beginCall id v.environment
  have begun' := k.confined_beginCall id w.environment
  exact
    { like := ⟨rfl, rfl, rfl, rfl⟩
      inst := by
        show (((k.instances.modify id _).modify id _).get? id) =
          (((h.instances.modify id _).modify id _).get? id)
        simp only [Pool.get?_modify, if_true, shares.inst]
      bound := by
        show (k.environments.modify w.environment _).get? w.environment =
          (h.environments.modify v.environment _).get? v.environment
        rw [Pool.get?_modify, Pool.get?_modify, if_pos rfl, if_pos rfl, entry.bound, entry'.bound,
          env]
      tells := (begun'.tells _).trans ((shares.tells _).trans (begun.tells _).symm)
      steady := fun f told => shares.steady i f there ((begun.tells _).symm.trans told)
      silent := begun.app.symm ▸ silent
      silent' := begun'.app.symm ▸ silent' }

variable [Engine]

/-- **Calls.** Calls of an instance end in the same way in two hosts that have it in common, if both
budgets grant what the code asks for. -/
theorem Invoker.call_alike (shares : h.Shares id k) (silent : Silent printer h.app)
    (silent' : Silent printer k.app) (phase : w.phase = v.phase) {e : Environment}
    (own : e.inst = id) (bound : h.environments.get? v.environment = some e)
    (bound' : k.environments.get? w.environment = some e)
    (granted : v.Granted printer h name args results)
    (granted' : w.Granted printer k name args results) :
    (w.call printer name args results k).1 = (v.call printer name args results h).1 ∧
      (w.call printer name args results k).2.1.phase =
        (v.call printer name args results h).2.1.phase ∧
      (w.call printer name args results k).2.2.instances.get? id =
        (v.call printer name args results h).2.2.instances.get? id ∧
      (w.call printer name args results k).2.2.environments.get? w.environment =
        (v.call printer name args results h).2.2.environments.get? v.environment := by
  have ready : w.ready.phase = v.ready.phase := by
    unfold ready
    rw [phase]
    split <;> [rfl; exact phase]
  have same : k.callee e.inst name = h.callee e.inst name := own ▸ shares.callee name
  -- Both hosts look up the same function, so both calls are refused for one reason, or both enter
  -- it.
  cases found : h.callee e.inst name with
  | error error =>
    rw [Invoker.call_refused bound found, Invoker.call_refused bound' (same.trans found)]
    exact ⟨rfl, ready, shares.inst, bound'.trans bound.symm⟩
  | ok callee =>
    cases encoded : encodeCall callee.type args results with
    | error error =>
      unfold call
      simp only [environment_ready, bound, bound', found, same, encoded]
      exact ⟨trivial, rfl, shares.inst, trivial⟩
    | ok params =>
      let entry : Entry h v.environment name args results :=
        ⟨e, callee, params, bound, found, encoded⟩
      let entry' : Entry k w.environment name args results :=
        ⟨e, callee, params, bound', same.trans found, encoded⟩
      have inst : callee.caller.inst = id := entry.caller_inst.trans own
      -- The guests run in tandem, and the stores that they leave have the same contents.
      obtain ⟨ended, rel⟩ := (alikeAt_enter (lockstep_tandem printer callee.caller v.environment
        w.environment) (shares.tandem silent silent' entry entry' own rfl rfl)
          fun memory pages x y rel wants wants' => rel.growMemory (granted entry memory pages x wants)
            (granted' entry' memory pages y wants')).of_never
      change (entry.run printer).1 = (entry'.run printer).1 at ended
      change Tandem printer callee.caller v.environment w.environment (entry.run printer).2
        (entry'.run printer).2 at rel
      obtain ⟨result, phase, s, landed, landed'⟩ := entry.call_like entry' ended.symm rel.like
      refine ⟨result, phase, ?_⟩
      have at_inst := rel.inst
      rw [inst] at at_inst
      rw [landed, landed', Entry.landed, Entry.landed, rel.like.lent,
        show entry'.callee.caller.inst = id from inst]
      obtain ⟨left, back⟩ := Host.get?_endCall (entry.run printer).2.host id v.environment
        ((entry.run printer).2.store.active.map ActiveCall.userData) s
      obtain ⟨left', back'⟩ := Host.get?_endCall (entry'.run printer).2.host id w.environment
        ((entry.run printer).2.store.active.map ActiveCall.userData) s
      rw [left, left', back, back', at_inst, rel.bound]
      exact ⟨rfl, rfl⟩

end

end Embedder
