import Embedder.Proofs.Host.Change

namespace Embedder

open Session (Kind)

/-!
# Holders are counted

On a host that has got where it is by changes, every object has as many holders as are counted, and
a store is away exactly while a call has it.

* `Config.Sound`: the invariant, with `Change.sound`.
* `Fate`, `Change.fate`: what one change does to one instance.
* `Change.custody_induct`: conditions on single instances.
-/

variable {σ : Type}

/-! ### One pool replaced -/

namespace Host

variable (h : Host σ) (k : Kind) (id : Nat)

/-- With other modules, objects hold each other as these do. -/
theorem inner_modules (p : Pool (Counted LoadedModule)) :
    ({ h with modules := p } : Host σ).inner k id + (h.modules.total fun c => c.value.refs k id) =
      h.inner k id + p.total fun c => c.value.refs k id := by
  simp only [inner]
  omega

/-- With other instances, objects hold each other as these do. -/
theorem inner_instances (p : Pool (Counted Instance)) :
    ({ h with instances := p } : Host σ).inner k id +
      (h.instances.total fun c => c.value.refs k id) =
      h.inner k id + p.total fun c => c.value.refs k id := by
  simp only [inner]
  omega

/-- With other environments, objects hold each other as these do. -/
theorem inner_environments (p : Pool Environment) :
    ({ h with environments := p } : Host σ).inner k id +
      (h.environments.total fun e => e.refs k id) =
      h.inner k id + p.total fun e => e.refs k id := by
  simp only [inner]
  omega

/-- With other blocks, objects hold each other as these do. -/
theorem inner_blocks (p : Pool Block) :
    ({ h with blocks := p } : Host σ).inner k id + (h.blocks.total fun b => b.refs k id) =
      h.inner k id + p.total fun b => b.refs k id := by
  simp only [inner]
  omega

/-- With other runners, objects hold each other as these do. -/
theorem inner_runners (p : Pool Runner) :
    ({ h with runners := p } : Host σ).inner k id + (h.runners.total fun r => r.refs k id) =
      h.inner k id + p.total fun r => r.refs k id := by
  simp only [inner]
  omega

end Host

/-! ### Stores in hand -/

namespace Pending

/-- A store that is lent is held for the time of its loan. -/
theorem loaned_lend {g : Pending} {id : Nat} (free : g.held id = .none) (loan : Loan) (k : Kind)
    (i : Nat) : (g.lend id loan).loaned k i = g.loaned k i + Holds.on .inst id 1 k i := by
  cases k <;> simp only [loaned, lend, Holds.on, reduceCtorEq, false_and, if_false, Nat.add_zero]
  by_cases h : i = id
  · subst h
    simp [free]
  · simp [h]

/-- A store that is given back is held no more. -/
theorem loaned_without {g : Pending} {id : Nat} {loan : Loan} (held : g.held id = some loan)
    (k : Kind) (i : Nat) :
    ({ g with held := Function.update g.held id .none } : Pending).loaned k i +
      Holds.on .inst id 1 k i = g.loaned k i := by
  cases k <;> simp only [loaned, Holds.on, reduceCtorEq, false_and, if_false, Nat.add_zero]
  by_cases h : i = id
  · subst h
    simp [held]
  · simp [h]

end Pending

/-! ### What becomes of an instance -/

/-- An instance with what is in hand of it. -/
def Config.custody? (c : Config σ) (id : Nat) : Option Custody :=
  (c.host.instances.get? id).map fun i => ⟨i.value, c.pending.held id, c.pending.taken id⟩

/-- An instance that is there is in custody, with what is in hand of it. -/
theorem Config.custody?_of_get? {c : Config σ} {id : Nat} {i : Counted Instance}
    (present : c.host.instances.get? id = some i) :
    c.custody? id = some ⟨i.value, c.pending.held id, c.pending.taken id⟩ := by
  rw [custody?, present]
  rfl

/-- What one change may do to an instance and to what is in hand of it. -/
inductive Fate (allowed : Effect → Prop) (h : Host σ) (id : Nat) :
    Option Custody → Option Custody → Prop
  /-- Nothing happens to it. -/
  | same {x : Option Custody} : Fate allowed h id x x
  /-- A block in hand gets its owner, or loses it. -/
  | blocks {x : Custody} {taken : List Span} : Fate allowed h id (some x) (some { x with taken })
  /-- Something happens to it. -/
  | evolve {x y : Custody} {paid : Nat} (step : Evolves allowed id x paid y) :
      Fate allowed h id (some x) (some y)
  /-- It comes. -/
  | made {i : Instance} {m : LoadedModule} {r : Runtime} {imported : List (Wasm.Func Callback)}
      {taken : List Span} (module : h.module? i.module = some m)
      (runtime : h.runtime? m.runtime = some r) (commons : i.commons = m.commons)
      (linked : ∀ f ∈ imported, ∃ n ∈ r.natives, f = .native n n.type)
      (limiter : i.limiter = .empty) (store : i.store = none) (memory : i.memory = none)
      (next : id = h.instances.next) :
      Fate allowed h id none
        (some ⟨i, some ⟨.ofGuest (.bare m.wasm imported), i.commons, false⟩, taken⟩)
  /-- It goes. -/
  | gone {x : Custody} : Fate allowed h id (some x) none

/-- As long as its record and its store are as they were, only blocks can have come in hand, or got out
of it. -/
theorem Fate.of_same {allowed : Effect → Prop} {h : Host σ} {c d : Config σ} {id : Nat}
    (inst : (d.host.instances.get? id).map Counted.value =
      (c.host.instances.get? id).map Counted.value)
    (held : d.pending.held id = c.pending.held id) :
    Fate allowed h id (c.custody? id) (d.custody? id) := by
  have custody : ∀ e : Config σ, e.custody? id = ((e.host.instances.get? id).map
      Counted.value).map fun i => ⟨i, e.pending.held id, e.pending.taken id⟩ := by
    intro e
    rw [Option.map_map]
    rfl
  rw [custody c, custody d, inst, held]
  cases (c.host.instances.get? id).map Counted.value with
  | none => exact .same
  | some i => exact .blocks

/-! ### The invariant -/

variable [Holder σ] [Rule σ]

/-- The store of an instance is in its place or in hand, with the commons that it charges. -/
structure Custody.Sound (x : Custody) : Prop where
  held : ∀ loan, x.held = some loan → x.record.store = none ∧ loan.commons = x.record.commons
  idle : x.held = none → x.record.store.isSome

/-- As many hold each object as are counted, what is counted has a holder, and a store is away
exactly while it is in hand. An instance that is not complete has no other holder. The application
is in a state that it may be in. -/
structure Config.Sound (c : Config σ) : Prop where
  admitted : Rule.admits c.host.instances.next c.host.app
  counted : ∀ k id, k ≠ .commons → c.host.holders k id =
    Holder.holds c.host.app k id + c.pending.pins k id + c.host.inner k id + c.pending.loaned k id
  runtimes : c.host.runtimes.All fun r => 0 < r.holders
  modules : c.host.modules.All fun m => 0 < m.holders
  instances : c.host.instances.All fun i => 0 < i.holders
  present : ∀ id loan, c.pending.held id = some loan → (c.host.instances.get? id).isSome
  single : ∀ id i loan, c.host.instances.get? id = some i → c.pending.held id = some loan →
    loan.ready = false → i.holders = 1
  custody : ∀ id x, c.custody? id = some x → x.Sound

variable {allowed : Effect → Prop} {a b : Config σ}

/-- What stays as it is whatever happens to an instance. -/
theorem Evolves.static {id paid : Nat} {x y : Custody} (step : Evolves allowed id x paid y) :
    y.record.module = x.record.module ∧ y.record.commons = x.record.commons ∧
      y.record.stackSize = x.record.stackSize := by
  cases step <;> exact ⟨rfl, rfl, rfl⟩

/-- No store is in hand of an instance that does not exist yet. -/
theorem Config.Sound.held_next {h : Host σ} {g : Pending} (ha : Config.Sound ⟨h, g⟩) :
    g.held h.instances.next = none := by
  cases held : g.held h.instances.next with
  | none => rfl
  | some loan =>
    have present := ha.present _ _ held
    rw [Pool.get?_next] at present
    cases present

/-- The holders after a change are the holders that are counted after it. -/
theorem Change.counted (step : Change allowed a b) (ha : a.Sound) (k : Kind) (id : Nat)
    (hk : k ≠ .commons) : b.host.holders k id =
      Holder.holds b.host.app k id + b.pending.pins k id + b.host.inner k id +
        b.pending.loaned k id := by
  have before := ha.counted k id hk
  -- A change moves holders between the places that are summed up, or adds what a new object holds
  -- on one side and what was in hand for it on the other.
  cases step with
  | commons | released | lease | giveBack | blockLost => exact before
  | app same =>
    have same := same k id hk
    simp only [Host.holders, Host.inner, Pending.loaned] at *
    omega
  | @runtimeMade h g c r =>
    simp only [Pending.pin, Pending.hold, Pi.add_apply] at *
    cases k <;> simp [Host.holders, Host.inner, Holds.on, Pool.count_insert, Pending.loaned] at * <;>
      omega
  | @moduleMade h g m =>
    have inner := h.inner_modules k id (h.modules.insert ⟨m, 1⟩).1
    rw [Pool.total_insert] at inner
    simp only [Pending.pin, Pending.hold, Pending.owe, Pi.add_apply] at *
    cases k <;> simp [Host.holders, Holds.on, Pool.count_insert, Pending.loaned] at * <;> omega
  | @instanceMade h g i m r imported =>
    have inner := h.inner_instances k id (h.instances.insert ⟨i, 1⟩).1
    have free : g.held h.instances.next = none := ha.held_next
    rw [Pool.total_insert] at inner
    rw [Pending.loaned_lend free]
    simp only [Pending.lend, Pending.hold, Pending.owe, Pi.add_apply] at *
    cases k <;> simp [Host.holders, Holds.on, Pool.count_insert, Pending.loaned] at * <;> omega
  | @environmentMade h g e =>
    have inner := h.inner_environments k id (h.environments.insert e).1
    rw [Pool.total_insert] at inner
    simp only [Pending.pin, Pending.hold, Pending.owe, Pi.add_apply] at *
    cases k <;> simp [Host.holders, Holds.on, Pool.owned_insert, Pending.loaned] at * <;> omega
  | @blockMade h g b =>
    have inner := h.inner_blocks k id (h.blocks.insert b).1
    rw [Pool.total_insert] at inner
    simp only [Pending.pin, Pending.hold, Pending.take, Pi.add_apply] at *
    cases k <;> simp [Host.holders, Holds.on, Pool.owned_insert, Pending.loaned] at * <;> omega
  | @runnerMade h g r =>
    have inner := h.inner_runners k id (h.runners.insert r).1
    rw [Pool.total_insert] at inner
    simp only [Pending.pin, Pending.hold, Pi.add_apply] at *
    cases k <;> simp [Host.holders, Holds.on, Pool.owned_insert, Pending.loaned] at * <;> omega
  | @runtimeHeld h g j n c pins present pos same =>
    have same := congrFun (congrFun same k) id
    have count := Pool.count_modify present (fun _ => ⟨c.value, n⟩) id
    simp only [Pi.add_apply] at same
    cases k <;> simp [Host.holders, Host.inner, Holds.on, Pending.loaned] at * <;> omega
  | @moduleHeld h g j n c pins present pos same =>
    have same := congrFun (congrFun same k) id
    have count := Pool.count_modify present (fun _ => ⟨c.value, n⟩) id
    have inner := h.inner_modules k id (h.modules.modify j fun _ => ⟨c.value, n⟩)
    have total := Pool.total_modify present (fun _ => ⟨c.value, n⟩) fun c => c.value.refs k id
    simp only [Pi.add_apply] at same
    cases k <;> simp [Host.holders, Holds.on, Pending.loaned] at * <;> omega
  | @instanceHeld h g j n c pins present pos same complete =>
    have same := congrFun (congrFun same k) id
    have count := Pool.count_modify present (fun _ => ⟨c.value, n⟩) id
    have inner := h.inner_instances k id (h.instances.modify j fun _ => ⟨c.value, n⟩)
    have total := Pool.total_modify present (fun _ => ⟨c.value, n⟩) fun c => c.value.refs k id
    simp only [Pi.add_apply] at same
    cases k <;> simp [Host.holders, Holds.on, Pending.loaned] at * <;> omega
  | @runtimeGone h g j c present last =>
    have count := Pool.count_erase present id
    rw [last] at count
    simp only [Pending.pin, Pending.hold, Pi.add_apply] at *
    cases k <;> simp [Host.holders, Host.inner, Holds.on, Pending.loaned] at * <;> omega
  | @moduleGone h g j c present last =>
    have count := Pool.count_erase present id
    rw [last] at count
    have inner := h.inner_modules k id (h.modules.erase j)
    have total := Pool.total_erase present fun c => c.value.refs k id
    simp only [Pending.pin, Pending.hold, Pending.owe, Pi.add_apply] at *
    cases k <;> simp [Host.holders, Holds.on, Pending.loaned] at * <;> omega
  | @instanceGone h g j c present last =>
    have count := Pool.count_erase present id
    rw [last] at count
    have inner := h.inner_instances k id (h.instances.erase j)
    have total := Pool.total_erase present fun c => c.value.refs k id
    simp only [Pending.pin, Pending.hold, Pending.owe, Pi.add_apply] at *
    cases k <;> simp [Host.holders, Holds.on, Pending.loaned] at * <;> omega
  | @instanceFailed h g j c loan present last held =>
    have count := Pool.count_erase present id
    rw [last] at count
    have inner := h.inner_instances k id (h.instances.erase j)
    have total := Pool.total_erase present fun c => c.value.refs k id
    have loaned := Pending.loaned_without held k id
    simp only [Pending.hold, Pending.owe, Pi.add_apply] at *
    cases k <;> simp [Host.holders, Holds.on, Pending.loaned] at * <;> omega
  | @environmentGone h g j e present =>
    have count := Pool.owned_erase present id
    have inner := h.inner_environments k id (h.environments.erase j)
    have total := Pool.total_erase present fun e => e.refs k id
    simp only [Pending.pin, Pending.hold, Pending.owe, Pi.add_apply] at *
    cases k <;> simp [Host.holders, Holds.on, Pending.loaned] at * <;> omega
  | @blockGone h g j b present =>
    have count := Pool.owned_erase present id
    have inner := h.inner_blocks k id (h.blocks.erase j)
    have total := Pool.total_erase present fun b => b.refs k id
    simp only [Pending.pin, Pending.hold, Pending.take, Pi.add_apply] at *
    cases k <;> simp [Host.holders, Holds.on, Pending.loaned] at * <;> omega
  | @runnerGone h g j r present =>
    have count := Pool.owned_erase present id
    have inner := h.inner_runners k id (h.runners.erase j)
    have total := Pool.total_erase present fun r => r.refs k id
    simp only [Pending.pin, Pending.hold, Pi.add_apply] at *
    cases k <;> simp [Host.holders, Holds.on, Pending.loaned] at * <;> omega
  | @userData h g j f _ =>
    have inner := h.inner_environments k id (h.environments.modify j fun e => { e with userData := f e })
    rw [Pool.total_modify_of_eq] at inner
    · cases k <;> simp [Host.holders, Host.modifyEnvironment, Pending.loaned] at * <;> omega
    · intro e
      rfl
  | @recorded h g j threshold counter =>
    have inner := h.inner_runners k id (h.runners.modify j fun r =>
      { r with threshold := threshold r, counter := counter r })
    rw [Pool.total_modify_of_eq] at inner
    · cases k <;> simp [Host.holders, Pending.loaned] at * <;> omega
    · intro r
      rfl
  | @evolve h g j paid c y pins present step same =>
    have same := congrFun (congrFun same k) id
    have count := Pool.count_modify present (fun c => ⟨y.record, c.holders⟩) id
    have inner := h.inner_instances k id (h.instances.modify j fun c => ⟨y.record, c.holders⟩)
    have total := Pool.total_modify present (fun c => ⟨y.record, c.holders⟩)
      fun c => c.value.refs k id
    have refs : y.record.refs k id = c.value.refs k id := by
      rw [Instance.refs, step.static.1]
      rfl
    simp only [Pi.add_apply] at same
    simp only [Host.modifyInstance, Pending.owe] at *
    cases k <;> simp [Host.holders, Pending.loaned] at * <;> omega
  | @inHand h g j c loan loan' present held step =>
    have loaned : (g.lend j loan').loaned k id = g.loaned k id := by
      cases k <;> simp only [Pending.loaned]
      by_cases e : id = j
      · simp [e, held]
      · simp [e]
    rw [loaned]
    exact before

/-! ### The invariant is kept -/

/-- What one change does to an instance. -/
theorem Change.fate (step : Change allowed a b) (ha : a.Sound) (id : Nat) :
    Fate allowed a.host id (a.custody? id) (b.custody? id) := by
  -- Of the instances, only the one that a change is about has anything happen to it.
  cases step with
  | @instanceMade h g i m r imported module runtime commons linked limiter store memory =>
    by_cases e : id = h.instances.next
    · have before : Config.custody? ⟨h, (g.hold i.refs).owe i.charge⟩ id = none := by
        simp [Config.custody?, e, Pool.get?_next]
      have after : Config.custody? ⟨{ h with instances := (h.instances.insert ⟨i, 1⟩).1 },
          g.lend h.instances.next ⟨.ofGuest (.bare m.wasm imported), i.commons, false⟩⟩ id =
          some ⟨i, some ⟨.ofGuest (.bare m.wasm imported), i.commons, false⟩, g.taken id⟩ := by
        simp [Config.custody?, e, Pool.get?_insert, Pending.lend]
      rw [before, after]
      exact .made module runtime commons linked limiter store memory e
    · refine .of_same ?_ ?_
      · simp [Pool.get?_insert, e]
      · simp [Pending.lend, Pending.hold, Pending.owe, e]
  | @instanceHeld h g j n c pins present pos same complete =>
    refine .of_same ?_ rfl
    rw [Pool.get?_modify]
    split
    case isTrue e => rw [e, present]; rfl
    case isFalse => rfl
  | @instanceGone h g j c present last =>
    by_cases e : id = j
    · subst e
      simp only [Config.custody?, present, Pool.get?_erase, if_true]
      exact .gone
    · refine .of_same ?_ rfl
      rw [Pool.get?_erase, if_neg e]
  | @instanceFailed h g j c loan present last held =>
    by_cases e : id = j
    · subst e
      simp only [Config.custody?, present, Pool.get?_erase, if_true]
      exact .gone
    · refine .of_same ?_ ?_
      · rw [Pool.get?_erase, if_neg e]
      · simp [Pending.hold, Pending.owe, e]
  | @evolve h g j paid c y pins present step same =>
    by_cases e : id = j
    · subst e
      simp only [Config.custody?, present, Host.modifyInstance, Pool.get?_modify, if_true,
        Option.map_some, Function.update_self]
      exact .evolve step
    · refine .of_same ?_ ?_
      · simp [Host.modifyInstance, Pool.get?_modify, e]
      · simp [Pending.owe, e]
  | @inHand h g j c loan loan' present held step =>
    by_cases e : id = j
    · subst e
      simp only [Config.custody?, present, Option.map_some, held, Pending.lend,
        Function.update_self]
      exact .evolve step
    · exact .of_same rfl (by simp [e])
  | _ => exact .of_same rfl rfl

/-- A condition on single instances holds after a change if it holds before, and of new ones. -/
theorem Change.custody_induct {P : Nat → Custody → Prop} (step : Change allowed a b)
    (ha : a.Sound) (blocks : ∀ id x taken, P id x → P id { x with taken })
    (evolve : ∀ id x paid y, x.Sound → Evolves allowed id x paid y → P id x → P id y)
    (made : ∀ id x, Fate allowed a.host id none (some x) → P id x)
    (h : ∀ id x, a.custody? id = some x → P id x) : ∀ id x, b.custody? id = some x → P id x := by
  intro id y hy
  have fate := step.fate ha id
  rw [hy] at fate
  generalize hx : a.custody? id = x at fate
  cases fate with
  | same => exact h id y hx
  | blocks => exact blocks id _ _ (h id _ hx)
  | evolve step => exact evolve id _ _ _ (ha.custody id _ hx) step (h id _ hx)
  | made module runtime commons linked limiter store memory next =>
    exact made id _ (.made module runtime commons linked limiter store memory next)

omit [Holder σ] [Rule σ] in
/-- A store that is in its place is not in hand. -/
theorem Custody.Sound.free {x : Custody} {s : Store} (hx : x.Sound)
    (idle : x.record.store = some s) : x.held = none := by
  cases held : x.held with
  | none => rfl
  | some loan =>
    rw [(hx.held loan held).1] at idle
    cases idle

/-- What happens to an instance keeps its custody sound. -/
theorem Evolves.sound {id paid : Nat} {x y : Custody} (step : Evolves allowed id x paid y)
    (hx : x.Sound) : y.Sound := by
  cases step with
  | edit idle => exact ⟨by simp [hx.free idle], fun _ => rfl⟩
  | latch idle => exact ⟨by simp [hx.free idle], fun _ => rfl⟩
  | alloc idle => exact ⟨by simp [hx.free idle], fun _ => rfl⟩
  | free idle => exact ⟨by simp [hx.free idle], fun _ => rfl⟩
  | enter => exact ⟨by simp, by simp⟩
  | leave => exact ⟨by simp, fun _ => rfl⟩
  | run held => exact ⟨by simpa using hx.held _ held, by simp⟩
  | grow held => exact ⟨by simpa using hx.held _ held, by simp⟩
  | manage held => exact ⟨by simpa using hx.held _ held, by simp⟩
  | complete => exact ⟨by simp, fun _ => rfl⟩

/-- An instance that is not complete was not complete before. -/
theorem Evolves.held_of_not_ready {id paid : Nat} {x y : Custody}
    (step : Evolves allowed id x paid y) {loan : Loan} (held : y.held = some loan)
    (ready : loan.ready = false) : ∃ before, x.held = some before ∧ before.ready = false := by
  cases step with
  | enter => cases held; cases ready
  | leave => cases held
  | complete => cases held
  | run before => cases held; exact ⟨_, before, ready⟩
  | grow before => cases held; exact ⟨_, before, ready⟩
  | manage before => cases held; exact ⟨_, before, ready⟩
  | _ => exact ⟨loan, held, ready⟩

/-- The last holder of an instance is no call. -/
theorem Config.Sound.held_of_last {h : Host σ} {g : Pending} {id : Nat} {c : Embedder.Counted Instance}
    (ha : Config.Sound ⟨h, g.pin .inst id⟩) (present : h.instances.get? id = some c)
    (last : c.holders = 1) : g.held id = none := by
  have counted := ha.counted .inst id (by simp)
  have count := Pool.count_of_get? present
  cases held : g.held id with
  | none => rfl
  | some loan =>
    simp [Host.holders, Holds.on, Pending.loaned, held] at counted
    omega

/-- An instance whose store is in hand after a change is there. -/
theorem Change.present (step : Change allowed a b) (ha : a.Sound) {id : Nat} {loan : Loan}
    (held : b.pending.held id = some loan) : (b.host.instances.get? id).isSome := by
  -- Only instances that come, go or have something happen to their store need a look.
  cases step with
  | @instanceMade h g i =>
    rw [Pool.get?_insert]
    split
    case isTrue => rfl
    case isFalse e => exact ha.present id loan (by simpa [Pending.lend, e] using held)
  | @instanceHeld h g j =>
    have before := ha.present id loan held
    rw [Pool.get?_modify]
    split <;> simpa using before
  | @instanceGone h g j c present last =>
    have e : id ≠ j := by
      rintro rfl
      have free : g.held id = some loan := held
      rw [ha.held_of_last present last] at free
      cases free
    rw [Pool.get?_erase, if_neg e]
    exact ha.present id loan held
  | @instanceFailed h g j c =>
    have e : id ≠ j := by
      rintro rfl
      simp [Pending.hold, Pending.owe] at held
    rw [Pool.get?_erase, if_neg e]
    exact ha.present id loan (by simpa [Pending.hold, Pending.owe, e] using held)
  | @evolve h g j paid c y pins present =>
    rw [Host.modifyInstance, Pool.get?_modify]
    split
    case isTrue e => rw [e, present]; rfl
    case isFalse e => exact ha.present id loan (by simpa [e] using held)
  | @inHand h g j c before after present held' =>
    by_cases e : id = j
    · rw [e, present]
      rfl
    · exact ha.present id loan (by simpa [e] using held)
  | _ => exact ha.present id loan held

/-- An instance that is not complete after a change has one holder. -/
theorem Change.single (step : Change allowed a b) (ha : a.Sound) {id : Nat}
    {i : Embedder.Counted Instance} {loan : Loan} (present : b.host.instances.get? id = some i)
    (held : b.pending.held id = some loan) (ready : loan.ready = false) : i.holders = 1 := by
  cases step with
  | @instanceMade h g j =>
    rw [Pool.get?_insert] at present
    split at present
    case isTrue => cases present; rfl
    case isFalse e =>
      exact ha.single id i loan present (by simpa [Pending.lend, e] using held) ready
  -- An instance gets further holders only once it is complete.
  | @instanceHeld h g j n c pins before pos same complete =>
    have e : id ≠ j := by
      rintro rfl
      rw [complete loan held] at ready
      cases ready
    rw [Pool.get?_modify, if_neg e] at present
    exact ha.single id i loan present held ready
  | @instanceGone h g j c =>
    rw [Pool.get?_erase] at present
    split at present
    case isTrue => cases present
    case isFalse => exact ha.single id i loan present held ready
  | @instanceFailed h g j c =>
    rw [Pool.get?_erase] at present
    split at present
    case isTrue => cases present
    case isFalse e =>
      exact ha.single id i loan present (by simpa [Pending.hold, Pending.owe, e] using held) ready
  | @evolve h g j paid c y pins before step =>
    rw [Host.modifyInstance, Pool.get?_modify] at present
    split at present
    case isTrue e =>
      subst e
      rw [before] at present
      cases present
      obtain ⟨loan', held', ready'⟩ := step.held_of_not_ready (by simpa using held) ready
      exact ha.single id c loan' before held' ready'
    case isFalse e => exact ha.single id i loan present (by simpa [e] using held) ready
  | @inHand h g j c before after present' held' step =>
    by_cases e : id = j
    · subst e
      obtain ⟨loan', eq, ready'⟩ := step.held_of_not_ready (by simpa using held) ready
      rw [← held'] at eq
      exact ha.single id i loan' present eq ready'
    · exact ha.single id i loan present (by simpa [e] using held) ready
  | _ => exact ha.single id i loan present held ready

/-- **Changes keep a host sound.** -/
theorem Change.sound (step : Change allowed a b) (ha : a.Sound) : b.Sound where
  admitted := by
    -- What the application may hold depends on how many instances there have been, and these only
    -- get more.
    cases step with
    | app _ rule => exact rule _ ha.admitted
    | instanceMade => exact Rule.mono ha.admitted (by simp)
    | instanceHeld => exact Rule.mono ha.admitted (by simp)
    | instanceGone => exact Rule.mono ha.admitted (by simp)
    | instanceFailed => exact Rule.mono ha.admitted (by simp)
    | evolve => exact Rule.mono ha.admitted (by simp [Host.modifyInstance])
    | _ => exact ha.admitted
  counted := step.counted ha
  runtimes := by
    cases step with
    | runtimeMade => exact ha.runtimes.insert Nat.one_pos
    | runtimeHeld present pos => exact ha.runtimes.modify fun _ _ => pos
    | runtimeGone => exact ha.runtimes.erase _
    | _ => exact ha.runtimes
  modules := by
    cases step with
    | moduleMade => exact ha.modules.insert Nat.one_pos
    | moduleHeld present pos => exact ha.modules.modify fun _ _ => pos
    | moduleGone => exact ha.modules.erase _
    | _ => exact ha.modules
  instances := by
    cases step with
    | instanceMade => exact ha.instances.insert Nat.one_pos
    | instanceHeld present pos => exact ha.instances.modify fun _ _ => pos
    | instanceGone => exact ha.instances.erase _
    | instanceFailed => exact ha.instances.erase _
    | evolve present => exact ha.instances.modify fun i hi => ha.instances _ i hi
    | _ => exact ha.instances
  present _ _ := step.present ha
  single _ _ _ := step.single ha
  custody := by
    refine step.custody_induct ha (fun _ _ _ hx => ⟨hx.held, hx.idle⟩)
      (fun _ _ _ _ sound step _ => step.sound sound) ?_ ha.custody
    intro id x made
    cases made with
    | made module runtime commons linked limiter store memory =>
      exact ⟨fun loan h => by cases h; exact ⟨store, rfl⟩, fun h => by cases h⟩

end Embedder
