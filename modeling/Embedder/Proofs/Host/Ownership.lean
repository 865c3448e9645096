import Embedder.Proofs.Host.Sound
import Embedder.Proofs.Monad

namespace Embedder

open Session (Kind)

/-!
# Taking and giving up holds

On a sound host, an operation does nothing but changes. Here this is shown of everything that takes
a hold or gives one up, down to the end of what has no holder left.

* `Leads`: one configuration leads to another by changes.
* `leads_retainRuntime` and the like: one more holder.
* `leads_releaseInstance` and the like: one holder less, with all that follows from it.
* `leads_dropEnvironment`, `leads_dropBlock`, `leads_dropRunner`: the end of what has one owner.
-/

variable {σ : Type} [Holder σ] [Rule σ] {allowed : Effect → Prop} {a b c : Config σ}
  {h : Host σ} {g : Pending}

/-! ### Sequences of changes -/

/-- If the first configuration is sound, changes lead from it to the second one. -/
def Leads (allowed : Effect → Prop) (a b : Config σ) : Prop :=
  a.Sound → Relation.ReflTransGen (Change allowed) a b

/-- Soundness is an invariant: each change keeps it, and so do changes one after the other, by
induction. -/
theorem sound_of_changes (steps : Relation.ReflTransGen (Change allowed) a b) (ha : a.Sound) :
    b.Sound := by
  induction steps with
  | refl => exact ha
  | tail _ step ih => exact step.sound ih

namespace Leads

/-- To do nothing leads nowhere. -/
theorem refl : Leads allowed a a :=
  fun _ => .refl

/-- What leads on leads on together. -/
theorem trans (first : Leads allowed a b) (second : Leads allowed b c) : Leads allowed a c :=
  fun ha => (first ha).trans (second (sound_of_changes (first ha) ha))

/-- A single change leads on. -/
theorem of_change (step : Change allowed a b) : Leads allowed a b :=
  fun _ => .single step

/-- What leads to a configuration may be argued from the soundness of the first one. -/
theorem of_sound (lead : a.Sound → Leads allowed a b) : Leads allowed a b :=
  fun ha => lead ha ha

/-- What leads on keeps hosts sound. -/
theorem sound (lead : Leads allowed a b) (ha : a.Sound) : b.Sound :=
  sound_of_changes (lead ha) ha

/-- An equal state is led to as well. -/
theorem cast {b' : Config σ} (lead : Leads allowed a b) (eq : b = b') : Leads allowed a b' :=
  eq ▸ lead

/-- What every change keeps holds where changes lead. -/
theorem induct {P : Config σ → Prop} (lead : Leads allowed a b) (ha : a.Sound)
    (step : ∀ c d, c.Sound → Change allowed c d → P c → P d) (pa : P a) : P b := by
  suffices both : P b ∧ b.Sound from both.1
  have steps := lead ha
  clear lead
  induction steps with
  | refl => exact ⟨pa, ha⟩
  | tail _ change ih => exact ⟨step _ _ ih.2 change ih.1, change.sound ih.2⟩

end Leads

/-! ### What is held is there -/

/-- What has holders is there. -/
theorem Pool.get?_of_count_pos {α : Type} {p : Pool (Counted α)} {id : Nat} (h : 0 < p.count id) :
    ∃ c, p.get? id = some c := by
  cases hc : p.get? id with
  | none => simp [count, hc] at h
  | some c => exact ⟨c, rfl⟩

/-- What has an owner is there. -/
theorem Pool.get?_of_owned_pos {α : Type} {p : Pool α} {id : Nat} (h : 0 < p.owned id) :
    ∃ a, p.get? id = some a := by
  cases ha : p.get? id with
  | none => simp [owned, ha] at h
  | some a => exact ⟨a, rfl⟩

/-- What an operation has a hold on has holders. -/
theorem Config.Sound.holders_pos (kind : Kind) {id : Nat}
    (ha : Config.Sound ⟨h, g.pin kind id⟩) (hk : kind ≠ .commons) : 0 < h.holders kind id := by
  have counted := ha.counted kind id hk
  simp [Holds.on] at counted
  omega

/-- An instance has a holder other than its call. -/
def Config.Shared (c : Config σ) (id : Nat) : Prop :=
  0 < Holder.holds c.host.app .inst id + c.pending.pins .inst id + c.host.inner .inst id

/-- An instance that has another holder than its call is complete. -/
theorem Config.Sound.ready {id : Nat} {i : Counted Instance} {loan : Loan}
    (ha : Config.Sound ⟨h, g⟩) (present : h.instances.get? id = some i)
    (held : g.held id = some loan) (shared : Config.Shared ⟨h, g⟩ id) : loan.ready = true := by
  have others : 0 < Holder.holds h.app .inst id + g.pins .inst id + h.inner .inst id := shared
  have counted := ha.counted .inst id (by simp)
  have count := Pool.count_of_get? present
  simp only [Host.holders, Pending.loaned, held, Option.isSome_some, if_true] at counted
  cases ready : loan.ready with
  | true => rfl
  | false =>
    have one := ha.single id i loan present held ready
    omega

/-! ### One more holder -/

omit [Holder σ] [Rule σ] in
@[simp] theorem Host.runtime?_retainRuntime (id j : Nat) :
    (h.retainRuntime id).runtime? j = h.runtime? j := by
  simp only [runtime?, retainRuntime, Pool.get?_modify]
  split
  · rw [Option.map_map]
    rfl
  · rfl

omit [Holder σ] [Rule σ] in
@[simp] theorem Host.module?_retainModule (id j : Nat) :
    (h.retainModule id).module? j = h.module? j := by
  simp only [module?, retainModule, Pool.get?_modify]
  split
  · rw [Option.map_map]
    rfl
  · rfl

omit [Holder σ] [Rule σ] in
@[simp] theorem Host.instance?_retainInstance (id j : Nat) :
    (h.retainInstance id).instance? j = h.instance? j := by
  simp only [instance?, retainInstance, Pool.get?_modify]
  split
  · rw [Option.map_map]
    rfl
  · rfl

/-- One more holder of a runtime is in hand. -/
theorem leads_retainRuntime {id : Nat} {r : Runtime} (present : h.runtime? id = some r) :
    Leads allowed ⟨h, g⟩ ⟨h.retainRuntime id, g.pin .runtime id⟩ := by
  obtain ⟨c, hc, rfl⟩ := Option.map_eq_some_iff.1 present
  rw [Host.retainRuntime, Pool.modify_congr hc (g := fun _ => ⟨c.value, c.holders + 1⟩) rfl]
  refine .of_change (.runtimeHeld hc (Nat.succ_pos _) ?_)
  funext k i
  simp only [Pi.add_apply, Holds.on]
  split <;> omega

/-- One more holder of a module is in hand. -/
theorem leads_retainModule {id : Nat} {m : LoadedModule} (present : h.module? id = some m) :
    Leads allowed ⟨h, g⟩ ⟨h.retainModule id, g.pin .module id⟩ := by
  obtain ⟨c, hc, rfl⟩ := Option.map_eq_some_iff.1 present
  rw [Host.retainModule, Pool.modify_congr hc (g := fun _ => ⟨c.value, c.holders + 1⟩) rfl]
  refine .of_change (.moduleHeld hc (Nat.succ_pos _) ?_)
  funext k i
  simp only [Pi.add_apply, Holds.on]
  split <;> omega

/-- One more holder of an instance is in hand. -/
theorem leads_retainInstance {id : Nat} (shared : Config.Shared ⟨h, g⟩ id) :
    Leads allowed ⟨h, g⟩ ⟨h.retainInstance id, g.pin .inst id⟩ := by
  refine .of_sound fun ha => ?_
  have pos : 0 < h.instances.count id := by
    have counted := ha.counted .inst id (by simp)
    simp only [Config.Shared, Host.holders] at shared counted
    omega
  obtain ⟨c, hc⟩ := Pool.get?_of_count_pos pos
  rw [Host.retainInstance, Pool.modify_congr hc (g := fun _ => ⟨c.value, c.holders + 1⟩) rfl]
  refine .of_change (.instanceHeld hc (Nat.succ_pos _) ?_ ?_)
  · funext k i
    simp only [Pi.add_apply, Holds.on]
    split <;> omega
  · exact fun loan held => ha.ready hc held shared

/-! ### One holder less -/

/-- A holder of a runtime in hand lets go of it. -/
theorem leads_releaseRuntime (id : Nat) :
    Leads allowed ⟨h, g.pin .runtime id⟩ ⟨h.releaseRuntime id, g⟩ := by
  refine .of_sound fun ha => ?_
  obtain ⟨c, hc⟩ := Pool.get?_of_count_pos (ha.holders_pos .runtime (by simp))
  have pos : 0 < c.holders := ha.runtimes id c hc
  simp only [Host.releaseRuntime, hc, Counted.release?]
  by_cases last : c.holders ≤ 1
  · rw [if_pos last]
    exact .of_change (.runtimeGone hc (by omega))
  · rw [if_neg last]
    refine .of_change (.runtimeHeld hc (by omega) ?_)
    funext k i
    simp only [Pending.pin_pins, Pi.add_apply, Holds.on]
    split <;> omega

/-- A holder of a module in hand lets go of it. The last one takes the module along, and then its
charge and the runtime that it holds. -/
theorem leads_releaseModule (id : Nat) :
    Leads allowed ⟨h, g.pin .module id⟩ ⟨h.releaseModule id, g⟩ := by
  refine .of_sound fun ha => ?_
  obtain ⟨c, hc⟩ := Pool.get?_of_count_pos (ha.holders_pos .module (by simp))
  have pos : 0 < c.holders := ha.modules id c hc
  simp only [Host.releaseModule, hc, Counted.release?]
  by_cases last : c.holders ≤ 1
  · rw [if_pos last]
    -- The module returns its charge, and then its hold on the runtime.
    refine (Leads.of_change (.moduleGone hc (by omega))).trans ?_
    refine (Leads.of_change .giveBack).trans ?_
    exact leads_releaseRuntime _
  · rw [if_neg last]
    refine .of_change (.moduleHeld hc (by omega) ?_)
    funext k i
    simp only [Pending.pin_pins, Pi.add_apply, Holds.on]
    split <;> omega

/-- Charges that are owed one after the other are owed together. -/
theorem Pending.owe_owe (d e : Charges) : (g.owe d).owe e = g.owe (d + e) := by
  simp [owe, add_assoc]

/-- What follows when the last holder of an instance is gone. -/
theorem leads_endInstance (i : Instance) :
    Leads allowed ⟨h, (g.hold i.refs).owe i.charge⟩
      ⟨(((h.giveBack i.commons i.limiter.charged.value).giveBack i.commons i.stackSize).releaseModule
        i.module), g⟩ := by
  rw [Instance.charge, Charges.of_add, ← Pending.owe_owe]
  refine (Leads.of_change .giveBack).trans ?_
  refine (Leads.of_change .giveBack).trans ?_
  exact leads_releaseModule _

/-- A holder of an instance in hand lets go of it. The last one takes the instance along, and then
its charges and the module that it holds. -/
theorem leads_releaseInstance (id : Nat) :
    Leads allowed ⟨h, g.pin .inst id⟩ ⟨h.releaseInstance id, g⟩ := by
  refine .of_sound fun ha => ?_
  obtain ⟨c, hc⟩ := Pool.get?_of_count_pos (ha.holders_pos .inst (by simp))
  have pos : 0 < c.holders := ha.instances id c hc
  simp only [Host.releaseInstance, hc, Counted.release?]
  by_cases last : c.holders ≤ 1
  · rw [if_pos last]
    exact (Leads.of_change (.instanceGone hc (by omega))).trans (leads_endInstance c.value)
  · rw [if_neg last]
    refine .of_change (.instanceHeld hc (by omega) ?_ fun loan held => ?_)
    · funext k i
      simp only [Pending.pin_pins, Pi.add_apply, Holds.on]
      split <;> omega
    · refine ha.ready hc held ?_
      have own : Holds.on .inst id 1 .inst id = 1 := if_pos ⟨rfl, rfl⟩
      simp only [Config.Shared, Pending.pin_pins, own]
      omega

/-- An instance that could not be completed goes with its only holder. -/
theorem leads_abandonInstance {id : Nat} {loan : Loan} (ready : loan.ready = false)
    (free : g.held id = none) :
    Leads allowed ⟨h, g.lend id loan⟩ ⟨h.releaseInstance id, g⟩ := by
  refine .of_sound fun ha => ?_
  have held : (g.lend id loan).held id = some loan := by simp
  obtain ⟨c, hc⟩ := Option.isSome_iff_exists.1 (ha.present id loan held)
  have last : c.holders = 1 := ha.single id c loan hc held ready
  simp only [Host.releaseInstance, hc, Counted.release?, last, Nat.le_refl, if_true]
  refine (Leads.of_change (.instanceFailed hc last held)).trans ?_
  have same : ({ g.lend id loan with held := Function.update (g.lend id loan).held id none } :
      Pending) = g := by
    simp [Pending.lend, ← free]
  rw [same]
  exact leads_endInstance c.value

/-! ### What happens to one instance -/

omit [Holder σ] [Rule σ] in
/-- Where a store stays in hand, or in its place, nothing is borrowed or returned. -/
theorem Custody.squares_of_same {x y : Custody} (environments : Pool Environment) (id : Nat)
    (same : y.held.isSome = x.held.isSome) : Custody.Squares environments id x y where
  borrowed free loan _ _ held := by
    rw [free, held] at same
    cases same
  returned free loan _ _ _ held := by
    rw [free, held] at same
    cases same

/-- What happens to an instance and to what is in hand of it, charged bytes included. -/
theorem leads_evolve_paid {id paid : Nat} {i : Counted Instance} {y : Custody}
    (present : h.instances.get? id = some i)
    (step : Evolves allowed id ⟨i.value, g.held id, g.taken id⟩ paid y)
    (same : y.held.isSome = (g.held id).isSome) :
    Leads allowed ⟨h, g.owe (.of i.value.commons paid)⟩ ⟨h.modifyInstance id fun _ => y.record,
      { g with
        held := Function.update g.held id y.held
        taken := Function.update g.taken id y.taken }⟩ := by
  have loaned : ({ g with held := Function.update g.held id y.held } : Pending).loaned =
      g.loaned := by
    funext k j
    cases k <;> simp only [Pending.loaned]
    by_cases e : j = id
    · subst e
      simp [same]
    · simp [e]
  have loans : g.pins + ({ g with held := Function.update g.held id y.held } : Pending).loaned =
      g.pins + g.loaned := by rw [loaned]
  exact .of_change (.evolve present step loans (Custody.squares_of_same _ id same))

/-- What happens to an instance and to what is in hand of it. -/
theorem leads_evolve {id : Nat} {i : Counted Instance} {y : Custody}
    (present : h.instances.get? id = some i)
    (step : Evolves allowed id ⟨i.value, g.held id, g.taken id⟩ 0 y)
    (same : y.held.isSome = (g.held id).isSome) :
    Leads allowed ⟨h, g⟩ ⟨h.modifyInstance id fun _ => y.record,
      { g with
        held := Function.update g.held id y.held
        taken := Function.update g.taken id y.taken }⟩ := by
  have lead := leads_evolve_paid present step same
  rw [Charges.of_zero] at lead
  exact lead

/-- What happens to an instance of which nothing in hand is touched. -/
theorem leads_modifyInstance {id : Nat} {i : Counted Instance} {r : Instance}
    (present : h.instances.get? id = some i)
    (step : Evolves allowed id ⟨i.value, g.held id, g.taken id⟩ 0 ⟨r, g.held id, g.taken id⟩) :
    Leads allowed ⟨h, g⟩ ⟨h.modifyInstance id fun _ => r, g⟩ := by
  have lead := leads_evolve present step rfl
  simp only [Function.update_eq_self] at lead
  exact lead

/-- What happens to a store in hand. -/
theorem leads_inHand {id : Nat} {loan loan' : Loan}
    (step : ∀ i : Instance, Evolves allowed id ⟨i, some loan, g.taken id⟩ 0
      ⟨i, some loan', g.taken id⟩) :
    Leads allowed ⟨h, g.lend id loan⟩ ⟨h, g.lend id loan'⟩ := by
  refine .of_sound fun ha => ?_
  have held : (g.lend id loan).held id = some loan := by simp
  obtain ⟨c, hc⟩ := Option.isSome_iff_exists.1 (ha.present _ _ held)
  refine (Leads.of_change (.inHand hc held (step c.value))).cast ?_
  simp [Pending.lend]

/-- An instance gives its store away, and with it the user data of an environment; a hold in hand
becomes the call's. -/
theorem leads_borrow {id : Nat} {i : Counted Instance} {r : Instance} {loan : Loan}
    (present : h.instances.get? id = some i) (free : g.held id = none)
    (step : Evolves allowed id ⟨i.value, none, g.taken id⟩ 0 ⟨r, some loan, g.taken id⟩)
    (borrowed : ∀ environment u, loan.store.active = some ⟨environment, u⟩ →
      ∃ e, h.environments.get? environment = some e ∧ e.inst = id ∧ e.userData = u) :
    Leads allowed ⟨h, g.pin .inst id⟩ ⟨h.modifyInstance id fun _ => r, g.lend id loan⟩ := by
  -- The hold of the pin becomes the one of the loan.
  have same : g.pins + (g.lend id loan).loaned = (g.pin .inst id).pins + (g.pin .inst id).loaned := by
    funext k j
    have lend := Pending.loaned_lend free loan k j
    have pin : (g.pin .inst id).loaned = g.loaned := rfl
    simp only [Pi.add_apply, lend, Pending.pin_pins, pin]
    omega
  have step' : Evolves allowed id
      ⟨i.value, (g.pin .inst id).held id, (g.pin .inst id).taken id⟩ 0
      ⟨r, some loan, g.taken id⟩ := by
    rw [Pending.pin_held, Pending.pin_taken, free]
    exact step
  have square : Custody.Squares h.environments id
      ⟨i.value, (g.pin .inst id).held id, (g.pin .inst id).taken id⟩ ⟨r, some loan, g.taken id⟩ := by
    refine ⟨fun _ loan' environment u held lent => ?_, nofun⟩
    cases held
    exact borrowed environment u lent
  have change := Change.evolve present step' same square
  rw [Charges.of_zero] at change
  refine (Leads.of_change change).cast ?_
  simp [Pending.lend, Pending.pin, Pending.hold]

/-- A call gives a store back, after the user data that it had on loan; its hold is in hand again. -/
theorem leads_giveStore {id : Nat} {i : Counted Instance} {r : Instance} {loan : Loan}
    (present : h.instances.get? id = some i) (free : g.held id = none)
    (step : Evolves allowed id ⟨i.value, some loan, g.taken id⟩ 0 ⟨r, none, g.taken id⟩)
    (returned : ∀ environment u e, loan.store.active = some ⟨environment, u⟩ →
      h.environments.get? environment = some e → e.userData = u) :
    Leads allowed ⟨h, g.lend id loan⟩ ⟨h.modifyInstance id fun _ => r, g.pin .inst id⟩ := by
  have held : (g.lend id loan).held id = some loan := by simp
  -- The hold that the loan was is the one of the pin.
  have same : (g.pin .inst id).pins +
      ({ g.lend id loan with held := Function.update (g.lend id loan).held id none } :
        Pending).loaned = (g.lend id loan).pins + (g.lend id loan).loaned := by
    funext k j
    have lend := Pending.loaned_without held k j
    simp only [Pi.add_apply, Pending.pin_pins, ← lend, Pending.lend_pins]
    omega
  have step' : Evolves allowed id
      ⟨i.value, (g.lend id loan).held id, (g.lend id loan).taken id⟩ 0
      ⟨r, none, g.taken id⟩ := by
    rw [held]
    exact step
  have square : Custody.Squares h.environments id
      ⟨i.value, (g.lend id loan).held id, (g.lend id loan).taken id⟩ ⟨r, none, g.taken id⟩ := by
    rw [held]
    refine ⟨nofun, fun _ loan' environment u e held => ?_⟩
    cases held
    exact returned environment u e
  have change := Change.evolve present step' same square
  rw [Charges.of_zero] at change
  refine (Leads.of_change change).cast ?_
  simp [Pending.lend, Pending.pin, Pending.hold, ← free]

/-! ### Objects with one owner -/

/-- An environment in hand is dropped, and lets go of its instance. -/
theorem leads_dropEnvironment (id : Nat) :
    Leads allowed ⟨h, g.pin .environment id⟩ ⟨h.dropEnvironment id, g⟩ := by
  refine .of_sound fun ha => ?_
  obtain ⟨e, he⟩ := Pool.get?_of_owned_pos (ha.holders_pos .environment (by simp))
  simp only [Host.dropEnvironment, he]
  refine (Leads.of_change (.environmentGone he)).trans ?_
  refine (Leads.of_change .giveBack).trans ?_
  exact leads_releaseInstance _

/-- A block that is taken goes back to the heap, or stays taken. -/
theorem leads_freeBlock (id : Nat) (s : Span) :
    Leads allowed ⟨h, g.take id s⟩ ⟨h.freeBlock id s.start, g⟩ := by
  -- Where nothing is freed, the block is lost, which is a change of its own.
  have forgotten : h.freeBlock id s.start = h →
      Leads allowed ⟨h, g.take id s⟩ ⟨h.freeBlock id s.start, g⟩ := by
    intro stays
    rw [stays]
    exact .of_change (.blockLost (.inr stays))
  cases found : (h.instance? id).bind Instance.store with
  | none => exact forgotten (by rw [Host.freeBlock, found])
  | some store =>
    cases freed : store.heap.bind fun heap => heap.free? s.start with
    | none => exact forgotten (by simp only [Host.freeBlock, found, freed])
    | some returned =>
      obtain ⟨size, heap'⟩ := returned
      simp only [Host.freeBlock, found, freed]
      obtain ⟨i, present, idle⟩ := Option.bind_eq_some_iff.1 found
      obtain ⟨c, hc, rfl⟩ := Option.map_eq_some_iff.1 present
      obtain ⟨heap, hheap, hfree⟩ := Option.bind_eq_some_iff.1 freed
      have taken : (g.take id s).taken id = s :: g.taken id := by simp
      have step : Evolves allowed id ⟨c.value, (g.take id s).held id, (g.take id s).taken id⟩ 0
          ⟨{ c.value with store := some { store with heap := some heap' } },
            (g.take id s).held id, g.taken id⟩ := .free idle hheap taken hfree
      have lead := leads_evolve hc step rfl
      rw [Host.modifyInstance_congr hc (fun _ =>
        { c.value with store := some { store with heap := some heap' } }) rfl]
      refine lead.cast ?_
      simp [Pending.take]

/-- The values of a block are released. -/
theorem leads_releaseValues (b : Block) : Leads allowed ⟨h, g⟩ ⟨h.releaseValues b, g⟩ := by
  unfold Host.releaseValues
  split
  · exact .refl
  · split
    · exact .of_change .released
    · exact .refl

/-- A block in hand is dropped: its values are released, and it goes back to the app heap, or it
is forgotten. -/
theorem leads_dropBlock (id : Nat) :
    Leads allowed ⟨h, g.pin .block id⟩ ⟨h.dropBlock id, g⟩ := by
  refine .of_sound fun ha => ?_
  obtain ⟨b, hb⟩ := Pool.get?_of_owned_pos (ha.holders_pos .block (by simp))
  simp only [Host.dropBlock, hb]
  refine (Leads.of_change (.blockGone hb)).trans ?_
  refine Leads.trans (b := ⟨_, g.hold b.refs⟩) ?_ (leads_releaseInstance _)
  unfold Handle.deleted
  cases null : b.address.isNull with
  | true => exact .of_change (.blockLost (.inl (of_decide_eq_true null)))
  | false => exact (leads_releaseValues b).trans (leads_freeBlock _ _)

/-- A runner in hand is dropped: its environment goes first, and then it lets go of its instance and of
its module. -/
theorem leads_dropRunner (id : Nat) :
    Leads allowed ⟨h, g.pin .runner id⟩ ⟨h.dropRunner id, g⟩ := by
  refine .of_sound fun ha => ?_
  obtain ⟨r, hr⟩ := Pool.get?_of_owned_pos (ha.holders_pos .runner (by simp))
  simp only [Host.dropRunner, hr]
  refine (Leads.of_change (.runnerGone hr)).trans ?_
  have split : g.hold r.refs = ((g.pin .module r.module).pin .inst r.inst).pin .environment
      r.environment := by
    simp only [Pending.pin, Pending.hold, Runner.refs, Pending.mk.injEq, and_true]
    funext k i
    simp only [Pi.add_apply]
    omega
  rw [split]
  refine (leads_dropEnvironment _).trans ?_
  exact (leads_releaseInstance _).trans (leads_releaseModule _)

end Embedder
