import Embedder.Proofs.Host.Ownership

namespace Embedder

/-!
# What objects were made with

A number stands for one object as long as the host exists, and what the object was made with stays.
So it stays true of two objects that the one was made from the other.

* `Host.Since`: one host comes from another one, with `Leads.since`.
* `Leads.instance_induct`: what stays true of one instance.
* `Config.Chained`: objects are charged to the budget of what they hold, with `Change.chained`.
-/

variable {σ : Type}

/-! ### From one host to another -/

/-- What a runtime, a module, an instance, an environment or a runner was made with stays. -/
structure Host.Since (h h' : Host σ) : Prop where
  runtimes : h.runtimes.Since Counted.value h'.runtimes
  modules : h.modules.Since Counted.value h'.modules
  instances : h.instances.Since
    (fun c => (c.value.module, c.value.commons, c.value.stackSize)) h'.instances
  environments : h.environments.Since (fun e => (e.inst, e.commons, e.stackSize)) h'.environments
  blocks : h.blocks.Since id h'.blocks
  runners : h.runners.Since (fun r => (r.environment, r.inst, r.module, r.commons)) h'.runners

variable [Holder σ] [Rule σ] {allowed : Effect → Prop} {a b : Config σ}

/-- No change alters what objects are made with, and none hands out a number again. -/
theorem Change.since (step : Change allowed a b) : a.host.Since b.host where
  -- For each kind of objects, only few changes are about it: one makes it, some change it, one
  -- takes it away.
  runtimes := by
    cases step with
    | runtimeMade => exact (Pool.Since.refl _).insert _
    | runtimeHeld present =>
      refine (Pool.Since.refl _).modify fun c hc _ => ?_
      rw [Option.some.inj (present.symm.trans hc)]
    | runtimeGone => exact (Pool.Since.refl _).erase _
    | _ => exact .refl _
  modules := by
    cases step with
    | moduleMade => exact (Pool.Since.refl _).insert _
    | moduleHeld present =>
      refine (Pool.Since.refl _).modify fun c hc _ => ?_
      rw [Option.some.inj (present.symm.trans hc)]
    | moduleGone => exact (Pool.Since.refl _).erase _
    | _ => exact .refl _
  instances := by
    cases step with
    | instanceMade => exact (Pool.Since.refl _).insert _
    | instanceHeld present =>
      refine (Pool.Since.refl _).modify fun c hc _ => ?_
      rw [Option.some.inj (present.symm.trans hc)]
    | instanceGone => exact (Pool.Since.refl _).erase _
    | instanceFailed => exact (Pool.Since.refl _).erase _
    | evolve present step =>
      refine (Pool.Since.refl _).modify fun c hc _ => ?_
      obtain ⟨module, commons, stackSize⟩ := step.static
      rw [Option.some.inj (present.symm.trans hc)] at *
      simp only [module, commons, stackSize]
    | _ => exact .refl _
  environments := by
    cases step with
    | environmentMade => exact (Pool.Since.refl _).insert _
    | environmentGone => exact (Pool.Since.refl _).erase _
    | userData => exact (Pool.Since.refl _).modify fun _ _ _ => rfl
    | _ => exact .refl _
  blocks := by
    cases step with
    | blockMade => exact (Pool.Since.refl _).insert _
    | blockGone => exact (Pool.Since.refl _).erase _
    | _ => exact .refl _
  runners := by
    cases step with
    | runnerMade => exact (Pool.Since.refl _).insert _
    | runnerGone => exact (Pool.Since.refl _).erase _
    | recorded => exact (Pool.Since.refl _).modify fun _ _ _ => rfl
    | _ => exact .refl _

omit [Holder σ] [Rule σ] in
theorem Host.Since.refl (h : Host σ) : h.Since h :=
  ⟨.refl _, .refl _, .refl _, .refl _, .refl _, .refl _⟩

omit [Holder σ] [Rule σ] in
/-- What is later than later is later. -/
theorem Host.Since.trans {h h' h'' : Host σ} (s : h.Since h') (s' : h'.Since h'') : h.Since h'' :=
  ⟨s.runtimes.trans s'.runtimes, s.modules.trans s'.modules, s.instances.trans s'.instances,
    s.environments.trans s'.environments, s.blocks.trans s'.blocks, s.runners.trans s'.runners⟩

/-- So it is with whatever leads on, by induction on the changes. -/
theorem Leads.since (lead : Leads allowed a b) (ha : a.Sound) : a.host.Since b.host :=
  lead.induct (P := fun c => a.host.Since c.host) ha (fun _ _ _ step since => since.trans step.since)
    (.refl _)

/-- What is true of an instance stays true of it if whatever happens to it keeps it true. -/
theorem Leads.instance_induct {P : Custody → Prop} {id : Nat} {x y : Custody}
    (lead : Leads allowed a b) (ha : a.Sound)
    (blocks : ∀ x taken, P x → P { x with taken })
    (evolve : ∀ x paid y, x.Sound → Evolves allowed id x paid y → P x → P y)
    (before : a.custody? id = some x) (hx : P x) (after : b.custody? id = some y) : P y := by
  suffices all : id < b.host.instances.next ∧ ∀ y, b.custody? id = some y → P y from all.2 y after
  refine lead.induct (P := fun c => id < c.host.instances.next ∧
    ∀ y, c.custody? id = some y → P y) ha ?_ ?_
  · intro c d hc step ⟨old, ih⟩
    refine ⟨Nat.lt_of_lt_of_le old step.since.instances.next, fun y hy => ?_⟩
    -- Each change leaves the instance alone, does something to it, or makes one with another
    -- number.
    have fate := step.fate hc id
    rw [hy] at fate
    generalize hz : c.custody? id = z at fate
    cases fate with
    | same => exact ih y hz
    | @blocks z taken => exact blocks z taken (ih z hz)
    | made _ _ _ _ _ _ _ next => omega
    | @evolve z y paid step => exact evolve z paid y (hc.custody id z hz) step (ih z hz)
  · refine ⟨?_, fun y hy => ?_⟩
    · obtain ⟨c, hc, -⟩ := Option.map_eq_some_iff.1 before
      exact Pool.lt_next_of_get?_eq_some hc
    · cases before.symm.trans hy
      exact hx

/-! ### What objects were made from -/

/-- What is charged is charged to the budget of what it was made from, and a runner's environment
is its instance's. -/
structure Config.Chained (c : Config σ) : Prop where
  modules : ∀ id m, c.host.module? id = some m → m.runtime < c.host.runtimes.next ∧
    ∀ r, c.host.runtime? m.runtime = some r → m.commons = r.commons
  instances : ∀ id i, c.host.instance? id = some i → i.module < c.host.modules.next ∧
    ∀ m, c.host.module? i.module = some m → i.commons = m.commons
  environments : ∀ id e, c.host.environments.get? id = some e → e.inst < c.host.instances.next ∧
    ∀ i, c.host.instance? e.inst = some i → e.commons = i.commons
  runners : ∀ id r, c.host.runners.get? id = some r →
    r.environment < c.host.environments.next ∧
      ∀ e, c.host.environments.get? r.environment = some e → e.inst = r.inst

section

omit [Holder σ] [Rule σ]

variable {h h' : Host σ} {id : Nat}

/-- A runtime with an old number was there, and is the same. -/
theorem Host.Since.runtime? (since : h.Since h') {r : Runtime} (old : id < h.runtimes.next)
    (present : h'.runtime? id = some r) : h.runtime? id = some r := by
  obtain ⟨c, hc, rfl⟩ := Option.map_eq_some_iff.1 present
  obtain ⟨d, hd, eq⟩ := since.runtimes.old id c old hc
  rw [Host.runtime?, hd, Option.map_some, eq]

/-- So is a module. -/
theorem Host.Since.module? (since : h.Since h') {m : LoadedModule} (old : id < h.modules.next)
    (present : h'.module? id = some m) : h.module? id = some m := by
  obtain ⟨c, hc, rfl⟩ := Option.map_eq_some_iff.1 present
  obtain ⟨d, hd, eq⟩ := since.modules.old id c old hc
  rw [Host.module?, hd, Option.map_some, eq]

/-- So is an instance, in what it was made with. -/
theorem Host.Since.instance? (since : h.Since h') {i : Instance} (old : id < h.instances.next)
    (present : h'.instance? id = some i) : ∃ j, h.instance? id = some j ∧
      j.module = i.module ∧ j.commons = i.commons ∧ j.stackSize = i.stackSize := by
  obtain ⟨c, hc, rfl⟩ := Option.map_eq_some_iff.1 present
  obtain ⟨d, hd, eq⟩ := since.instances.old id c old hc
  simp only [Prod.mk.injEq] at eq
  exact ⟨d.value, by rw [Host.instance?, hd, Option.map_some], eq⟩

end

/-- Objects are charged as what they hold is: old ones because nothing of it changes, and a new one
because it was made so. -/
theorem Change.chained (step : Change allowed a b) (ha : a.Chained) : b.Chained where
  modules := by
    intro id m present
    have since := step.since
    -- What is old keeps what it was made from, which is older; what is new was made in this
    -- change.
    by_cases old : id < a.host.modules.next
    · obtain ⟨lt, chain⟩ := ha.modules id m (since.module? old present)
      exact ⟨Nat.lt_of_lt_of_le lt since.runtimes.next, fun r hr => chain r (since.runtime? lt hr)⟩
    · obtain ⟨c, hc, rfl⟩ := Option.map_eq_some_iff.1 present
      have lt := Pool.lt_next_of_get?_eq_some hc
      cases step with
      | @moduleMade h g m r runtime commons =>
        have e : id = h.modules.next := by
          simp only [Pool.next_insert] at *
          omega
        rw [e, Pool.get?_insert, if_pos rfl] at hc
        cases hc
        obtain ⟨c', hc', rfl⟩ := Option.map_eq_some_iff.1 runtime
        refine ⟨Pool.lt_next_of_get?_eq_some hc', fun r' hr' => ?_⟩
        rw [commons, Option.some.inj (runtime.symm.trans hr')]
      | moduleHeld => exact absurd (by simpa using lt) old
      | _ => exact absurd lt old
  instances := by
    intro id i present
    have since := step.since
    by_cases old : id < a.host.instances.next
    · obtain ⟨j, there, module, commons, -⟩ := since.instance? old present
      obtain ⟨lt, chain⟩ := ha.instances id j there
      rw [module, commons] at *
      exact ⟨Nat.lt_of_lt_of_le lt since.modules.next, fun m hm => chain m (since.module? lt hm)⟩
    · obtain ⟨c, hc, rfl⟩ := Option.map_eq_some_iff.1 present
      have lt := Pool.lt_next_of_get?_eq_some hc
      cases step with
      | @instanceMade h g i m r imported module runtime commons =>
        have e : id = h.instances.next := by
          simp only [Pool.next_insert] at *
          omega
        rw [e, Pool.get?_insert, if_pos rfl] at hc
        cases hc
        obtain ⟨c', hc', rfl⟩ := Option.map_eq_some_iff.1 module
        refine ⟨Pool.lt_next_of_get?_eq_some hc', fun m' hm' => ?_⟩
        rw [commons, Option.some.inj (module.symm.trans hm')]
      | instanceHeld => exact absurd (by simpa using lt) old
      | evolve => exact absurd (by simpa [Host.modifyInstance] using lt) old
      | _ => exact absurd lt old
  environments := by
    intro id e present
    have since := step.since
    by_cases old : id < a.host.environments.next
    · obtain ⟨d, there, eq⟩ := since.environments.old id e old present
      simp only [Prod.mk.injEq] at eq
      obtain ⟨lt, chain⟩ := ha.environments id d there
      rw [eq.1, eq.2.1] at *
      refine ⟨Nat.lt_of_lt_of_le lt since.instances.next, fun i hi => ?_⟩
      obtain ⟨j, hj, -, commons, -⟩ := since.instance? lt hi
      rw [← commons]
      exact chain j hj
    · have lt := Pool.lt_next_of_get?_eq_some present
      cases step with
      | @environmentMade h g e' i inst commons =>
        have eq : id = h.environments.next := by
          simp only [Pool.next_insert] at *
          omega
        rw [eq, Pool.get?_insert, if_pos rfl] at present
        cases present
        obtain ⟨c', hc', rfl⟩ := Option.map_eq_some_iff.1 inst
        refine ⟨Pool.lt_next_of_get?_eq_some hc', fun i' hi' => ?_⟩
        rw [commons, Option.some.inj (inst.symm.trans hi')]
      | userData => exact absurd (by simpa [Host.modifyEnvironment] using lt) old
      | _ => exact absurd lt old
  runners := by
    intro id r present
    have since := step.since
    by_cases old : id < a.host.runners.next
    · obtain ⟨d, there, eq⟩ := since.runners.old id r old present
      simp only [Prod.mk.injEq] at eq
      obtain ⟨lt, chain⟩ := ha.runners id d there
      rw [eq.1, eq.2.1] at *
      refine ⟨Nat.lt_of_lt_of_le lt since.environments.next, fun e he => ?_⟩
      obtain ⟨e', he', eq'⟩ := since.environments.old _ e lt he
      simp only [Prod.mk.injEq] at eq'
      rw [← eq'.1]
      exact chain e' he'
    · have lt := Pool.lt_next_of_get?_eq_some present
      cases step with
      | @runnerMade h g r' e environment inst =>
        have eq : id = h.runners.next := by
          simp only [Pool.next_insert] at *
          omega
        rw [eq, Pool.get?_insert, if_pos rfl] at present
        cases present
        refine ⟨Pool.lt_next_of_get?_eq_some environment, fun e' he' => ?_⟩
        rw [← inst, Option.some.inj (environment.symm.trans he')]
      | recorded => exact absurd (by simpa using lt) old
      | _ => exact absurd lt old

end Embedder
