import Embedder.Proofs.Host.Linking

namespace Embedder

/-!
# Exported globals

A guest of a complete instance has all globals that its module declares, whatever has run meanwhile,
and each of them holds a value of the type that is declared for it.

* `Custody.Stocked`, `Change.stocked`: instances that are complete keep their globals.
* `Config.Modelled`, `Change.modelled`: guests are guests of the modules that were loaded.
* `Config.Cellular`, `Leads.cellular`: both of them, and what they rest on.
-/

variable {allowed : Effect → Prop} {σ : Type}

/-! ### Complete instances -/

/-- Once the instance is complete, its guest has the globals of its module. -/
def Custody.Stocked (x : Custody) : Prop :=
  ∀ s, x.store? = some s → (∀ loan, x.held = some loan → loan.ready = true) →
    s.guest.module.isValid = true → s.guest.Stocked

theorem Evolves.stocked {id paid : Nat} {x y : Custody} (step : Evolves allowed id x paid y)
    (sound : x.Sound) (hx : x.Stocked) : y.Stocked := by
  intro s' there ready valid
  have in_hand : ∀ {loan : Loan}, x.held = some loan → loan.ready = true →
      loan.store.guest.module.isValid = true → loan.store.guest.Stocked := by
    intro loan held complete valid
    refine hx _ (Custody.store?_held held) (fun loan' held' => ?_) valid
    cases held.symm.trans held'
    exact complete
  have at_rest : ∀ {s : Store}, x.record.store = some s → s.guest.module.isValid = true →
      s.guest.Stocked := by
    intro s idle valid
    have free := sound.free idle
    refine hx s (Custody.store?_idle free idle) (fun loan held => ?_) valid
    cases free.symm.trans held
  -- A store that is at rest stays so, unless a call enters.
  have rests : ∀ {s s₁ : Store} {taken}, x.record.store = some s →
      Custody.store? ⟨{ x.record with store := some s₁ }, x.held, taken⟩ = some s' → s₁ = s' := by
    intro s s₁ taken idle there
    have here := Custody.store?_idle (x := ⟨{ x.record with store := some s₁ }, x.held, taken⟩)
      (sound.free idle) rfl
    exact Option.some.inj (here.symm.trans there)
  cases step with
  | edit idle guest =>
    cases rests idle there
    exact guest.stocked (at_rest idle (guest.module ▸ valid))
  | latch idle =>
    cases rests idle there
    have before := at_rest idle
    exact before valid
  | alloc idle =>
    cases rests idle there
    have before := at_rest idle
    exact before valid
  | free idle =>
    cases rests idle there
    have before := at_rest idle
    exact before valid
  | enter idle =>
    cases there
    have before := at_rest idle
    exact before valid
  | leave held =>
    cases there
    have before := in_hand held rfl
    exact before valid
  | run held guest =>
    cases there
    have complete := ready _ rfl
    have before := in_hand held complete
    exact guest.stocked (before (guest.module ▸ valid))
  | grow held present whole limit =>
    cases there
    have complete := ready _ rfl
    have before := in_hand held complete
    exact (before valid).setMemory (Wasm.Memory.size_grow_le limit)
  | manage => cases ready ⟨_, _, _⟩ rfl
  | complete _ _ stocked =>
    cases there
    exact stocked valid

variable [Holder σ] [Rule σ] {a b : Config σ}

/-- **Globals.** Whatever happens to a host, the guests of complete instances have their globals. -/
theorem Change.stocked (step : Change allowed a b) (sound : a.Sound)
    (ha : ∀ id x, a.custody? id = some x → x.Stocked) :
    ∀ id x, b.custody? id = some x → x.Stocked := by
  refine step.custody_induct sound (fun _ _ _ hx => hx)
    (fun _ _ _ _ sound step hx => step.stocked sound hx) ?_ ha
  intro id x made
  cases made with
  | made =>
    intro s _ ready
    cases ready _ rfl

/-! ### Loaded modules -/

/-- The modules that were loaded are well formed, and guests are guests of them. -/
structure Config.Modelled (c : Config σ) : Prop where
  valid : ∀ id m, c.host.module? id = some m → m.wasm.isValid = true
  module : ∀ id x m s, c.custody? id = some x → c.host.module? x.record.module = some m →
    x.store? = some s → s.guest.module = m.wasm

/-- A module that is loaded is well formed. -/
theorem Change.valid (step : Change allowed a b)
    (ha : ∀ id m, a.host.module? id = some m → m.wasm.isValid = true) {id : Nat} {m : LoadedModule}
    (there : b.host.module? id = some m) : m.wasm.isValid = true := by
  by_cases old : id < a.host.modules.next
  · exact ha id m (step.since.module? old there)
  · obtain ⟨c, hc, rfl⟩ := Option.map_eq_some_iff.1 there
    have lt := Pool.lt_next_of_get?_eq_some hc
    cases step with
    | @moduleMade h g m r runtime commons valid =>
      have e : id = h.modules.next := by
        simp only [Pool.next_insert] at *
        omega
      rw [e, Pool.get?_insert, if_pos rfl] at hc
      cases hc
      exact valid
    | moduleHeld => exact absurd (by simpa using lt) old
    | _ => exact absurd lt old

/-- **Modules.** Whatever happens to a host, guests stay guests of the modules that were loaded. -/
theorem Change.modelled (step : Change allowed a b) (sound : a.Sound) (chained : a.Chained)
    (ha : a.Modelled) : b.Modelled where
  valid _ _ there := step.valid ha.valid there
  module := by
    intro id y m s' after module there
    rcases step.program sound after there with ⟨x, s, before, same, first, program⟩ | fate
    · -- The module of an instance that was there before was there, too.
      obtain ⟨c, present, rfl⟩ := Option.map_eq_some_iff.1 before
      have present : a.host.instance? id = some c.value := by simp [Host.instance?, present]
      have lt := (chained.instances id _ present).1
      dsimp only at same
      rw [← same] at module
      exact program.module.trans (ha.module id _ m s before (step.since.module? lt module) first)
    · cases fate with
      | made module' =>
        obtain ⟨c, present, -⟩ := Option.map_eq_some_iff.1 module'
        cases module'.symm.trans (step.since.module? (Pool.lt_next_of_get?_eq_some present) module)
        cases there
        rfl

/-- A host whose guests have the globals that their modules declare, and everything in it is as it was
made. -/
structure Config.Cellular (c : Config σ) : Prop where
  sound : c.Sound
  chained : c.Chained
  modelled : c.Modelled
  stocked : ∀ id x, c.custody? id = some x → x.Stocked

/-- Whatever happens to a host, its guests keep their globals. -/
theorem Leads.cellular (lead : Leads allowed a b) (ha : a.Cellular) : b.Cellular := by
  have all := lead.induct
    (P := fun c => c.Chained ∧ c.Modelled ∧ ∀ id x, c.custody? id = some x → x.Stocked) ha.sound
    (fun _ _ sound step ⟨chained, modelled, stocked⟩ =>
      ⟨step.chained chained, step.modelled sound chained modelled, step.stocked sound stocked⟩)
    ⟨ha.chained, ha.modelled, ha.stocked⟩
  exact ⟨lead.sound ha.sound, all.1, all.2.1, all.2.2⟩

/-- An instance at rest has the globals that its module declares. -/
theorem Config.Cellular.stocked_of_idle {h : Host σ} {g : Pending}
    (cellular : Config.Cellular ⟨h, g⟩) {id : Nat} {i : Instance} {m : LoadedModule} {s : Store}
    (present : h.instance? id = some i) (loaded : h.module? i.module = some m)
    (idle : i.store = some s) : s.guest.module = m.wasm ∧ m.wasm.isValid = true ∧ s.guest.Stocked := by
  obtain ⟨c, hc, rfl⟩ := Option.map_eq_some_iff.1 present
  have custody := Config.custody?_of_get? (c := ⟨h, g⟩) hc
  have free := (cellular.sound.custody id _ custody).free idle
  have store := Custody.store?_idle free idle
  have module := cellular.modelled.module id _ m s custody loaded store
  have valid := cellular.modelled.valid _ m loaded
  refine ⟨module, valid, cellular.stocked id _ custody s store (fun loan held => ?_) (module ▸ valid)⟩
  cases free.symm.trans held

end Embedder
