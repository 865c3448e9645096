import Embedder.Proofs.Budget.Ledger
import Embedder.Proofs.Host.Lineage

namespace Embedder

open Session (Kind)

/-!
# Budgets are conserved

What is charged to a budget is what the objects that are charged to it amount to, together with what
operations in progress have charged so far.

* `Config.Balanced`: budgets and charges, with `Change.balanced`.
* `Custody.Metered`: an instance is charged for its memories as they are, with `Evolves.metered`.
-/

variable {σ : Type}

namespace Host

/-- The bytes that are charged to each budget; none where there is no budget. -/
def inUse (h : Host σ) : Charges :=
  fun id => ((h.commons? id).map fun c => c.budget.inUse).getD 0

/-- The bytes that there are in each budget. -/
def capacity (h : Host σ) : Charges :=
  fun id => ((h.commons? id).map fun c => c.budget.capacity).getD 0

variable (h : Host σ) (id : Nat)

/-- With other modules, as much is charged as they are charged for. -/
theorem charged_modules (p : Pool (Counted LoadedModule)) :
    ({ h with modules := p } : Host σ).charged id + (h.modules.total fun c => c.value.charge id) =
      h.charged id + p.total fun c => c.value.charge id := by
  simp only [charged]
  omega

/-- With other instances, as much is charged as they are charged for. -/
theorem charged_instances (p : Pool (Counted Instance)) :
    ({ h with instances := p } : Host σ).charged id +
      (h.instances.total fun c => c.value.charge id) =
      h.charged id + p.total fun c => c.value.charge id := by
  simp only [charged]
  omega

/-- With other environments, as much is charged as they are charged for. -/
theorem charged_environments (p : Pool Environment) :
    ({ h with environments := p } : Host σ).charged id +
      (h.environments.total fun e => e.charge id) =
      h.charged id + p.total fun e => e.charge id := by
  simp only [charged]
  omega

/-! ### One budget changed -/

variable {h id}

/-- A change of some commons is none of the others. -/
theorem commons?_modify (f : Commons → Commons) (j : Nat) :
    ({ h with commons := h.commons.modify id f } : Host σ).commons? j =
      if j = id then (h.commons? j).map f else h.commons? j :=
  Pool.get?_modify _ _ _ _

/-- A change that leaves the budget alone changes nothing that is in use. -/
theorem inUse_modify {f : Commons → Commons} (budget : ∀ c, (f c).budget = c.budget) :
    ({ h with commons := h.commons.modify id f } : Host σ).inUse = h.inUse := by
  funext j
  simp only [inUse, commons?_modify]
  split
  · rw [Option.map_map]
    simp only [Function.comp_def, budget]
  · rfl

/-- Nor does a change that leaves the capacity alone change capacities. -/
theorem capacity_modify {f : Commons → Commons}
    (budget : ∀ c, (f c).budget.capacity = c.budget.capacity) :
    ({ h with commons := h.commons.modify id f } : Host σ).capacity = h.capacity := by
  funext j
  simp only [capacity, commons?_modify]
  split
  · rw [Option.map_map]
    simp only [Function.comp_def, budget]
  · rfl

/-- A charge that is taken is in use. -/
theorem inUse_lease {n : Nat} {c : Commons} {budget : Budget} (present : h.commons? id = some c)
    (fits : c.budget.reserve? n = some budget) :
    (h.modifyBudget id fun _ => budget).inUse = h.inUse + .of id n := by
  funext j
  simp only [inUse, modifyBudget, commons?_modify, Pi.add_apply, Charges.of]
  split
  case isTrue e =>
    obtain ⟨-, rfl⟩ := Budget.reserve?_some_iff.1 fits
    rw [e, present]
    rfl
  case isFalse => rfl

/-- A charge that is given back is in use no more. -/
theorem inUse_giveBack (n j : Nat) :
    (h.giveBack id n).inUse j = h.inUse j - Charges.of id n j := by
  simp only [inUse, giveBack, modifyBudget, commons?_modify, Charges.of]
  split
  · cases h.commons? j with
    | none => simp
    | some c => rfl
  · rfl

@[simp] theorem charged_modifyBudget (f : Budget → Budget) :
    (h.modifyBudget id f).charged = h.charged := rfl

@[simp] theorem charged_giveBack (n : Nat) : (h.giveBack id n).charged = h.charged := rfl

/-- New commons with nothing charged make no difference to what is charged. -/
theorem inUse_insert {c : Commons} (empty : c.budget.inUse = 0) (p : Pool (Counted Runtime)) :
    ({ h with commons := (h.commons.insert c).1, runtimes := p } : Host σ).inUse = h.inUse := by
  funext j
  simp only [inUse, commons?, Pool.get?_insert]
  split
  case isTrue e => simp [e, Pool.get?_next, empty]
  case isFalse => rfl

end Host

/-! ### Budgets and charges -/

/-- Every budget is charged for what there is and for what is in hand, and for no more than it
has. -/
structure Config.Balanced (c : Config σ) : Prop where
  charged : ∀ id, c.host.inUse id = c.host.charged id + c.pending.debt id
  within : ∀ id, c.host.inUse id ≤ c.host.capacity id

variable {allowed : Effect → Prop} {a b : Config σ}

/-- What happens to an instance makes its charge larger by what is consumed. -/
theorem Evolves.charge {id paid : Nat} {x y : Custody} (step : Evolves allowed id x paid y) :
    y.record.charge = x.record.charge + .of x.record.commons paid := by
  unfold Instance.charge
  cases step with
  | grow => rw [← Charges.of_add]; simp only [Nat.add_assoc]
  | _ => simp only [Charges.of_zero, add_zero]

variable [Holder σ] [Rule σ]

/-- The budgets after a change are charged for what there is after it. -/
theorem Change.charged (step : Change allowed a b)
    (ha : ∀ id, a.host.inUse id = a.host.charged id + a.pending.debt id) (id : Nat) :
    b.host.inUse id = b.host.charged id + b.pending.debt id := by
  have before := ha id
  -- What a change adds to the charges of a pool is no longer owed, and what it takes from them is
  -- owed from then on.
  cases step with
  | commons budget => rw [Host.inUse_modify budget]; exact before
  | lease present fits =>
    rw [Host.inUse_lease present fits]
    simp only [Pending.owe, Pi.add_apply, Host.charged_modifyBudget] at *
    omega
  | @giveBack h g j n =>
    rw [Host.inUse_giveBack]
    simp only [Pending.owe, Pi.add_apply, Host.charged_giveBack] at *
    omega
  | runtimeMade empty => rw [Host.inUse_insert empty]; exact before
  | @moduleMade h g m =>
    have charged := h.charged_modules id (h.modules.insert ⟨m, 1⟩).1
    rw [Pool.total_insert] at charged
    simp only [Pending.pin, Pending.hold, Pending.owe, Pi.add_apply, Host.inUse,
      Host.commons?] at *
    omega
  | @instanceMade h g i m r imported =>
    have charged := h.charged_instances id (h.instances.insert ⟨i, 1⟩).1
    rw [Pool.total_insert] at charged
    simp only [Pending.lend, Pending.hold, Pending.owe, Pi.add_apply, Host.inUse,
      Host.commons?] at *
    omega
  | @environmentMade h g e =>
    have charged := h.charged_environments id (h.environments.insert e).1
    rw [Pool.total_insert] at charged
    simp only [Pending.pin, Pending.hold, Pending.owe, Pi.add_apply, Host.inUse,
      Host.commons?] at *
    omega
  | @moduleHeld h g j n c pins present =>
    have charged := h.charged_modules id (h.modules.modify j fun _ => ⟨c.value, n⟩)
    have total := Pool.total_modify present (fun _ => ⟨c.value, n⟩) fun c => c.value.charge id
    simp only [Host.inUse, Host.commons?] at *
    omega
  | @instanceHeld h g j n c pins present =>
    have charged := h.charged_instances id (h.instances.modify j fun _ => ⟨c.value, n⟩)
    have total := Pool.total_modify present (fun _ => ⟨c.value, n⟩) fun c => c.value.charge id
    simp only [Host.inUse, Host.commons?] at *
    omega
  | @moduleGone h g j c present =>
    have charged := h.charged_modules id (h.modules.erase j)
    have total := Pool.total_erase present fun c => c.value.charge id
    simp only [Pending.pin, Pending.hold, Pending.owe, Pi.add_apply, Host.inUse,
      Host.commons?] at *
    omega
  | @instanceGone h g j c present =>
    have charged := h.charged_instances id (h.instances.erase j)
    have total := Pool.total_erase present fun c => c.value.charge id
    simp only [Pending.pin, Pending.hold, Pending.owe, Pi.add_apply, Host.inUse,
      Host.commons?] at *
    omega
  | @instanceFailed h g j c loan present =>
    have charged := h.charged_instances id (h.instances.erase j)
    have total := Pool.total_erase present fun c => c.value.charge id
    simp only [Pending.hold, Pending.owe, Pi.add_apply, Host.inUse, Host.commons?] at *
    omega
  | @environmentGone h g j e present =>
    have charged := h.charged_environments id (h.environments.erase j)
    have total := Pool.total_erase present fun e => e.charge id
    simp only [Pending.pin, Pending.hold, Pending.owe, Pi.add_apply, Host.inUse,
      Host.commons?] at *
    omega
  | @userData h g j f _ =>
    have charged := h.charged_environments id
      (h.environments.modify j fun e => { e with userData := f e })
    rw [Pool.total_modify_of_eq] at charged
    · simp only [Host.inUse, Host.commons?, Host.modifyEnvironment] at *
      omega
    · intro e
      rfl
  | @evolve h g j paid c y pins present step =>
    have charged := h.charged_instances id (h.instances.modify j fun c => ⟨y.record, c.holders⟩)
    have total := Pool.total_modify present (fun c => ⟨y.record, c.holders⟩)
      fun c => c.value.charge id
    have charge := congrFun step.charge id
    simp only [Pi.add_apply] at charge
    simp only [Host.modifyInstance, Pending.owe, Pi.add_apply, Host.inUse, Host.commons?] at *
    omega
  | _ => exact before

/-- Every change keeps charges and budgets in balance. -/
theorem Change.balanced (step : Change allowed a b) (ha : a.Balanced) : b.Balanced where
  charged := step.charged ha.charged
  within := by
    intro id
    have before := ha.within id
    -- Only leases, returns and new runtimes change what is in use or the capacity.
    cases step with
    | commons budget =>
      rw [Host.inUse_modify budget, Host.capacity_modify fun c => by rw [budget c]]
      exact before
    | @lease h g j n c budget present fits =>
      obtain ⟨within, rfl⟩ := Budget.reserve?_some_iff.1 fits
      simp only [Host.inUse, Host.capacity, Host.modifyBudget, Host.commons?_modify]
      split
      case isTrue e => rw [e, present]; exact within
      case isFalse => exact before
    | @giveBack h g j n =>
      have same : (h.giveBack j n).capacity = h.capacity := Host.capacity_modify fun _ => rfl
      rw [Host.inUse_giveBack, same]
      exact Nat.le_trans (Nat.sub_le _ _) before
    | @runtimeMade h g c r empty =>
      rw [Host.inUse_insert empty]
      simp only [Host.capacity, Host.commons?, Pool.get?_insert]
      split
      case isTrue e => simp [Host.inUse, Host.commons?, e, Pool.get?_next]
      case isFalse => exact before
    | _ => exact before

/-! ### Charges for memories -/

/-- An instance is charged for its memories as they are, wherever its store is. -/
structure Custody.Metered (x : Custody) : Prop where
  idle : ∀ s, x.record.store = some s → x.record.limiter.charged.value = s.guest.memoryBytes
  held : ∀ loan, x.held = some loan →
    x.record.limiter.charged.value = loan.store.guest.memoryBytes

omit [Holder σ] [Rule σ] in
/-- What happens to an instance keeps its charge in step with its memory. -/
theorem Evolves.metered {id paid : Nat} {x y : Custody} (step : Evolves allowed id x paid y)
    (sound : x.Sound) (hx : x.Metered) : y.Metered := by
  cases step with
  | edit idle guest =>
    exact ⟨by simpa [guest.bytes] using hx.idle _ idle, by simp [sound.free idle]⟩
  | latch idle => exact ⟨by simpa using hx.idle _ idle, by simp [sound.free idle]⟩
  | alloc idle => exact ⟨by simpa using hx.idle _ idle, by simp [sound.free idle]⟩
  | free idle => exact ⟨by simpa using hx.idle _ idle, by simp [sound.free idle]⟩
  | enter idle => exact ⟨nofun, by simpa using hx.idle _ idle⟩
  | leave held => exact ⟨by simpa using hx.held _ held, nofun⟩
  | run held guest =>
    refine ⟨by simp [(sound.held _ held).1], by simpa [guest.bytes] using hx.held _ held⟩
  | @grow s commons memory _ ready m held present =>
    refine ⟨by simp [(sound.held _ held).1], fun loan eq => ?_⟩
    cases eq
    -- A memory that grows adds as many bytes as are charged.
    have metered : x.record.limiter.charged.value = s.guest.memoryBytes := hx.held _ held
    have grown := Wasm.Guest.memoryBytes_setMemory present (m.grow (m.size + paid))
    have size : (m.grow (m.size + paid)).size = m.size + paid := rfl
    show x.record.limiter.charged.value + paid =
      (s.guest.setMemory memory (m.grow (m.size + paid))).memoryBytes
    omega
  | manage held => exact ⟨by simp [(sound.held _ held).1], by simpa using hx.held _ held⟩
  | complete held => exact ⟨by simpa using hx.held _ held, nofun⟩

/-- **Memories.** Every instance is charged for its memories as they are. -/
theorem Change.metered (step : Change allowed a b) (sound : a.Sound)
    (ha : ∀ id x, a.custody? id = some x → x.Metered) :
    ∀ id x, b.custody? id = some x → x.Metered := by
  refine step.custody_induct sound (fun _ _ _ hx => ⟨hx.idle, hx.held⟩)
    (fun _ _ _ _ sound step hx => step.metered sound hx) ?_ ha
  intro id x made
  cases made with
  | made module runtime commons linked limiter store memory =>
    refine ⟨by simp [store], fun loan h => ?_⟩
    cases h
    rw [limiter]
    rfl

end Embedder
