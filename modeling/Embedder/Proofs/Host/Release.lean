import Embedder.Host.Ownership
import Embedder.Proofs.Table

namespace Embedder

/-!
# What giving up a hold leaves alone

An object that goes with its last holder takes its charge and its own hold along, and nothing else:
environments, blocks and runners stay, and so do all instances but the one that goes.

* `Host.Undisturbed`: what giving up a hold on a runtime, a module or an instance leaves as it was.
* `undisturbed_releaseInstance`, `instances_releaseInstance_of_ne`: the holds that instances are
  concerned with.
* `app_dropEnvironment`, `app_dropBlock`, `app_dropRunner`: the end of what has one owner is nothing
  to the application.
-/

variable {σ : Type}

/-- A holder that lets go takes nothing of the value along. -/
theorem Counted.value_release? {α : Type} {c c' : Counted α} (left : c.release? = some c') :
    c'.value = c.value := by
  unfold release? at left
  split at left <;> cases left
  rfl

namespace Host

/-- One host is like another one, but for runtimes, modules, instances and what budgets are charged
with. -/
structure Undisturbed (h h' : Host σ) : Prop where
  environments : h'.environments = h.environments
  blocks : h'.blocks = h.blocks
  runners : h'.runners = h.runners
  released : h'.released = h.released
  app : h'.app = h.app
  commons : ∀ id, (h'.commons? id).map (fun c => (c.output, c.clock)) =
    (h.commons? id).map fun c => (c.output, c.clock)

theorem Undisturbed.refl (h : Host σ) : h.Undisturbed h :=
  ⟨rfl, rfl, rfl, rfl, rfl, fun _ => rfl⟩

/-- What disturbs nothing at every step disturbs nothing in all. -/
theorem Undisturbed.trans {h h' h'' : Host σ} (first : h.Undisturbed h')
    (second : h'.Undisturbed h'') : h.Undisturbed h'' where
  environments := second.environments.trans first.environments
  blocks := second.blocks.trans first.blocks
  runners := second.runners.trans first.runners
  released := second.released.trans first.released
  app := second.app.trans first.app
  commons id := (second.commons id).trans (first.commons id)

variable (h : Host σ)

/-- Bytes that go back to a budget disturb nothing. -/
theorem undisturbed_giveBack (commons bytes : Nat) :
    h.Undisturbed (h.giveBack commons bytes) := by
  refine ⟨rfl, rfl, rfl, rfl, rfl, fun id => ?_⟩
  simp only [giveBack, modifyBudget, commons?, Pool.get?_modify]
  split
  · rw [Option.map_map]
    rfl
  · rfl

/-- A runtime that goes away takes nothing along. -/
theorem undisturbed_releaseRuntime (id : Nat) : h.Undisturbed (h.releaseRuntime id) := by
  unfold releaseRuntime
  split
  · exact .refl h
  · split <;> exact ⟨rfl, rfl, rfl, rfl, rfl, fun _ => rfl⟩

/-- A module that goes away takes its charge along, and its hold on its runtime. -/
theorem undisturbed_releaseModule (id : Nat) : h.Undisturbed (h.releaseModule id) := by
  unfold releaseModule
  split
  · exact .refl h
  case h_2 c _ =>
    split
    · exact ⟨rfl, rfl, rfl, rfl, rfl, fun _ => rfl⟩
    · have erased : h.Undisturbed { h with modules := h.modules.erase id } :=
        ⟨rfl, rfl, rfl, rfl, rfl, fun _ => rfl⟩
      exact (erased.trans (undisturbed_giveBack _ _ _)).trans (undisturbed_releaseRuntime _ _)

/-- An instance that goes away takes its charges along, and its hold on its module. -/
theorem undisturbed_releaseInstance (id : Nat) : h.Undisturbed (h.releaseInstance id) := by
  unfold releaseInstance
  split
  · exact .refl h
  case h_2 c _ =>
    split
    · exact ⟨rfl, rfl, rfl, rfl, rfl, fun _ => rfl⟩
    · have erased : h.Undisturbed { h with instances := h.instances.erase id } :=
        ⟨rfl, rfl, rfl, rfl, rfl, fun _ => rfl⟩
      exact ((erased.trans (undisturbed_giveBack _ _ _)).trans (undisturbed_giveBack _ _ _)).trans
        (undisturbed_releaseModule _ _)

/-! ### What is left of objects -/

/-- Modules hold runtimes, and not the other way round. -/
theorem modules_releaseRuntime (id : Nat) : (h.releaseRuntime id).modules = h.modules := by
  unfold releaseRuntime
  split
  · rfl
  · split <;> rfl

/-- A runtime has one holder less, or else it is gone. -/
theorem get?_releaseRuntime (id : Nat) :
    (h.releaseRuntime id).runtimes.get? id = (h.runtimes.get? id).bind Counted.release? := by
  unfold releaseRuntime
  cases there : h.runtimes.get? id with
  | none => exact there
  | some c =>
    dsimp only [Option.bind_some]
    cases c.release? with
    | none => exact (Pool.get?_erase _ _ _).trans (if_pos rfl)
    | some c' => exact (Pool.get?_modify _ _ _ _).trans (by rw [if_pos rfl, there, Option.map_some])

/-- A module has one holder less, or else it is gone. -/
theorem get?_releaseModule (id : Nat) :
    (h.releaseModule id).modules.get? id = (h.modules.get? id).bind Counted.release? := by
  unfold releaseModule
  cases there : h.modules.get? id with
  | none => exact there
  | some c =>
    dsimp only [Option.bind_some]
    cases c.release? with
    | none =>
      dsimp only
      rw [modules_releaseRuntime]
      exact (Pool.get?_erase _ _ _).trans (if_pos rfl)
    | some c' => exact (Pool.get?_modify _ _ _ _).trans (by rw [if_pos rfl, there, Option.map_some])

/-- Nor do runtimes hold instances. -/
theorem instances_releaseRuntime (id : Nat) : (h.releaseRuntime id).instances = h.instances := by
  unfold releaseRuntime
  split
  · rfl
  · split <;> rfl

/-- Nor do modules. -/
theorem instances_releaseModule (id : Nat) : (h.releaseModule id).instances = h.instances := by
  unfold releaseModule
  split
  · rfl
  · split
    · rfl
    · exact instances_releaseRuntime _ _

/-- Giving up a hold on an instance is nothing to the other ones. -/
theorem instances_releaseInstance_of_ne {id j : Nat} (other : j ≠ id) :
    (h.releaseInstance id).instances.get? j = h.instances.get? j := by
  unfold releaseInstance
  split
  · rfl
  · split
    · rw [Pool.get?_modify, if_neg other]
    · rw [instances_releaseModule]
      show (h.instances.erase id).get? j = _
      rw [Pool.get?_erase, if_neg other]

/-- An instance has one holder less, or else it is gone. -/
theorem get?_releaseInstance (id : Nat) :
    (h.releaseInstance id).instances.get? id = (h.instances.get? id).bind Counted.release? := by
  unfold releaseInstance
  cases there : h.instances.get? id with
  | none => exact there
  | some c =>
    dsimp only [Option.bind_some]
    cases c.release? with
    | none =>
      dsimp only
      rw [instances_releaseModule]
      exact (Pool.get?_erase _ _ _).trans (if_pos rfl)
    | some c' => exact (Pool.get?_modify _ _ _ _).trans (by rw [if_pos rfl, there, Option.map_some])

/-- A hold on an instance that has other holders is given up, and that is all. -/
theorem releaseInstance_of_shared {id : Nat} {c : Counted Instance}
    (present : h.instances.get? id = some c) (shared : 1 < c.holders) :
    h.releaseInstance id =
      { h with instances := h.instances.modify id fun c => { c with holders := c.holders - 1 } } := by
  unfold releaseInstance
  rw [present]
  simp only [Counted.release?, if_neg (Nat.not_le.2 shared)]
  rw [Pool.modify_congr present (g := fun c => { c with holders := c.holders - 1 }) rfl]

/-! ### Objects with one owner -/

/-- A block that goes back to the app heap is nothing to the application. -/
theorem app_freeBlock (id address : Nat) : (h.freeBlock id address).app = h.app := by
  unfold freeBlock
  split
  · rfl
  · split <;> rfl

/-- Values are released by the host, and the application does not notice. -/
theorem app_releaseValues (b : Block) : (h.releaseValues b).app = h.app := by
  unfold releaseValues
  split
  · rfl
  · split <;> rfl

/-- Nor does it notice that an environment is dropped. -/
theorem app_dropEnvironment (id : Nat) : (h.dropEnvironment id).app = h.app := by
  unfold dropEnvironment
  split
  · rfl
  · exact (undisturbed_releaseInstance _ _).app

/-- Blocks hold instances, and environments hold no blocks. -/
theorem blocks_dropEnvironment (id : Nat) : (h.dropEnvironment id).blocks = h.blocks := by
  unfold dropEnvironment
  split
  · rfl
  · exact (undisturbed_releaseInstance _ _).blocks

/-- Nor that a block is. -/
theorem app_dropBlock (id : Nat) : (h.dropBlock id).app = h.app := by
  unfold dropBlock
  split
  · rfl
  · dsimp only
    rw [(undisturbed_releaseInstance _ _).app]
    split <;> split <;> simp only [app_freeBlock, app_releaseValues]

/-- Nor that a runner is. -/
theorem app_dropRunner (id : Nat) : (h.dropRunner id).app = h.app := by
  unfold dropRunner
  split
  · rfl
  · dsimp only
    rw [(undisturbed_releaseModule _ _).app, (undisturbed_releaseInstance _ _).app,
      app_dropEnvironment]

end Host

end Embedder
