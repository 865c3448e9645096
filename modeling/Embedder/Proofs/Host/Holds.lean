import Mathlib.Algebra.Group.Pi.Basic
import Embedder.Proofs.Table
import Embedder.Session.Basic

namespace Embedder

open Session (Kind Slots Step)

/-!
# Holds and charges

How many hold each object of a host, and how many bytes each budget is charged for. Both are sums
over the host's pools, which change by one object's share when a pool does.

* `Holds`, `Charges`: numbers of holders and of bytes, seen as functions.
* `LoadedModule.refs`, `LoadedModule.charge` and the like: the share of one object.
* `Host.holders`, `Host.inner`, `Host.charged`: what is counted, what is held from inside, and what
  is charged for.
* `Holder`, `Rule`: applications that hold objects of the host they embed, and what they may be.
-/

/-! ### Numbers of holders and of bytes -/

/-- How many hold each object, by its kind and number. -/
abbrev Holds := Kind → Nat → Nat

/-- How many bytes each budget is charged, by its number. -/
abbrev Charges := Nat → Nat

/-- So many holds on one object. -/
def Holds.on (kind : Kind) (id n : Nat) : Holds :=
  fun k i => if k = kind ∧ i = id then n else 0

/-- So many bytes of one budget. -/
def Charges.of (commons n : Nat) : Charges :=
  fun c => if c = commons then n else 0

/-- Charges to the same budget add up. -/
theorem Charges.of_add (commons m n : Nat) : of commons (m + n) = of commons m + of commons n := by
  funext c
  show of commons (m + n) c = of commons m c + of commons n c
  unfold of
  split <;> rfl

@[simp] theorem Charges.of_zero (commons : Nat) : of commons 0 = 0 := by
  funext c
  simp [of]

/-! ### The share of one object -/

/-- What a module holds. -/
def LoadedModule.refs (m : LoadedModule) : Holds := .on .runtime m.runtime 1

/-- What an instance holds. -/
def Instance.refs (i : Instance) : Holds := .on .module i.module 1

/-- What an environment holds. -/
def Environment.refs (e : Environment) : Holds := .on .inst e.inst 1

/-- What a block holds. -/
def Block.refs (b : Block) : Holds := .on .inst b.inst 1

/-- What a runner holds. -/
def Runner.refs (r : Runner) : Holds :=
  .on .environment r.environment 1 + .on .inst r.inst 1 + .on .module r.module 1

/-- What is charged for a module. -/
def LoadedModule.charge (m : LoadedModule) : Charges := .of m.commons m.bytecode.length

/-- What is charged for an instance: its stack and its memories. -/
def Instance.charge (i : Instance) : Charges :=
  .of i.commons (i.stackSize + i.limiter.charged.value)

/-- What is charged for an environment. -/
def Environment.charge (e : Environment) : Charges := .of e.commons e.stackSize

/-! ### Holders in a pool -/

namespace Pool

variable {α : Type}

/-- How many hold an object of a pool. -/
def count (p : Pool (Counted α)) (id : Nat) : Nat :=
  ((p.get? id).map Counted.holders).getD 0

/-- How many hold an object that has one owner: one, if it is there. -/
def owned (p : Pool α) (id : Nat) : Nat :=
  if (p.get? id).isSome then 1 else 0

/-- The holders of what is there are those that it counts. -/
theorem count_of_get? {p : Pool (Counted α)} {id : Nat} {c : Counted α} (h : p.get? id = some c) :
    p.count id = c.holders := by
  rw [count, h]
  rfl

/-- A new object has its own holders. -/
theorem count_insert (p : Pool (Counted α)) (c : Counted α) (id : Nat) :
    (p.insert c).1.count id = p.count id + if id = p.next then c.holders else 0 := by
  unfold count
  rw [get?_insert]
  split
  case isTrue h => rw [h, get?_next]; simp
  case isFalse => rfl

/-- An object that goes takes its holders along. -/
theorem count_erase {p : Pool (Counted α)} {j : Nat} {c : Counted α} (h : p.get? j = some c)
    (id : Nat) : (p.erase j).count id + (if id = j then c.holders else 0) = p.count id := by
  unfold count
  rw [get?_erase]
  split
  case isTrue e => rw [e, h]; simp
  case isFalse => rfl

/-- A change of an object trades its holders. -/
theorem count_modify {p : Pool (Counted α)} {j : Nat} {c : Counted α} (h : p.get? j = some c)
    (f : Counted α → Counted α) (id : Nat) :
    (p.modify j f).count id + (if id = j then c.holders else 0) =
      p.count id + if id = j then (f c).holders else 0 := by
  unfold count
  rw [get?_modify]
  split
  case isTrue e => rw [e, h]; simp [Nat.add_comm]
  case isFalse => rfl

/-- A new object has one owner. -/
theorem owned_insert (p : Pool α) (a : α) (id : Nat) :
    (p.insert a).1.owned id = p.owned id + if id = p.next then 1 else 0 := by
  unfold owned
  rw [get?_insert]
  split
  case isTrue h => rw [h, get?_next]; simp
  case isFalse => rfl

/-- An object that goes had one owner. -/
theorem owned_erase {p : Pool α} {j : Nat} {a : α} (h : p.get? j = some a) (id : Nat) :
    (p.erase j).owned id + (if id = j then 1 else 0) = p.owned id := by
  unfold owned
  rw [get?_erase]
  split
  case isTrue e => rw [e, h]; simp
  case isFalse => rfl

@[simp] theorem owned_modify (p : Pool α) (j : Nat) (f : α → α) (id : Nat) :
    (p.modify j f).owned id = p.owned id := by
  unfold owned
  rw [get?_modify]
  split <;> simp

end Pool

/-! ### What a host counts -/

namespace Host

variable {σ : Type}

/-- What a change does to an instance that is known. -/
theorem modifyInstance_congr {h : Host σ} {id : Nat} {i : Counted Instance}
    (present : h.instances.get? id = some i) {f : Instance → Instance} (f' : Instance → Instance)
    (same : f i.value = f' i.value) : h.modifyInstance id f = h.modifyInstance id f' := by
  rw [modifyInstance, modifyInstance,
    Pool.modify_congr present (g := fun c => { c with value := f' c.value }) (by simp only [same])]

/-- A change of one instance is none of the others. -/
theorem instance?_modifyInstance (h : Host σ) (id : Nat) (f : Instance → Instance) (j : Nat) :
    (h.modifyInstance id f).instance? j =
      if j = id then (h.instance? j).map f else h.instance? j := by
  simp only [instance?, modifyInstance, Pool.get?_modify]
  split
  · rw [Option.map_map, Option.map_map]
    rfl
  · rfl

/-- How many hold each object, as the host has it. The commons are not counted. -/
def holders (h : Host σ) : Holds
  | .runtime, id => h.runtimes.count id
  | .commons, _ => 0
  | .module, id => h.modules.count id
  | .inst, id => h.instances.count id
  | .environment, id => h.environments.owned id
  | .block, id => h.blocks.owned id
  | .runner, id => h.runners.owned id

/-- How many objects of the host hold each object. -/
def inner (h : Host σ) : Holds := fun k id =>
  (h.modules.total fun c => c.value.refs k id) + (h.instances.total fun c => c.value.refs k id) +
    (h.environments.total fun e => e.refs k id) + (h.blocks.total fun b => b.refs k id) +
    h.runners.total fun r => r.refs k id

/-- What all objects of the host are charged for. -/
def charged (h : Host σ) : Charges := fun commons =>
  (h.modules.total fun c => c.value.charge commons) +
    (h.instances.total fun c => c.value.charge commons) +
    h.environments.total fun e => e.charge commons

end Host

/-! ### Applications -/

/-- An application that may hold objects of the host that it embeds. -/
class Holder (σ : Type) where
  holds : σ → Holds

/-- An application that holds nothing. -/
instance : Holder Unit := ⟨fun _ => 0⟩

/-- A session holds what it has names for. -/
instance : Holder Slots :=
  ⟨fun a k id => a.names.tally fun e => if e.1.kind = k ∧ e.2 = id then 1 else 0⟩

/-- Which states an application may be in, once its host has had so many instances. -/
class Rule (σ : Type) where
  admits : Nat → σ → Prop
  mono : ∀ {n m : Nat} {a : σ}, admits n a → n ≤ m → admits m a

/-- Which hooks a session may have, once it has had so many instances. -/
class HookRule where
  since : Nat
  admits : List Step → Prop

/-- Any hooks, from the beginning. -/
abbrev HookRule.any : HookRule := ⟨0, fun _ => True⟩

/-- A session may be in a state whose hooks it may have. -/
instance slotsRule [HookRule] : Rule Slots where
  admits n a := HookRule.since ≤ n ∧
    ∀ commons hook, a.hooks.get? commons = some hook → HookRule.admits hook
  mono := fun ⟨since, hooks⟩ le => ⟨Nat.le_trans since le, hooks⟩

end Embedder
