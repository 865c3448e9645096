import Mathlib.Data.Set.Insert
import Embedder.Proofs.Host.Loan
import Embedder.Proofs.Host.Local

namespace Embedder

open Session (Kind)

/-!
# What an operation is confined to

An operation changes some instances and some of what numbers stand for, and it may charge budgets,
print, and read clocks. Everything else it leaves alone.

* `Thing`, `Host.object?`: what numbers stand for.
* `Host.tells?`: what a clock says, however often it was read before.
* `Host.Confined`: all that happens happens to some instances and some objects.
* `confined_releaseInstance`, `confined_dropBlock`, `confined_call`: what operations are confined to.
-/

variable {σ α : Type}

/-! ### What numbers stand for -/

/-- What a session's name can stand for, as far as the guest of one instance is concerned. -/
inductive Thing where
  | inst (id : Nat)
  | environment (e : Environment)
  | block (b : Block)

/-- The instance that something is, or belongs to. -/
def Thing.home : Thing → Nat
  | .inst id => id
  | .environment e => e.inst
  | .block b => b.inst

namespace Host

/-- What a number stands for. An instance is known by its number. -/
def object? (h : Host σ) : Kind → Nat → Option Thing
  | .inst, id => some (.inst id)
  | .environment, id => (h.environments.get? id).map .environment
  | .block, id => (h.blocks.get? id).map .block
  | _, _ => none

/-- What a clock says when it is read, once it has been read so many times. -/
def tells? (h : Host σ) (commons : Nat) : Option (Nat → Reading) :=
  (h.commons.get? commons).map fun c n => (c.clock.readings[n]?).getD c.clock.afterwards

/-- All that happens from one host to another one happens to some instances and some objects, short
of what is charged, printed and read of clocks, and to runtimes, modules and runners. -/
structure Confined (insts : Set Nat) (objects : Set (Kind × Nat)) (h k : Host σ) : Prop where
  instances : ∀ j, j ∉ insts → k.instances.get? j = h.instances.get? j
  objects : ∀ kind j, (kind, j) ∉ objects → k.object? kind j = h.object? kind j
  tells : ∀ j, k.tells? j = h.tells? j
  app : k.app = h.app

namespace Confined

variable {insts insts' : Set Nat} {objects objects' : Set (Kind × Nat)} {h k l : Host σ}

/-- To do nothing is confined to nothing. -/
theorem refl (h : Host σ) : Confined insts objects h h :=
  ⟨fun _ _ => rfl, fun _ _ _ => rfl, fun _ => rfl, rfl⟩

/-- What is confined at every step is so in all. -/
theorem trans (first : Confined insts objects h k) (second : Confined insts objects k l) :
    Confined insts objects h l where
  instances j out := (second.instances j out).trans (first.instances j out)
  objects kind j out := (second.objects kind j out).trans (first.objects kind j out)
  tells j := (second.tells j).trans (first.tells j)
  app := second.app.trans first.app

/-- What is confined to some instances and objects is so to more of them. -/
theorem mono (confined : Confined insts objects h k) (fewer : insts ⊆ insts')
    (less : objects ⊆ objects') : Confined insts' objects' h k :=
  ⟨fun j out => confined.instances j fun member => out (fewer member),
    fun kind j out => confined.objects kind j fun member => out (less member), confined.tells,
    confined.app⟩

/-- Blocks that are none of the objects are there as before. -/
theorem get?_blocks (confined : Confined insts objects h k) {j : Nat} (out : (.block, j) ∉ objects) :
    k.blocks.get? j = h.blocks.get? j :=
  Option.map_injective (fun _ _ => Thing.block.inj) (confined.objects .block j out)

end Confined

/-! ### Single changes -/

variable (h : Host σ)

/-- A change of commons that leaves the readings alone does not change what clocks say. -/
theorem tells?_modify (commons : Nat) {f : Commons → Commons}
    (same : ∀ c, (f c).clock.readings = c.clock.readings ∧
      (f c).clock.afterwards = c.clock.afterwards) (j : Nat) :
    ({ h with commons := h.commons.modify commons f } : Host σ).tells? j = h.tells? j := by
  unfold tells?
  rw [Pool.get?_modify]
  split
  · rw [Option.map_map]
    refine congrArg (Option.map · _) (funext fun c => funext fun n => ?_)
    obtain ⟨readings, afterwards⟩ := same c
    simp only [Function.comp_apply, readings, afterwards]
  · rfl

/-- Such a change is confined to nothing. -/
theorem confined_commons (commons : Nat) {f : Commons → Commons}
    (same : ∀ c, (f c).clock.readings = c.clock.readings ∧
      (f c).clock.afterwards = c.clock.afterwards) :
    Confined ∅ ∅ h { h with commons := h.commons.modify commons f } :=
  ⟨fun _ _ => rfl, fun kind _ _ => by cases kind <;> rfl, h.tells?_modify commons same, rfl⟩

/-- What is printed is no instance and no object. -/
theorem confined_emit (commons : Nat) (bytes : Bytes) :
    Confined ∅ ∅ h (h.emit commons bytes) :=
  h.confined_commons commons fun _ => ⟨rfl, rfl⟩

/-- A change of a budget is confined to nothing. -/
theorem confined_modifyBudget (commons : Nat) (f : Budget → Budget) :
    Confined ∅ ∅ h (h.modifyBudget commons f) :=
  h.confined_commons commons fun _ => ⟨rfl, rfl⟩

/-- A reading is taken, but what the clock says to each reading stays the same. -/
theorem confined_readClock (commons : Nat) : Confined ∅ ∅ h (h.readClock commons).2 := by
  unfold readClock
  cases there : h.commons.get? commons with
  | none => exact .refl h
  | some c =>
    refine ⟨fun _ _ => rfl, fun kind _ _ => by cases kind <;> rfl, fun j => ?_, rfl⟩
    show tells? { h with commons := h.commons.modify commons _ } j = _
    unfold tells?
    rw [Pool.get?_modify]
    split
    case isTrue own => rw [own, there]; rfl
    case isFalse => rfl

/-- A change of one instance is confined to it. -/
theorem confined_instances {id : Nat} {p : Pool (Counted Instance)}
    (others : ∀ j, j ≠ id → p.get? j = h.instances.get? j) :
    Confined {id} ∅ h { h with instances := p } :=
  ⟨others, fun kind _ _ => by cases kind <;> rfl, fun _ => rfl, rfl⟩

/-- So is a change of its store or of its fault. -/
theorem confined_modifyInstance (id : Nat) (f : Instance → Instance) :
    Confined {id} ∅ h (h.modifyInstance id f) :=
  h.confined_instances fun j other => by rw [Pool.get?_modify, if_neg other]

/-- So is one more holder of it. -/
theorem confined_retainInstance (id : Nat) : Confined {id} ∅ h (h.retainInstance id) :=
  h.confined_instances fun j other => by rw [Pool.get?_modify, if_neg other]

/-- A change of one environment is confined to it. -/
theorem confined_environments {id : Nat} {p : Pool Environment}
    (others : ∀ j, j ≠ id → p.get? j = h.environments.get? j) :
    Confined ∅ {(.environment, id)} h { h with environments := p } := by
  refine ⟨fun _ _ => rfl, fun kind j out => ?_, fun _ => rfl, rfl⟩
  cases kind with
  | environment =>
    exact congrArg (Option.map Thing.environment) (others j fun same => out (by rw [same]; rfl))
  | _ => rfl

/-- So is a change of its user data. -/
theorem confined_modifyEnvironment (id : Nat) (f : Environment → Environment) :
    Confined ∅ {(.environment, id)} h (h.modifyEnvironment id f) :=
  h.confined_environments fun j other => by rw [Pool.get?_modify, if_neg other]

/-- A change of one block is confined to it. -/
theorem confined_blocks {id : Nat} {p : Pool Block}
    (others : ∀ j, j ≠ id → p.get? j = h.blocks.get? j) :
    Confined ∅ {(.block, id)} h { h with blocks := p } := by
  refine ⟨fun _ _ => rfl, fun kind j out => ?_, fun _ => rfl, rfl⟩
  cases kind with
  | block => exact congrArg (Option.map Thing.block) (others j fun same => out (by rw [same]; rfl))
  | _ => rfl

/-! ### Holds given up -/

/-- Where instances are the only objects that change, changes are confined to them. -/
theorem Undisturbed.confined {h k : Host σ} {insts : Set Nat} (like : h.Undisturbed k)
    (instances : ∀ j, j ∉ insts → k.instances.get? j = h.instances.get? j) :
    Confined insts ∅ h k := by
  refine ⟨instances, fun kind j _ => ?_, fun j => ?_, like.app⟩
  · cases kind <;> simp only [object?, like.environments, like.blocks]
  · have same := congrArg (Option.map fun (p : Output × Clock) (n : Nat) =>
      (p.2.readings[n]?).getD p.2.afterwards) (like.commons j)
    rw [Option.map_map, Option.map_map] at same
    exact same

/-- Giving up a hold on an instance is confined to the instance. -/
theorem confined_releaseInstance (id : Nat) : Confined {id} ∅ h (h.releaseInstance id) :=
  (h.undisturbed_releaseInstance id).confined fun _ other => h.instances_releaseInstance_of_ne other

/-- Bytes that go back to a budget are no instance and no object. -/
theorem confined_giveBack (commons bytes : Nat) : Confined ∅ ∅ h (h.giveBack commons bytes) :=
  h.confined_modifyBudget commons _

variable {h}

/-- An environment is dropped with its hold of its instance. -/
theorem confined_dropEnvironment {id : Nat} {e : Environment}
    (there : h.environments.get? id = some e) :
    Confined {e.inst} {(.environment, id)} h (h.dropEnvironment id) := by
  unfold dropEnvironment
  rw [there]
  have erased : Confined ∅ {(.environment, id)} h
      { h with environments := h.environments.erase id } :=
    h.confined_environments fun j other => by rw [Pool.get?_erase, if_neg other]
  have returned := confined_giveBack { h with environments := h.environments.erase id } e.commons
    e.stackSize
  exact ((erased.mono (Set.empty_subset _) subset_rfl).trans
    (returned.mono (Set.empty_subset _) (Set.empty_subset _))).trans
      ((confined_releaseInstance _ e.inst).mono subset_rfl (Set.empty_subset _))

end Host

/-- An operation on one instance is confined to it. -/
theorem Local.confined {id : Nat} {x : HostM σ α} (own : Local id x) (h : Host σ) :
    Host.Confined {id} ∅ h (exec x h).2 := by
  obtain ⟨p, after, aside⟩ := own.alone h
  rw [after]
  exact h.confined_instances aside.others

namespace Host

variable {h : Host σ}

/-- A block that goes back to the app heap concerns its instance. -/
theorem confined_freeBlock (h : Host σ) (id address : Nat) :
    Confined {id} ∅ h (h.freeBlock id address) :=
  (local_freeBlock (σ := σ) address).confined h

/-- Values that are released concern nothing. -/
theorem confined_releaseValues (h : Host σ) (b : Block) : Confined ∅ ∅ h (h.releaseValues b) := by
  have told : ∀ released, Confined ∅ ∅ h { h with released } := fun _ =>
    ⟨fun _ _ => rfl, fun kind _ _ => by cases kind <;> rfl, fun _ => rfl, rfl⟩
  unfold releaseValues
  split
  · exact .refl h
  · split
    · exact told _
    · exact .refl h

/-- A block is dropped with its place in the app heap, and its hold of its instance. -/
theorem confined_dropBlock {id : Nat} {b : Block} (there : h.blocks.get? id = some b) :
    Confined {b.inst} {(.block, id)} h (h.dropBlock id) := by
  unfold dropBlock
  rw [there]
  -- The three things happen one after the other: the owner goes, the values are released, and the
  -- span goes back.
  have erased : Confined {b.inst} {(.block, id)} h { h with blocks := h.blocks.erase id } :=
    (h.confined_blocks fun j other => by rw [Pool.get?_erase, if_neg other]).mono
      (Set.empty_subset _) subset_rfl
  refine (erased.trans ?_).trans ((confined_releaseInstance _ b.inst).mono subset_rfl
    (Set.empty_subset _))
  generalize ({ h with blocks := h.blocks.erase id } : Host σ) = k
  have told : Confined {b.inst} {(.block, id)} k
      (if b.address.isNull then k else k.releaseValues b) := by
    split
    · exact .refl k
    · exact (confined_releaseValues k b).mono (Set.empty_subset _) (Set.empty_subset _)
  generalize (if b.address.isNull then k else k.releaseValues b) = k' at told ⊢
  refine told.trans ?_
  split
  · exact (confined_freeBlock _ b.inst _).mono subset_rfl (Set.empty_subset _)
  · exact .refl _

end Host

/-! ### Calls -/

/-- In a state of the application, what is printed goes to the output, and nothing else happens. -/
def Silent (printer : Printer σ) (app : σ) : Prop :=
  ∀ commons bytes (h : Host σ), h.app = app → printer commons bytes h = h.emit commons bytes

variable {printer : Printer σ}

/-- A call in flight is confined to its instance. -/
theorem working_confined (printer : Printer σ) (c : Caller) :
    Working printer c fun x y => Silent printer x.host.app →
      Host.Confined {c.inst} ∅ x.host y.host where
  refl x _ := .refl x.host
  trans first second silent :=
    (first silent).trans (second ((first silent).app ▸ silent))
  store x _ _ _ _ _ := .refl x.host
  print x bytes silent := by
    rw [silent c.commons bytes x.host rfl]
    exact (x.host.confined_emit c.commons bytes).mono (Set.empty_subset _) subset_rfl
  clock x _ := (x.host.confined_readClock c.commons).mono (Set.empty_subset _) subset_rfl
  mark x _ _ _ := .refl x.host
  grow x memory pages before y grown _ := by
    obtain ⟨_, _, _, budget, -, -, -, -, -, -, -, host⟩ := Flight.growMemory?_eq_some grown
    rw [host]
    exact ((x.host.confined_modifyBudget c.commons _).mono (Set.empty_subset _) subset_rfl).trans
      (Host.confined_modifyInstance _ c.inst _)

namespace Host

variable {h : Host σ}

/-- A call begins with the store of an instance and the user data of an environment. -/
theorem confined_beginCall (h : Host σ) (id environment : Nat) :
    Confined {id} {(.environment, environment)} h (h.beginCall id environment) := by
  have held := (h.confined_retainInstance id).trans (confined_modifyInstance _ id
    fun i => { i with store := none })
  exact (held.mono subset_rfl (Set.empty_subset _)).trans
    ((confined_modifyEnvironment _ environment _).mono (Set.empty_subset _) subset_rfl)

/-- A call ends with the store and the user data put back. -/
theorem confined_endCall (h : Host σ) (id environment : Nat) (userData : Option UserData)
    (s : Store) : Confined {id} {(.environment, environment)} h
      (h.endCall id environment userData s) := by
  have back := (h.confined_modifyEnvironment environment fun e =>
    { e with userData := userData.getD e.userData }).mono (Set.empty_subset {id}) subset_rfl
  have free := (confined_modifyInstance (h.modifyEnvironment environment fun e =>
    { e with userData := userData.getD e.userData }) id fun i => { i with store := some s }).trans
      (confined_releaseInstance _ id)
  exact back.trans (free.mono subset_rfl (Set.empty_subset _))

end Host

variable [Engine]

/-- The run of a guest is confined to the instance. -/
theorem Entry.confined_run {h : Host σ} {environment : Nat} {name : String} {args : List HostValue}
    {results : List HostType} (entry : Entry h environment name args results)
    (silent : Silent printer h.app) :
    Host.Confined {entry.env.inst} ∅ (h.beginCall entry.env.inst environment)
      (entry.run printer).2.host := by
  have flown := (within_enter (working_confined printer entry.callee.caller) entry.callee.room
    entry.callee.function entry.params).snd entry.flight
  have begun : entry.flight.host = h.beginCall entry.env.inst environment := by
    rw [← entry.caller_inst]
    rfl
  rw [begun, entry.caller_inst] at flown
  exact flown ((h.confined_beginCall entry.env.inst environment).app ▸ silent)

section

variable {h : Host σ} (silent : Silent printer h.app) {v : Invoker} {e : Environment}
  (bound : h.environments.get? v.environment = some e) (name : String) (args : List HostValue)
  (results : List HostType)
include silent bound

/-- **Calls.** A call is confined to the instance and the environment through which it is made. -/
theorem Invoker.confined_call : Host.Confined {e.inst} {(.environment, v.environment)} h
    (v.call printer name args results h).2.2 := by
  rcases v.exists_entry_or_same printer name args results h with ⟨⟨entry⟩⟩ | same
  · have env : entry.env = e := Option.some.inj (entry.bound.symm.trans bound)
    have begun := h.confined_beginCall e.inst v.environment
    have flown := (env ▸ entry.confined_run silent : Host.Confined {e.inst} ∅
      (h.beginCall e.inst v.environment) (entry.run printer).2.host).mono subset_rfl
        (Set.empty_subset {(Kind.environment, v.environment)})
    obtain ⟨-, -, store, landed, -⟩ := entry.call_congr
      (rfl : (entry.run printer).1 = (entry.run printer).1) rfl
    rw [landed, Entry.landed, entry.caller_inst, env]
    exact (begun.trans flown).trans (Host.confined_endCall _ _ _ _ _)
  · rw [same]
    exact .refl h

/-- A call changes nothing of its environment but the user data. -/
theorem Invoker.get?_environment_call : ∃ userData,
    (v.call printer name args results h).2.2.environments.get? v.environment =
      some { e with userData } := by
  rcases v.exists_entry_or_same printer name args results h with ⟨⟨entry⟩⟩ | same
  · have env : entry.env = e := Option.some.inj (entry.bound.symm.trans bound)
    have flown := (entry.confined_run silent).objects .environment v.environment
      (Set.notMem_empty _)
    have begun : (h.beginCall entry.env.inst v.environment).environments.get? v.environment =
        some { e with userData := .empty } := by
      show (h.environments.modify v.environment _).get? v.environment = _
      rw [Pool.get?_modify, if_pos rfl, bound]
      rfl
    -- The call puts its user data back, whatever it has become.
    obtain ⟨w, -, after⟩ := entry.userData_call printer
    refine ⟨w, ?_⟩
    have there : (entry.run printer).2.host.environments.get? v.environment =
        some { e with userData := .empty } := by
      have mapped : ((entry.run printer).2.host.environments.get? v.environment).map
          Thing.environment = some (.environment { e with userData := .empty }) :=
        flown.trans (congrArg (Option.map Thing.environment) begun)
      obtain ⟨e', there, same⟩ := Option.map_eq_some_iff.1 mapped
      cases same
      exact there
    rw [after, Pool.get?_modify, if_pos rfl, there]
    rfl
  · rw [same]
    exact ⟨e.userData, bound⟩

end

end Embedder
