import Mathlib.Logic.Function.Basic
import Mathlib.Logic.Relation
import Mathlib.Tactic.Simps.Basic
import Embedder.Proofs.Host.Flight

namespace Embedder

open Session (Kind)

/-!
# Changes of a host

Whatever is asked of a host happens by small changes: bytes are charged, an object comes or goes,
a holder is counted, a store is lent to a call and given back. Next to the host stands what the
operations in progress have in hand: holds that no object has, bytes that are charged for no object
yet, the stores of the calls in flight, and blocks between the heap and their owner.

* `Pending`, `Config`: what is in hand, and a host together with it.
* `Evolves`: what happens to one instance.
* `Change`: what happens to a host.
* `Effect`: the changes that an operation may be denied.
-/

/-! ### What operations have in hand -/

/-- The store of a call in flight, the commons that it charges, and whether its instance is
complete. -/
structure Loan where
  store : Store
  commons : Nat
  ready : Bool

/-- What the operations in progress have in hand: holds, charged bytes, the stores of calls in
flight, and for each instance the blocks taken from its heap that have no owner. -/
structure Pending where
  pins : Holds
  debt : Charges
  held : Nat → Option Loan
  taken : Nat → List Span

namespace Pending

/-- Nothing in hand. -/
def none : Pending :=
  ⟨0, 0, fun _ => .none, fun _ => []⟩

/-- More holds in hand. -/
@[simps]
def hold (g : Pending) (pins : Holds) : Pending :=
  { g with pins := g.pins + pins }

/-- One more hold in hand. -/
@[simps!]
def pin (g : Pending) (kind : Kind) (id : Nat) : Pending :=
  g.hold (.on kind id 1)

/-- More charged bytes in hand. -/
@[simps]
def owe (g : Pending) (debt : Charges) : Pending :=
  { g with debt := g.debt + debt }

/-- The store of an instance in hand. -/
@[simps]
def lend (g : Pending) (id : Nat) (loan : Loan) : Pending :=
  { g with held := Function.update g.held id loan }

/-- A block of an instance in hand. -/
@[simps]
def take (g : Pending) (id : Nat) (s : Span) : Pending :=
  { g with taken := Function.update g.taken id (s :: g.taken id) }

/-- The holds of the calls in flight on their instances. -/
def loaned (g : Pending) : Holds
  | .inst, id => if (g.held id).isSome then 1 else 0
  | _, _ => 0

/-- The user data of an environment is on loan to a call in flight. -/
def Lends (g : Pending) (environment : Nat) : Prop :=
  ∃ id loan u, g.held id = some loan ∧ loan.store.active = some ⟨environment, u⟩

end Pending

/-- A host and what the operations in progress have in hand. -/
structure Config (σ : Type) where
  host : Host σ
  pending : Pending

/-! ### Changes that may be denied -/

/-- A change that not every operation makes. -/
inductive Effect where
  /-- The application's own state changes. -/
  | renames
  /-- A call enters an instance. -/
  | enters (id : Nat)
  /-- The fault of an instance at rest is set or cleared. -/
  | latches (id : Nat)
  /-- The user data of an environment is lent to a call, or replaced. -/
  | lends (environment : Nat)
  /-- A block of an instance gets an owner. -/
  | keeps (id : Nat)

/-! ### One instance -/

/-- An instance with what is in hand of it. -/
structure Custody where
  record : Instance
  held : Option Loan
  taken : List Span

/-- What a call takes on loan is the user data of an environment of the instance, and before the call
gives the store back, it has given that back. -/
structure Custody.Squares (environments : Pool Environment) (id : Nat) (x y : Custody) : Prop where
  borrowed : x.held = none → ∀ loan environment u, y.held = some loan →
    loan.store.active = some ⟨environment, u⟩ →
      ∃ e, environments.get? environment = some e ∧ e.inst = id ∧ e.userData = u
  returned : y.held = none → ∀ loan environment u e, x.held = some loan →
    loan.store.active = some ⟨environment, u⟩ → environments.get? environment = some e →
      e.userData = u

/-- What happens to one instance, and how many bytes that are in hand it consumes. -/
inductive Evolves (allowed : Effect → Prop) (id : Nat) : Custody → Nat → Custody → Prop
  /-- The host changes contents of the guest. -/
  | edit {x : Custody} {s s' : Store} (idle : x.record.store = some s)
      (guest : s.guest.Extends s'.guest) (heap : s'.heap = s.heap) (latch : s'.latch = s.latch)
      (active : s'.active = s.active) :
      Evolves allowed id x 0 { x with record := { x.record with store := some s' } }
  /-- The host sets or clears the fault. -/
  | latch {x : Custody} {s : Store} {fault : Option Fault} (idle : x.record.store = some s)
      (permit : allowed (.latches id)) :
      Evolves allowed id x 0
        { x with record := { x.record with store := some { s with latch := fault } } }
  /-- A block is taken from the heap. -/
  | alloc {x : Custody} {s : Store} {heap heap' : Heap} {size address : Nat}
      (idle : x.record.store = some s) (present : s.heap = some heap)
      (fits : heap.alloc? size = some (address, heap')) :
      Evolves allowed id x 0
        { x with
          record := { x.record with store := some { s with heap := some heap' } }
          taken := ⟨address, size⟩ :: x.taken }
  /-- A block goes back to the heap. -/
  | free {x : Custody} {s : Store} {heap heap' : Heap} {block : Span} {rest : List Span} {size : Nat}
      (idle : x.record.store = some s) (present : s.heap = some heap)
      (taken : x.taken = block :: rest) (found : heap.free? block.start = some (size, heap')) :
      Evolves allowed id x 0
        { x with
          record := { x.record with store := some { s with heap := some heap' } }
          taken := rest }
  /-- A call takes the store. -/
  | enter {x : Custody} {s : Store} {active : Option ActiveCall} (idle : x.record.store = some s)
      (free : x.held = none) (latch : s.latch = none) (permit : allowed (.enters id)) :
      Evolves allowed id x 0
        { x with
          record := { x.record with store := none }
          held := some ⟨{ s with active }, x.record.commons, true⟩ }
  /-- A call gives the store back. -/
  | leave {x : Custody} {s : Store} {commons : Nat} (held : x.held = some ⟨s, commons, true⟩) :
      Evolves allowed id x 0
        { x with
          record := { x.record with store := some { s with active := none } }
          held := none }
  /-- A call changes the store, but neither the heap nor the event that it has on loan. -/
  | run {x : Custody} {s s' : Store} {commons : Nat} {ready : Bool}
      (held : x.held = some ⟨s, commons, ready⟩) (guest : s.guest.Extends s'.guest)
      (heap : s'.heap = s.heap) (event : s'.event? = s.event?) :
      Evolves allowed id x 0 { x with held := some ⟨s', commons, ready⟩ }
  /-- A memory grows for a call. -/
  | grow {x : Custody} {s : Store} {commons memory added : Nat} {ready : Bool} {m : Wasm.Memory}
      (held : x.held = some ⟨s, commons, ready⟩) (present : s.guest.memories[memory]? = some m)
      (whole : Wasm.pageSize ∣ added) (limit : m.size + added ≤ m.limit) :
      Evolves allowed id x added
        { x with
          record := { x.record with limiter := ⟨⟨x.record.limiter.charged.value + added⟩⟩ }
          held := some ⟨{ s with guest := s.guest.setMemory memory (m.grow (m.size + added)) },
            commons, ready⟩ }
  /-- The new instance gets its heap, in the last pages of its exported memory. -/
  | manage {x : Custody} {s : Store} {commons memory before pages : Nat} {m : Wasm.Memory}
      (held : x.held = some ⟨s, commons, false⟩) (empty : s.heap = none)
      (exported : s.guest.exportedMemory? memoryExport = some memory)
      (present : s.guest.memories[memory]? = some m) (size : m.pages = before + pages) :
      Evolves allowed id x 0
        { x with
          held := some ⟨{ s with
            heap := some (.manage (before * Wasm.pageSize)
              (min (pages * Wasm.pageSize) (addressRange - 1))) }, commons, false⟩ }
  /-- The new instance is complete. -/
  | complete {x : Custody} {s : Store} {commons : Nat} (held : x.held = some ⟨s, commons, false⟩)
      (active : s.active = none)
      (stocked : s.guest.module.isValid = true → s.guest.Stocked) :
      Evolves allowed id x 0
        { x with
          record := { x.record with
            memory := s.guest.exportedMemory? memoryExport
            store := some s }
          held := none }

/-! ### The whole host -/

variable {σ : Type} [Holder σ] [Rule σ]

/-- What happens to a host. Only the holds on what can have holders matter to it: those on commons
may come and go. -/
inductive Change (allowed : Effect → Prop) : Config σ → Config σ → Prop
  /-- Something is printed, or a clock is read. -/
  | commons {h : Host σ} {g : Pending} {id : Nat} {f : Commons → Commons}
      (budget : ∀ c, (f c).budget = c.budget) :
      Change allowed ⟨h, g⟩ ⟨{ h with commons := h.commons.modify id f }, g⟩
  /-- The record of released values changes. -/
  | released {h : Host σ} {g : Pending} {released : List Bytes} :
      Change allowed ⟨h, g⟩ ⟨{ h with released }, g⟩
  /-- Holds go from the application to an operation, or back. -/
  | app {h : Host σ} {g : Pending} {app : σ} {pins : Holds}
      (same : ∀ k id, k ≠ .commons →
        Holder.holds app k id + pins k id = Holder.holds h.app k id + g.pins k id)
      (rule : ∀ n, Rule.admits n h.app → Rule.admits n app)
      (permit : app = h.app ∨ allowed .renames) :
      Change allowed ⟨h, g⟩ ⟨{ h with app }, { g with pins }⟩
  /-- Bytes are charged. -/
  | lease {h : Host σ} {g : Pending} {id n : Nat} {c : Commons} {budget : Budget}
      (present : h.commons? id = some c) (fits : c.budget.reserve? n = some budget) :
      Change allowed ⟨h, g⟩ ⟨h.modifyBudget id fun _ => budget, g.owe (.of id n)⟩
  /-- Bytes are given back. -/
  | giveBack {h : Host σ} {g : Pending} {id n : Nat} :
      Change allowed ⟨h, g.owe (.of id n)⟩ ⟨h.giveBack id n, g⟩
  /-- A runtime comes, and its commons. -/
  | runtimeMade {h : Host σ} {g : Pending} {c : Commons} {r : Runtime} (empty : c.budget.inUse = 0)
      (own : r.commons = h.commons.next) :
      Change allowed ⟨h, g⟩
        ⟨{ h with commons := (h.commons.insert c).1, runtimes := (h.runtimes.insert ⟨r, 1⟩).1 },
          g.pin .runtime h.runtimes.next⟩
  /-- A module comes. -/
  | moduleMade {h : Host σ} {g : Pending} {m : LoadedModule} {r : Runtime}
      (runtime : h.runtime? m.runtime = some r) (commons : m.commons = r.commons)
      (valid : m.wasm.isValid = true) :
      Change allowed ⟨h, (g.hold m.refs).owe m.charge⟩
        ⟨{ h with modules := (h.modules.insert ⟨m, 1⟩).1 }, g.pin .module h.modules.next⟩
  /-- An instance comes; it is in hand until it is complete. -/
  | instanceMade {h : Host σ} {g : Pending} {i : Instance} {m : LoadedModule} {r : Runtime}
      {imported : List (Wasm.Func Callback)} (module : h.module? i.module = some m)
      (runtime : h.runtime? m.runtime = some r) (commons : i.commons = m.commons)
      (linked : ∀ f ∈ imported, ∃ n ∈ r.natives, f = .native n n.type)
      (limiter : i.limiter = .empty) (store : i.store = none) (memory : i.memory = none) :
      Change allowed ⟨h, (g.hold i.refs).owe i.charge⟩
        ⟨{ h with instances := (h.instances.insert ⟨i, 1⟩).1 },
          g.lend h.instances.next ⟨.ofGuest (.bare m.wasm imported), i.commons, false⟩⟩
  /-- An environment comes. -/
  | environmentMade {h : Host σ} {g : Pending} {e : Environment} {i : Instance}
      (inst : h.instance? e.inst = some i) (commons : e.commons = i.commons) :
      Change allowed ⟨h, (g.hold e.refs).owe e.charge⟩
        ⟨{ h with environments := (h.environments.insert e).1 },
          g.pin .environment h.environments.next⟩
  /-- A block gets its owner. -/
  | blockMade {h : Host σ} {g : Pending} {b : Block} (aligned : b.type.isAligned)
      (permit : allowed (.keeps b.inst)) :
      Change allowed ⟨h, (g.hold b.refs).take b.inst ⟨b.start, Host.blockBytes b⟩⟩
        ⟨{ h with blocks := (h.blocks.insert b).1 }, g.pin .block h.blocks.next⟩
  /-- A block is forgotten and stays taken, because it cannot be given back. -/
  | blockLost {h : Host σ} {g : Pending} {id : Nat} {s : Span}
      (stays : s.start = 0 ∨ h.freeBlock id s.start = h) :
      Change allowed ⟨h, g.take id s⟩ ⟨h, g⟩
  /-- A runner comes. -/
  | runnerMade {h : Host σ} {g : Pending} {r : Runner} {e : Environment}
      (environment : h.environments.get? r.environment = some e) (inst : e.inst = r.inst) :
      Change allowed ⟨h, g.hold r.refs⟩
        ⟨{ h with runners := (h.runners.insert r).1 }, g.pin .runner h.runners.next⟩
  /-- The holders of a runtime become more or fewer. -/
  | runtimeHeld {h : Host σ} {g : Pending} {id n : Nat} {c : Counted Runtime} {pins : Holds}
      (present : h.runtimes.get? id = some c) (pos : 0 < n)
      (same : pins + .on .runtime id c.holders = g.pins + .on .runtime id n) :
      Change allowed ⟨h, g⟩
        ⟨{ h with runtimes := h.runtimes.modify id fun _ => ⟨c.value, n⟩ }, { g with pins }⟩
  /-- The holders of a module become more or fewer. -/
  | moduleHeld {h : Host σ} {g : Pending} {id n : Nat} {c : Counted LoadedModule} {pins : Holds}
      (present : h.modules.get? id = some c) (pos : 0 < n)
      (same : pins + .on .module id c.holders = g.pins + .on .module id n) :
      Change allowed ⟨h, g⟩
        ⟨{ h with modules := h.modules.modify id fun _ => ⟨c.value, n⟩ }, { g with pins }⟩
  /-- The holders of an instance become more or fewer. -/
  | instanceHeld {h : Host σ} {g : Pending} {id n : Nat} {c : Counted Instance} {pins : Holds}
      (present : h.instances.get? id = some c) (pos : 0 < n)
      (same : pins + .on .inst id c.holders = g.pins + .on .inst id n)
      (complete : ∀ loan, g.held id = some loan → loan.ready) :
      Change allowed ⟨h, g⟩
        ⟨{ h with instances := h.instances.modify id fun _ => ⟨c.value, n⟩ }, { g with pins }⟩
  /-- A runtime goes with its last holder. -/
  | runtimeGone {h : Host σ} {g : Pending} {id : Nat} {c : Counted Runtime}
      (present : h.runtimes.get? id = some c) (last : c.holders = 1) :
      Change allowed ⟨h, g.pin .runtime id⟩ ⟨{ h with runtimes := h.runtimes.erase id }, g⟩
  /-- A module goes with its last holder. -/
  | moduleGone {h : Host σ} {g : Pending} {id : Nat} {c : Counted LoadedModule}
      (present : h.modules.get? id = some c) (last : c.holders = 1) :
      Change allowed ⟨h, g.pin .module id⟩
        ⟨{ h with modules := h.modules.erase id }, (g.hold c.value.refs).owe c.value.charge⟩
  /-- An instance goes with its last holder. -/
  | instanceGone {h : Host σ} {g : Pending} {id : Nat} {c : Counted Instance}
      (present : h.instances.get? id = some c) (last : c.holders = 1) :
      Change allowed ⟨h, g.pin .inst id⟩
        ⟨{ h with instances := h.instances.erase id }, (g.hold c.value.refs).owe c.value.charge⟩
  /-- An instance that could not be completed goes. -/
  | instanceFailed {h : Host σ} {g : Pending} {id : Nat} {c : Counted Instance} {loan : Loan}
      (present : h.instances.get? id = some c) (last : c.holders = 1)
      (held : g.held id = some loan) :
      Change allowed ⟨h, g⟩
        ⟨{ h with instances := h.instances.erase id },
          (({ g with held := Function.update g.held id none } : Pending).hold c.value.refs).owe
            c.value.charge⟩
  /-- An environment goes. -/
  | environmentGone {h : Host σ} {g : Pending} {id : Nat} {e : Environment}
      (present : h.environments.get? id = some e) :
      Change allowed ⟨h, g.pin .environment id⟩
        ⟨{ h with environments := h.environments.erase id }, (g.hold e.refs).owe e.charge⟩
  /-- A block loses its owner. -/
  | blockGone {h : Host σ} {g : Pending} {id : Nat} {b : Block}
      (present : h.blocks.get? id = some b) :
      Change allowed ⟨h, g.pin .block id⟩
        ⟨{ h with blocks := h.blocks.erase id },
          (g.hold b.refs).take b.inst ⟨b.start, Host.blockBytes b⟩⟩
  /-- A runner goes. -/
  | runnerGone {h : Host σ} {g : Pending} {id : Nat} {r : Runner}
      (present : h.runners.get? id = some r) :
      Change allowed ⟨h, g.pin .runner id⟩
        ⟨{ h with runners := h.runners.erase id }, g.hold r.refs⟩
  /-- The user data of an environment changes. The event in it stays, unless the environment belongs to
  the application or to the operation, or the event is on loan. -/
  | userData {h : Host σ} {g : Pending} {id : Nat} {f : Environment → UserData}
      (permit : allowed (.lends id))
      (due : 0 < Holder.holds h.app .environment id + g.pins .environment id ∨ g.Lends id ∨
        ∀ e, (f e).event = e.userData.event) :
      Change allowed ⟨h, g⟩
        ⟨h.modifyEnvironment id fun e => { e with userData := f e }, g⟩
  /-- What a runner records of its last run changes. -/
  | recorded {h : Host σ} {g : Pending} {id : Nat} {threshold counter : Runner → UInt64} :
      Change allowed ⟨h, g⟩
        ⟨{ h with runners := h.runners.modify id fun r =>
            { r with threshold := threshold r, counter := counter r } }, g⟩
  /-- Something happens to one instance. -/
  | evolve {h : Host σ} {g : Pending} {id paid : Nat} {c : Counted Instance} {y : Custody}
      {pins : Holds} (present : h.instances.get? id = some c)
      (step : Evolves allowed id ⟨c.value, g.held id, g.taken id⟩ paid y)
      (same : pins + ({ g with held := Function.update g.held id y.held } : Pending).loaned =
        g.pins + g.loaned)
      (square : Custody.Squares h.environments id ⟨c.value, g.held id, g.taken id⟩ y) :
      Change allowed ⟨h, g.owe (.of c.value.commons paid)⟩
        ⟨h.modifyInstance id fun _ => y.record,
          { g with
            pins
            held := Function.update g.held id y.held
            taken := Function.update g.taken id y.taken }⟩
  /-- Something happens to a store in hand. -/
  | inHand {h : Host σ} {g : Pending} {id : Nat} {c : Counted Instance} {loan loan' : Loan}
      (present : h.instances.get? id = some c) (held : g.held id = some loan)
      (step : Evolves allowed id ⟨c.value, some loan, g.taken id⟩ 0
        ⟨c.value, some loan', g.taken id⟩) :
      Change allowed ⟨h, g⟩ ⟨h, g.lend id loan'⟩

end Embedder
