import Embedder.Host.GuestBytes

namespace Embedder

/-!
# Ownership

Who holds what, and what happens when a hold is given up. A runtime, module or instance goes with
its last holder, returns what was charged for it, and gives up its own hold on what it was made
from.

* `Host.retainRuntime`, `Host.retainModule`, `Host.retainInstance`: one more holder.
* `Host.releaseRuntime`, `Host.releaseModule`, `Host.releaseInstance`: one holder less.
* `Host.dropEnvironment`, `Host.dropBlock`, `Host.dropRunner`: the end of what has one owner.
-/

variable {σ : Type}

namespace Counted

/-- One more holder. -/
def retain (c : Counted α) : Counted α :=
  { c with holders := c.holders + 1 }

/-- One holder less, if that leaves any. -/
def release? (c : Counted α) : Option (Counted α) :=
  if c.holders ≤ 1 then none else some { c with holders := c.holders - 1 }

end Counted

namespace Host

/-- Return bytes to a budget. -/
def giveBack (h : Host σ) (commons bytes : Nat) : Host σ :=
  h.modifyBudget commons fun b => b.release bytes

/-! ### Counted objects -/

/-- One more holder of a runtime. -/
def retainRuntime (h : Host σ) (id : Nat) : Host σ :=
  { h with runtimes := h.runtimes.modify id Counted.retain }

/-- One more holder of a module. -/
def retainModule (h : Host σ) (id : Nat) : Host σ :=
  { h with modules := h.modules.modify id Counted.retain }

/-- One more holder of an instance. -/
def retainInstance (h : Host σ) (id : Nat) : Host σ :=
  { h with instances := h.instances.modify id Counted.retain }

/-- One holder of a runtime less. -/
def releaseRuntime (h : Host σ) (id : Nat) : Host σ :=
  match h.runtimes.get? id with
  | none => h
  | some c =>
    match c.release? with
    | some c => { h with runtimes := h.runtimes.modify id fun _ => c }
    | none => { h with runtimes := h.runtimes.erase id }

/-- One holder of a module less. The last one takes the module's charge and its hold on the runtime
along. -/
def releaseModule (h : Host σ) (id : Nat) : Host σ :=
  match h.modules.get? id with
  | none => h
  | some c =>
    match c.release? with
    | some c => { h with modules := h.modules.modify id fun _ => c }
    | none =>
      let h := { h with modules := h.modules.erase id }
      let h := h.giveBack c.value.commons c.value.bytecode.length
      h.releaseRuntime c.value.runtime

/-- One holder of an instance less. The last one takes the instance's charges and its hold on the
module along. -/
def releaseInstance (h : Host σ) (id : Nat) : Host σ :=
  match h.instances.get? id with
  | none => h
  | some c =>
    match c.release? with
    | some c => { h with instances := h.instances.modify id fun _ => c }
    | none =>
      let h := { h with instances := h.instances.erase id }
      let h := h.giveBack c.value.commons c.value.limiter.charged.value
      let h := h.giveBack c.value.commons c.value.stackSize
      h.releaseModule c.value.module

/-! ### Objects with one owner -/

/-- End an environment. -/
def dropEnvironment (h : Host σ) (id : Nat) : Host σ :=
  match h.environments.get? id with
  | none => h
  | some e =>
    let h := { h with environments := h.environments.erase id }
    (h.giveBack e.commons e.stackSize).releaseInstance e.inst

/-- The bytes that a block spans. -/
def blockBytes (b : Block) : Nat :=
  b.count.getD 1 * b.type.size

/-- The slots in the bytes of a block. One value has all of them; an array is cut into slots. -/
def blockSlots (b : Block) (bytes : Bytes) : Attempt (List Bytes) :=
  match b.count with
  | none => .returns [bytes]
  | some _ => Bytes.chunks b.type.size bytes

/-- The slots of a block that is dropped. There are none while another operation holds the
instance. -/
def releasedSlots (h : Host σ) (b : Block) : Attempt (List Bytes) :=
  match ((HostM.readBytes b.inst b.address.value (blockBytes b)).run h).1 with
  | .ok bytes => blockSlots b bytes
  | .error _ => .returns []

/-- Record the values of a block whose dropping has an effect. Nothing is recorded if the release
panics. -/
def releaseValues (h : Host σ) (b : Block) : Host σ :=
  if !b.type.released then h
  else
    match h.releasedSlots b with
    | .returns slots => { h with released := h.released ++ slots }
    | .panics _ => h

/-- End a block: its values are released in order, it returns to the app heap, and it gives up the
instance. If the release panics (`dropPanics`), the other two happen all the same while the panic is
on its way. -/
def dropBlock (h : Host σ) (id : Nat) : Host σ :=
  match h.blocks.get? id with
  | none => h
  | some b =>
    let h := { h with blocks := h.blocks.erase id }
    let h := if b.address.isNull then h else h.releaseValues b
    let h :=
      match b.address.deleted with
      | some address => h.freeBlock b.inst address
      | none => h
    h.releaseInstance b.inst

/-- Whether to end a block panics. -/
def dropPanics (h : Host σ) (id : Nat) : Bool :=
  (h.blocks.get? id).any fun b => !b.address.isNull && (h.releasedSlots b).isPanic

/-- End a runner with its environment. -/
def dropRunner (h : Host σ) (id : Nat) : Host σ :=
  match h.runners.get? id with
  | none => h
  | some r =>
    let h := { h with runners := h.runners.erase id }
    ((h.dropEnvironment r.environment).releaseInstance r.inst).releaseModule r.module

end Host

end Embedder
