import Embedder.Wasm.Guest

namespace Embedder.Wasm

/-!
# Steps of code

Code runs in steps, and no step acts on the host: where code needs the host, for one of its functions
or for more memory, it stops with a request. A step changes the contents of a guest's memories, globals
and tables, but neither its functions nor the sizes of its memories, and what a global holds keeps its
type.

* `Guest.Stocked`: the memories and the globals that a module declares are there, and these hold values
  of their types.
* `Guest.Extends`: the guest is the other one with other contents, and perhaps more empty memories.
* `Guest.Imports`: the functions of the host that a guest can call.
* `Progress`: how a step ends, with what is left to run.
* `Progress.Keeps`, `Progress.Honours`: what a step leaves alone, and which results it is on the way to.
-/

variable {ν θ : Type}

/-! ### What steps leave alone -/

/-- Globals of these types and memories of these sizes are what a module declares: there are as many,
the globals are of their types, and 32 bits can address all bytes of a memory. -/
structure Module.Stock (m : Module) (kinds : List ValType) (sizes : List Nat) : Prop where
  globals : m.globalTypes.map GlobalType.type <+: kinds
  memories : m.memoryLimits.length ≤ sizes.length
  range : ∀ size ∈ sizes, size ≤ maxPages * pageSize

namespace Guest

/-- The types of the values that a guest's globals hold. -/
def kinds (g : Guest ν) : List ValType :=
  g.globals.toList.map Value.type

/-- The sizes of a guest's memories. -/
def sizes (g : Guest ν) : List Nat :=
  g.memories.toList.map Memory.size

/-- A guest has the memories and the globals that its module declares, and these hold values of their
types. -/
def Stocked (g : Guest ν) : Prop :=
  g.module.Stock g.kinds g.sizes

/-- A guest with the module, the functions and the memory sizes of another one. -/
structure Extends (g g' : Guest ν) : Prop where
  module : g'.module = g.module
  funcs : g'.funcs = g.funcs
  shape : ∀ (i : Nat) (m : Memory), g.memories[i]? = some m →
    ∃ m' : Memory, g'.memories[i]? = some m' ∧ m'.size = m.size ∧ m'.maximum = m.maximum
  bytes : g'.memoryBytes = g.memoryBytes
  stocked : g.Stocked → g'.Stocked

/-- One of the host's functions is among a guest's. -/
def Imports (g : Guest ν) (name : ν) : Prop :=
  ∃ type, .native name type ∈ g.funcs

end Guest

/-! ### Steps -/

/-- How a step of code ends. -/
inductive Progress (ν θ : Type) where
  /-- There is more to run. -/
  | running (g : Guest ν) (t : θ)
  /-- The code is done. -/
  | finished (results : List Value)
  /-- The code is stopped. -/
  | trapped (trap : Trap)
  /-- The code waits for the results of one of the host's functions. -/
  | calls (name : ν) (args : List Value) (results : List ValType) (t : θ)
  /-- The code waits for more pages of a memory. -/
  | grows (memory pages : Nat) (t : θ)
  deriving Repr

/-- A step that goes on does so with an extension of the guest, and one that needs the host needs one
of the guest's functions. -/
def Progress.Keeps (g : Guest ν) : Progress ν θ → Prop
  | .running g' _ => g.Extends g'
  | .calls name _ _ _ => g.Imports name
  | _ => True

/-- A step ends with results of these types, or what is left to run will; `owed` tells of this what it
will end with. -/
def Progress.Honours (owed : θ → List ValType) (types : List ValType) : Progress ν θ → Prop
  | .running _ t => owed t = types
  | .finished results => results.map Value.type = types
  | .trapped _ => True
  | .calls _ _ _ t => owed t = types
  | .grows _ _ t => owed t = types

end Embedder.Wasm
