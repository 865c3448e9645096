import Embedder.Wasm.Memory
import Embedder.Wasm.Module

namespace Embedder.Wasm

/-!
# Guests

The state of an instantiated module: its functions, memories, globals and tables. Functions that
the host provides are known by a name of the host's choosing, of type `ν`.

* `Guest`: the state.
* `Guest.exportedFunc?`, `Guest.exportedMemory?`, `Guest.exportedGlobal?`: look-ups by name.
* `Guest.loadBytes?`, `Guest.storeBytes?`: access to one memory.
-/

variable {ν : Type}

/-- A function: one of the host's, or code. -/
inductive Func (ν : Type) where
  | native (name : ν) (type : FuncType)
  | code (type : FuncType) (code : Code)
  deriving Repr

/-- The type of a function. -/
def Func.type : Func ν → FuncType
  | .native _ type => type
  | .code type _ => type

/-- A table of functions: its size, and the places that are not empty. -/
structure FuncTable where
  size : Nat
  entries : List (Nat × Nat)
  deriving Repr

namespace FuncTable

/-- The function at a place: `none` past the end, `some none` at an empty place. -/
def get? (t : FuncTable) (i : Nat) : Option (Option Nat) :=
  if i < t.size then some ((t.entries.find? fun e => e.1 = i).map Prod.snd) else none

/-- The table with functions from a place on, if they fit. -/
def put? (t : FuncTable) (start : Nat) (functions : List Nat) : Option FuncTable :=
  if start + functions.length ≤ t.size then
    some { t with entries := (functions.mapIdx fun i f => (start + i, f)) ++ t.entries }
  else none

end FuncTable

/-- An instantiated module. -/
structure Guest (ν : Type) where
  module : Module
  funcs : Array (Func ν)
  memories : Array Memory
  globals : Array Value
  tables : Array FuncTable
  deriving Repr

-- A zero is the numeral, whatever else is imported.
attribute [local instance (1100)] Zero.ofOfNat0

namespace Guest

instance : Inhabited (Guest ν) :=
  ⟨⟨.empty, #[], #[], #[], #[]⟩⟩

/-! ### Exports -/

/-- The number of the function exported under a name, if the guest has one of that number. -/
def exportedFunc? (g : Guest ν) (name : String) : Option Nat :=
  match g.module.export? name with
  | some (.func i) => if i < g.funcs.size then some i else none
  | _ => none

/-- The number of the memory exported under a name. -/
def exportedMemory? (g : Guest ν) (name : String) : Option Nat :=
  match g.module.export? name with
  | some (.memory i) => some i
  | _ => none

/-- The number and the type of the global exported under a name, if the guest has one of that
number. -/
def exportedGlobal? (g : Guest ν) (name : String) : Option (Nat × GlobalType) :=
  match g.module.export? name with
  | some (.global i) =>
    if i < g.globals.size then (g.module.globalTypes[i]?).map fun t => (i, t) else none
  | _ => none

/-! ### Memories -/

/-- The bytes of a stretch of a memory, if it lies inside. -/
def loadBytes? (g : Guest ν) (memory address count : Nat) : Option Bytes := do
  (← g.memories[memory]?).read? address count

/-- The guest with a memory changed. -/
def setMemory (g : Guest ν) (memory : Nat) (m : Memory) : Guest ν :=
  { g with memories := g.memories.setIfInBounds memory m }

/-- The guest with the bytes of a stretch of a memory replaced, if it lies inside. -/
def storeBytes? (g : Guest ν) (memory address : Nat) (bytes : Bytes) : Option (Guest ν) := do
  let m ← (← g.memories[memory]?).write? address bytes
  pure (g.setMemory memory m)

/-- The guest with a global changed. -/
def setGlobal (g : Guest ν) (i : Nat) (v : Value) : Guest ν :=
  { g with globals := g.globals.setIfInBounds i v }

/-- The sizes of all memories together. -/
def memoryBytes (g : Guest ν) : Nat :=
  (g.memories.toList.map Memory.size).sum

/-! ### Initial values -/

/-- The value of an initial expression. -/
def evalConst (g : Guest ν) : ConstExpr → Value
  | .value v => v
  | .refFunc i => .ref .func (some i)
  | .globalGet i => (g.globals[i]?).getD (.i32 0)

/-- The address that an initial expression gives. -/
def evalOffset (g : Guest ν) (e : ConstExpr) : Nat :=
  match g.evalConst e with
  | .i32 bits => bits.toNat
  | _ => 0

end Guest

end Embedder.Wasm
