import Embedder.Config

namespace Embedder

/-!
# Documents

Structured text, whatever notation it is written in, as far as a configuration looks at it, and how
the configurations are read from it.

A configuration is written as a record of its fields. Fields that are missing keep their defaults,
fields that are unknown are passed over, and no known field may be given twice. A configuration may
also be written as the list of its fields' values in the order of their declaration.

* `Node`: a document.
* `Field`, `readFields`: the fields of a configuration, and how a node fills them.
* `RuntimeConfig.ofNode?`, and so on: the configurations.
-/

-- Powers are those of the core library, whatever else is imported.
attribute [local instance (1100)] instPowNat

/-- A document. -/
inductive Node where
  | null
  | integer (v : Int)
  | text (s : String)
  | list (items : List Node)
  | record (fields : List (String × Node))
  /-- A value of which no configuration has any use. -/
  | other
  deriving Repr

/-! ### Values of fields -/

namespace Node

/-- The integer below `2 ^ width` that a node stands for. -/
def nat? (width : Nat) : Node → Option Nat
  | integer v => if 0 ≤ v ∧ v < 2 ^ width then some v.toNat else none
  | _ => none

/-- The unsigned number of 32 bits that a node stands for. -/
def uint32? (n : Node) : Option UInt32 :=
  (n.nat? 32).map UInt32.ofNat

/-- The unsigned number of 64 bits that a node stands for. -/
def uint64? (n : Node) : Option UInt64 :=
  (n.nat? 64).map UInt64.ofNat

/-- The text that a node stands for. -/
def text? : Node → Option String
  | text s => some s
  | _ => none

/-- The text that a node stands for, or that there is none. -/
def optionalText? : Node → Option (Option String)
  | null => some none
  | text s => some (some s)
  | _ => none

end Node

/-! ### Fields -/

/-- A field of a configuration: its name, and how a node sets it. -/
structure Field (α : Type) where
  name : String
  set : α → Node → Option α

namespace Field

/-- A field of some type. -/
def of (name : String) (read : Node → Option β) (put : α → β → α) : Field α :=
  ⟨name, fun a n => (read n).map (put a)⟩

/-- A field whose value may itself be partly given. -/
def nested (name : String) (read : β → Node → Option β) (get : α → β) (put : α → β → α) :
    Field α :=
  ⟨name, fun a n => (read (get a) n).map (put a)⟩

end Field

/-- Whether surplus values of a list are refused or passed over. -/
inductive Surplus where
  | refused
  | ignored
  deriving DecidableEq, Repr

/-- Set the field of a name, if there is one. -/
def setNamed (fields : List (Field α)) (a : α) (entry : String × Node) : Option α :=
  match fields.find? fun f => f.name = entry.1 with
  | some f => f.set a entry.2
  | none => some a

/-- Whether no known field is given twice. -/
def namedOnce (fields : List (Field α)) (entries : List (String × Node)) : Bool :=
  decide ((entries.map Prod.fst).filter fun k => fields.any fun f => f.name = k).Nodup

/-- A configuration with its fields filled from a node. -/
def readFields (surplus : Surplus) (fields : List (Field α)) (a : α) : Node → Option α
  | .record entries =>
    if namedOnce fields entries then entries.foldlM (setNamed fields) a else none
  | .list items =>
    if surplus = .refused ∧ fields.length < items.length then none
    else (fields.zip items).foldlM (fun a (f, n) => f.set a n) a
  | _ => none

/-! ### Configurations -/

/-- The fields of a module's configuration. -/
def ModuleConfig.fields : List (Field ModuleConfig) :=
  [.of "stack_size" Node.uint32? fun c v => { c with stackSize := v },
    .of "heap_size" Node.uint32? fun c v => { c with heapSize := v }]

/-- The module configuration of a node. -/
def ModuleConfig.ofNode? (surplus : Surplus) (c : ModuleConfig) : Node → Option ModuleConfig :=
  readFields surplus fields c

/-- The fields of a runtime's configuration. -/
def RuntimeConfig.fields (surplus : Surplus) : List (Field RuntimeConfig) :=
  [.of "heap_size_bytes" Node.uint64? fun c v => { c with heapSizeBytes := v },
    .of "max_wasm_stack" Node.uint32? fun c v => { c with maxWasmStack := v },
    .of "max_bytecode_size" Node.uint64? fun c v => { c with maxBytecodeSize := v },
    .nested "module" (ModuleConfig.ofNode? surplus) RuntimeConfig.module
      fun c v => { c with module := v },
    .of "exec_stack_size" Node.uint32? fun c v => { c with execStackSize := v }]

/-- The runtime configuration of a node. -/
def RuntimeConfig.ofNode? (surplus : Surplus) (c : RuntimeConfig) : Node → Option RuntimeConfig :=
  readFields surplus (fields surplus) c

/-- The fields of a run's configuration. -/
def RunConfig.fields : List (Field RunConfig) :=
  [.of "repeat" Node.uint32? fun c v => { c with repetitions := v },
    .of "threshold" Node.uint64? fun c v => { c with threshold := v },
    .of "event_id" Node.text? fun c v => { c with eventId := v },
    .of "event_payload" Node.text? fun c v => { c with eventPayload := v },
    .of "print_header" Node.optionalText? fun c v => { c with printHeader := v }]

/-- The run configuration of a node. -/
def RunConfig.ofNode? (surplus : Surplus) (c : RunConfig) : Node → Option RunConfig :=
  readFields surplus fields c

/-- The fields of a configuration file. -/
def ConfigFile.fields (surplus : Surplus) : List (Field ConfigFile) :=
  [.nested "runtime" (RuntimeConfig.ofNode? surplus) ConfigFile.runtime
      fun c v => { c with runtime := v },
    .nested "run" (RunConfig.ofNode? surplus) ConfigFile.run fun c v => { c with run := v }]

/-- The configuration file of a node. -/
def ConfigFile.ofNode? (surplus : Surplus) (c : ConfigFile) : Node → Option ConfigFile :=
  readFields surplus (fields surplus) c

/-! ### The full written form -/

/-- The record of all fields of a module's configuration. -/
def ModuleConfig.toNode (c : ModuleConfig) : Node :=
  .record [("stack_size", .integer c.stackSize.toNat), ("heap_size", .integer c.heapSize.toNat)]

/-- The record of all fields of a runtime's configuration. -/
def RuntimeConfig.toNode (c : RuntimeConfig) : Node :=
  .record [("heap_size_bytes", .integer c.heapSizeBytes.toNat),
    ("max_wasm_stack", .integer c.maxWasmStack.toNat),
    ("max_bytecode_size", .integer c.maxBytecodeSize.toNat),
    ("module", c.module.toNode),
    ("exec_stack_size", .integer c.execStackSize.toNat)]

/-- The record of all fields of a run's configuration. -/
def RunConfig.toNode (c : RunConfig) : Node :=
  .record [("repeat", .integer c.repetitions.toNat),
    ("threshold", .integer c.threshold.toNat),
    ("event_id", .text c.eventId),
    ("event_payload", .text c.eventPayload),
    ("print_header", (c.printHeader.map Node.text).getD .null)]

/-- The record of all fields of a configuration file. -/
def ConfigFile.toNode (c : ConfigFile) : Node :=
  .record [("runtime", c.runtime.toNode), ("run", c.run.toNode)]

end Embedder
