import Embedder.Host.Blocks
import Embedder.Host.Loading

namespace Embedder

/-!
# Diagnostic forms of a host's objects

Each form shows what an object is, and ends in two dots for what it leaves out. Instances and
environments are shown by a placeholder in place of an identity.

* `openRecord`: the form of a record that leaves something out.
* `Host.debugRuntime`, `Host.debugModule`, `Host.debugInstance`, `Host.debugEnvironment`,
  `Host.debugRunner`: the forms.
-/

variable {σ : Type}

/-- The diagnostic form of a record that shows some of its fields. -/
def openRecord (name : String) (fields : List (String × String)) : String :=
  name ++ " \x7b " ++ String.join (fields.map fun f => f.1 ++ ": " ++ f.2 ++ ", ") ++ ".. \x7d"

namespace Host

/-- The diagnostic form of a runtime. -/
def debugRuntime (h : Host σ) (id : Nat) : Option String := do
  let r ← h.runtime? id
  let c ← h.commons? r.commons
  pure <| openRecord "Runtime"
    [("heap_size_bytes", toString r.config.heapSizeBytes),
      ("max_wasm_stack", toString r.config.maxWasmStack),
      ("arena_in_use", toString c.budget.inUse)]

/-- The diagnostic form of a module. -/
def debugModule (h : Host σ) (id : Nat) : Option String := do
  let m ← h.module? id
  pure <| openRecord "Module"
    [("content_hash", Text.quoted m.contentHash), ("bytecode_len", toString m.bytecode.length)]

/-- The diagnostic form of an instance. -/
def debugInstance (h : Host σ) (id : Nat) : Option String := do
  let i ← h.instance? id
  let m ← h.module? i.module
  pure <| openRecord "ModuleInstance"
    [("id", "<id>"), ("content_hash", Text.quoted m.contentHash),
      ("has_memory", toString i.memory.isSome)]

/-- The diagnostic form of an environment. -/
def debugEnvironment (h : Host σ) (id : Nat) : Option String := do
  let e ← h.environments.get? id
  pure <| openRecord "ExecutionEnvironment"
    [("id", "<env>"), ("stack_size", toString e.stackSize), ("instance_id", "<id>")]

/-- The diagnostic form of a runner. -/
def debugRunner (h : Host σ) (id : Nat) : Option String := do
  let r ← h.runners.get? id
  let m ← h.module? r.module
  pure <| openRecord "MainRunner"
    [("content_hash", Text.quoted m.contentHash), ("instance_id", "<id>"),
      ("threshold", toString r.threshold), ("counter", toString r.counter)]

end Host

end Embedder
