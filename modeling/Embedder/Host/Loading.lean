import Embedder.Engine
import Embedder.Host.Ownership
import Embedder.SipHash

namespace Embedder

/-!
# Runtimes and modules

* `HostM.createRuntime`: a runtime with a budget, an output and a clock of its own.
* `HostM.load`, `HostM.loadText`: a module from bytecode, and from its text form.
* `LoadedModule.contentHash`, `LoadedModule.exports`: what a module tells about itself.
-/

variable [Engine] {σ : Type}

/-- Run an operation; if it fails, undo what went before it. -/
def HostM.orUndo (undo : Host σ → Host σ) (act : HostM σ α) : HostM σ α :=
  tryCatch act fun e => do
    modify undo
    throw e

/-! ### Runtimes -/

/-- The output in which every line is marked with a header, if one is given. -/
def Output.ofHeader (header : Option Bytes) : Output :=
  ⟨header.map .ofHeader, []⟩

/-- The callbacks of a new runtime. -/
def runtimeNatives (groups : List NativeGroup) : Except Error (List Callback) :=
  match registerNatives groups with
  | .ok natives => .ok natives
  | .error e => .error (.initFailed .runtime (.registration e.message))

namespace HostM

/-- Create a runtime. Its commons have the number that is answered second. -/
def createRuntime (config : RuntimeConfig) (groups : List NativeGroup) (output : Output)
    (clock : Clock) : HostM σ (Nat × Nat) := do
  let budget ← ofExcept (Budget.ofCapacity config.heapSizeBytes.toNat)
  if config.maxWasmStack = 0 then throw (.initFailed .runtime .zeroStackLimit)
  let natives ← ofExcept (runtimeNatives groups)
  let h ← get
  let (allCommons, commons) := h.commons.insert { budget, output, clock }
  let (runtimes, id) := h.runtimes.insert ⟨{ commons, config, natives }, 1⟩
  set { h with commons := allCommons, runtimes }
  pure (id, commons)

/-! ### Modules -/

/-- Refuse more bytecode than a runtime allows. -/
def checkSize (r : Runtime) (bytecode : Bytes) : HostM σ Unit :=
  if r.config.maxBytecodeSize.toNat < bytecode.length then
    throw (.initFailed .module (.tooLarge bytecode.length r.config.maxBytecodeSize.toNat))
  else pure ()

/-- Refuse what does not begin like a module. -/
def checkHeader (bytecode : Bytes) : HostM σ Unit :=
  if bytecode.length < 8 then throw (.initFailed .module .tooSmall)
  else if bytecode.take 4 ≠ Wasm.preamble.take 4 then throw (.initFailed .module .badMagic)
  else pure ()

/-- Charge for bytecode and keep the module that it encodes. -/
def keepModule (runtime : Nat) (r : Runtime) (bytecode : Bytes) (decoded : Option Wasm.Module) :
    HostM σ Nat := do
  lease r.commons bytecode.length .module
  orUndo (·.giveBack r.commons bytecode.length) do
    let wasm ← ofOption (.initFailed .module .compilation) decoded
    modify (·.retainRuntime runtime)
    let h ← get
    let (modules, id) := h.modules.insert ⟨{ runtime, commons := r.commons, bytecode, wasm }, 1⟩
    set { h with modules }
    pure id

/-- Load a module from bytecode. -/
def load (runtime : Nat) (bytecode : Bytes) : HostM σ Nat := do
  let r ← HostM.runtime runtime
  checkSize r bytecode
  checkHeader bytecode
  keepModule runtime r bytecode (Engine.decode? bytecode)

/-- Load a module from its text form. The text itself is kept as the bytecode. -/
def loadText (runtime : Nat) (text : String) : HostM σ Nat := do
  let r ← HostM.runtime runtime
  let bytecode := Bytes.ofText text
  checkSize r bytecode
  keepModule runtime r bytecode (Engine.ofText? text)

end HostM

/-! ### What a module tells about itself -/

/-- The hash by which a module's bytecode is known. -/
def LoadedModule.contentHash (m : LoadedModule) : String :=
  Embedder.contentHash m.bytecode

/-- The names of everything that a module exports. -/
def LoadedModule.exports (m : LoadedModule) : List String :=
  m.wasm.exports.map Wasm.Export.name

end Embedder
