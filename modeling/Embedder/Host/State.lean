import Embedder.Budget
import Embedder.Config
import Embedder.GuestType
import Embedder.Heap
import Embedder.Callback
import Embedder.Sink
import Embedder.Table
import Embedder.UserData
import Embedder.Wasm.Guest

namespace Embedder

/-!
# The state of a host

Runtimes, modules, instances, environments, blocks of guest memory and runners, each under a
number. A module holds its runtime, an instance its module, and environments, blocks and runners
hold an instance; runtimes, modules and instances count their holders.

* `Commons`: what all guests of a runtime share.
* `Store`: what one operation at a time may hold of an instance.
* `Host`: all of it, together with the state of the application that embeds it.
* `HostM`: operations on a host, which may fail.
-/

/-! ### What guests share -/

/-- A reading of a clock. -/
abbrev Reading := Except TimestampError UInt64

/-- A clock that gives prepared readings, one a time, and how often it was read. After the last one
it gives the same reading again and again. -/
structure Clock where
  readings : List Reading
  afterwards : Reading
  asked : Nat

/-- A clock that was never read. -/
def Clock.ofReadings (readings : List Reading) (afterwards : Reading) : Clock :=
  ⟨readings, afterwards, 0⟩

/-- The next reading. -/
def Clock.read (c : Clock) : Reading × Clock :=
  ((c.readings[c.asked]?).getD c.afterwards, { c with asked := c.asked + 1 })

/-- Everything printed so far, and the header put before each line, if there is one. -/
structure Output where
  header : Option HeaderSink
  captured : Bytes

/-- The output after one print. -/
def Output.print (o : Output) (bytes : Bytes) : Output :=
  match o.header with
  | none => { o with captured := o.captured ++ bytes }
  | some sink =>
    let (out, sink) := sink.print bytes
    { header := some sink, captured := o.captured ++ out }

/-- What the guests of one runtime share. It outlives the runtime. -/
structure Commons where
  budget : Budget
  output : Output
  clock : Clock

/-! ### Objects -/

/-- A value with the number of those who hold it. -/
structure Counted (α : Type) where
  value : α
  holders : Nat

/-- A runtime: where its guests' charges and output go, its limits, and its callbacks. -/
structure Runtime where
  commons : Nat
  config : RuntimeConfig
  natives : List Callback

/-- A loaded module, charged with the length of its bytecode. -/
structure LoadedModule where
  runtime : Nat
  commons : Nat
  bytecode : Bytes
  wasm : Wasm.Module

/-- The call in flight on an instance: through which environment, and its user data. -/
structure ActiveCall where
  environment : Nat
  userData : UserData
  deriving DecidableEq, Repr

/-- What one operation at a time may hold of an instance: the guest, the app heap, the latched
fault, and the call in flight. -/
structure Store where
  guest : Wasm.Guest Callback
  heap : Option Heap
  latch : Option Fault
  active : Option ActiveCall

/-- An instance, charged with its stack and its memories. The store is absent while an operation
holds it. -/
structure Instance where
  module : Nat
  commons : Nat
  stackSize : Nat
  limiter : Limiter
  memory : Option Nat
  store : Option Store

/-- An environment through which an instance is called, charged with its stack. -/
structure Environment where
  inst : Nat
  commons : Nat
  stackSize : Nat
  userData : UserData

/-- A block of guest memory: one value, or an array of `count` values. -/
structure Block where
  inst : Nat
  type : GuestType
  count : Option Nat
  address : Handle

/-- A guest program with its environment, and what its last instrumented run was told and counted. -/
structure Runner where
  environment : Nat
  inst : Nat
  module : Nat
  commons : Nat
  threshold : UInt64
  counter : UInt64

/-! ### Hosts -/

/-- A host. `released` records the bytes of the values whose dropping has an effect, the oldest
first; `app` is the state of the application that embeds the host. -/
structure Host (σ : Type) where
  commons : Pool Commons
  runtimes : Pool (Counted Runtime)
  modules : Pool (Counted LoadedModule)
  instances : Pool (Counted Instance)
  environments : Pool Environment
  blocks : Pool Block
  runners : Pool Runner
  released : List Bytes
  app : σ

variable {σ : Type}

/-- A host without objects. -/
def Host.empty (app : σ) : Host σ :=
  ⟨.empty, .empty, .empty, .empty, .empty, .empty, .empty, [], app⟩

/-- An operation on a host. A failed operation may have changed the host. -/
abbrev HostM (σ : Type) := ExceptT Error (StateM (Host σ))

/-- What becomes of the bytes that are printed to the output of some commons. -/
abbrev Printer (σ : Type) := Nat → Bytes → Host σ → Host σ

namespace Host

/-- Append to the output, and do nothing else. -/
def emit : Printer σ := fun commons bytes h =>
  { h with commons := h.commons.modify commons fun c => { c with output := c.output.print bytes } }

/-- The host with a budget changed. -/
def modifyBudget (h : Host σ) (commons : Nat) (f : Budget → Budget) : Host σ :=
  { h with commons := h.commons.modify commons fun c => { c with budget := f c.budget } }

/-- Read the clock. -/
def readClock (h : Host σ) (commons : Nat) : Reading × Host σ :=
  match h.commons.get? commons with
  | none => (.error (.unavailable "there is no clock"), h)
  | some c =>
    let (reading, clock) := c.clock.read
    (reading, { h with commons := h.commons.modify commons fun c => { c with clock } })

/-- The host with an instance changed. -/
def modifyInstance (h : Host σ) (id : Nat) (f : Instance → Instance) : Host σ :=
  { h with instances := h.instances.modify id fun c => { c with value := f c.value } }

/-- The host with an environment changed. -/
def modifyEnvironment (h : Host σ) (id : Nat) (f : Environment → Environment) : Host σ :=
  { h with environments := h.environments.modify id f }

/-! ### Look-ups -/

/-- The commons under a number. -/
def commons? (h : Host σ) (id : Nat) : Option Commons :=
  h.commons.get? id

/-- The runtime under a number. -/
def runtime? (h : Host σ) (id : Nat) : Option Runtime :=
  (h.runtimes.get? id).map Counted.value

/-- The module under a number. -/
def module? (h : Host σ) (id : Nat) : Option LoadedModule :=
  (h.modules.get? id).map Counted.value

/-- The instance under a number. -/
def instance? (h : Host σ) (id : Nat) : Option Instance :=
  (h.instances.get? id).map Counted.value

end Host

namespace HostM

/-- Fail unless there is a value. -/
def ofOption (e : Error) : Option α → HostM σ α
  | some a => pure a
  | none => throw e

/-- Fail if a computation did. -/
def ofExcept : Except Error α → HostM σ α
  | .ok a => pure a
  | .error e => throw e

/-- The runtime under a number. -/
def runtime (id : Nat) : HostM σ Runtime := do
  ofOption .badHandle ((← get).runtime? id)

/-- The module under a number. -/
def module (id : Nat) : HostM σ LoadedModule := do
  ofOption .badHandle ((← get).module? id)

/-- The instance under a number. -/
def inst (id : Nat) : HostM σ Instance := do
  ofOption .badHandle ((← get).instance? id)

/-- The environment under a number. -/
def environment (id : Nat) : HostM σ Environment := do
  ofOption .badHandle ((← get).environments.get? id)

/-- The block under a number. -/
def block (id : Nat) : HostM σ Block := do
  ofOption .badHandle ((← get).blocks.get? id)

/-- The runner under a number. -/
def runner (id : Nat) : HostM σ Runner := do
  ofOption .badHandle ((← get).runners.get? id)

/-- Charge bytes to a budget for a resource. -/
def lease (commons bytes : Nat) (resource : Resource) : HostM σ Unit := do
  let c ← ofOption .badHandle ((← get).commons? commons)
  let budget ← ofExcept (c.budget.lease bytes resource)
  modify fun h => h.modifyBudget commons fun _ => budget

/-- The store of an instance, unless another operation holds it. -/
def store (id : Nat) : HostM σ Store := do
  ofOption .busy (← inst id).store

/-- Put a store back. -/
def putStore (id : Nat) (s : Store) : HostM σ Unit :=
  modify fun h => h.modifyInstance id fun i => { i with store := some s }

end HostM

end Embedder
