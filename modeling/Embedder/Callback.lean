import Embedder.Error
import Embedder.Native

namespace Embedder

/-!
# Callbacks

What a runtime offers to its guests: callbacks of the guest interface, and callbacks that the
application brings along. Of the latter there are some that look at a call from the inside and steer
its latch.

* `Probe`: the application's callbacks.
* `Callback`: all callbacks.
* `Callback.space`, `Callback.name`, `Callback.type`: how guests import them.
* `NativeGroup`, `registerNatives`: groups of callbacks, and the set that they make.
-/

/-! ### The application's callbacks -/

/-- Callbacks that look at a call from the inside. -/
inductive Probe where
  /-- Fail without latching a fault. -/
  | fail
  /-- Fail with an error that has a cause of its own. -/
  | failContext
  /-- Latch a fault and return. -/
  | latch
  /-- Latch a fault and fail. -/
  | raise
  /-- Clear the latch. -/
  | clear
  /-- The bytes of memory charged for the instance. -/
  | charged
  /-- Whether an environment's call is in flight. -/
  | active
  /-- Read the clock. -/
  | now
  /-- Set the start time of the user data. -/
  | setStart
  /-- Print the diagnostic form of the instance's state. -/
  | debug
  deriving DecidableEq, Repr

namespace Probe

/-- The namespace of the probes. -/
def space : String := "test"

/-- The name of a probe. -/
def name : Probe → String
  | .fail => "fail"
  | .failContext => "fail_context"
  | .latch => "latch"
  | .raise => "raise"
  | .clear => "clear"
  | .charged => "charged"
  | .active => "active"
  | .now => "now"
  | .setStart => "set_start"
  | .debug => "debug"

/-- The type of a probe. -/
def type : Probe → Wasm.FuncType
  | .fail => ⟨[], []⟩
  | .failContext => ⟨[], []⟩
  | .latch => ⟨[.i32], []⟩
  | .raise => ⟨[.i32], []⟩
  | .clear => ⟨[], [.i32]⟩
  | .charged => ⟨[], [.i64]⟩
  | .active => ⟨[], [.i32]⟩
  | .now => ⟨[], [.i64]⟩
  | .setStart => ⟨[.i64], []⟩
  | .debug => ⟨[], []⟩

end Probe

/-! ### All callbacks -/

/-- A callback: one of the guest interface, or one of the application. -/
inductive Callback where
  | native (n : Native)
  | probe (p : Probe)
  deriving DecidableEq, Repr

namespace Callback

/-- The namespace that a callback is imported from. -/
def space : Callback → String
  | native n => n.space
  | probe _ => Probe.space

/-- The name that a callback is imported under. -/
def name : Callback → String
  | native n => n.name
  | probe p => p.name

/-- The type of a callback. -/
def type : Callback → Wasm.FuncType
  | native n => n.type
  | probe p => p.type

end Callback

/-! ### Groups -/

/-- A group of callbacks that are defined together, in their order, or why they cannot be. -/
structure NativeGroup where
  callbacks : Except Error (List Callback)

namespace NativeGroup

/-- A group of callbacks of the guest interface. -/
def ofNatives (natives : List Native) : NativeGroup :=
  ⟨.ok (natives.map .native)⟩

def sum : NativeGroup := .ofNatives [.sum]

def print : NativeGroup := .ofNatives [.print, .printString]

def benchmark : NativeGroup := .ofNatives [.startBenchmark, .stopBenchmark]

def events : NativeGroup :=
  .ofNatives [.eventIdLength, .eventPayloadLength, .eventId, .eventPayload]

def exit : NativeGroup := .ofNatives [.exit, .systemExit]

def counter : NativeGroup := .ofNatives [.counterExceeded]

/-- Every callback of the guest interface. -/
def all : NativeGroup := .ofNatives
  [.sum, .print, .printString, .startBenchmark, .stopBenchmark, .eventIdLength,
    .eventPayloadLength, .eventId, .eventPayload, .exit, .systemExit, .counterExceeded]

/-- The application's callbacks. -/
def probes : NativeGroup :=
  ⟨.ok <| [.fail, .failContext, .latch, .raise, .clear, .charged, .active, .now, .setStart,
    .debug].map .probe⟩

/-- A group that cannot be defined. -/
def broken : NativeGroup :=
  ⟨.error (.typeMismatch "fn()" "fn(i32)")⟩

end NativeGroup

/-- The set with one more callback; there must not be one of its name. -/
def defineNative (defined : List Callback) (n : Callback) : Except Error (List Callback) :=
  if defined.any fun d => d.space = n.space && d.name = n.name then
    .error (.initFailed .runtime (.definedTwice n.space n.name))
  else .ok (defined ++ [n])

/-- The set that groups make, defined in order. -/
def registerNatives (groups : List NativeGroup) : Except Error (List Callback) :=
  groups.foldlM (fun defined group => do (← group.callbacks).foldlM defineNative defined) []

end Embedder
