import Embedder.Wire

namespace Embedder

/-!
# Native callbacks

The callbacks of the guest interface, by the names and types that guests import.

* `plainMain`, `counterGlobal`, and so on: what guests export.
* `Native`: the callbacks.
* `Native.space`, `Native.name`, `Native.type`: how guests import them.
-/

/-! ### Names of the guest interface -/

/-- The version of the guest interface. -/
def abiVersion : Nat := 1

/-- The namespace of the callbacks. -/
def nativeSpace : String := "env"

/-- The namespace of the system interface. -/
def systemSpace : String := "wasi_snapshot_preview1"

/-- The entry point of a plain program. -/
def plainMain : String := "sandbox_main"

/-- The entry point of an instrumented program. -/
def instrumentedMain : String := "sandbox_instrumented_main"

/-- The global that counts instructions. -/
def counterGlobal : String := "sandbox_counter"

/-- The global that holds the counter's threshold. -/
def thresholdGlobal : String := "sandbox_threshold"

/-- The memory that callbacks and blocks refer to. -/
def memoryExport : String := "memory"

/-! ### Callbacks -/

/-- The callbacks of the guest interface. -/
inductive Native where
  | sum
  | print
  | printString
  | startBenchmark
  | stopBenchmark
  | eventIdLength
  | eventPayloadLength
  | eventId
  | eventPayload
  | exit
  | systemExit
  | counterExceeded
  deriving DecidableEq, Repr

namespace Native

/-- The namespace that a callback is imported from. -/
def space : Native → String
  | systemExit => systemSpace
  | _ => nativeSpace

/-- The name that a callback is imported under. -/
def name : Native → String
  | sum => "sandbox_sum"
  | print => "sandbox_print"
  | printString => "sandbox_print_string"
  | startBenchmark => "sandbox_start_benchmark"
  | stopBenchmark => "sandbox_stop_benchmark"
  | eventIdLength => "sandbox_get_event_id_len"
  | eventPayloadLength => "sandbox_get_event_payload_len"
  | eventId => "sandbox_get_event_id"
  | eventPayload => "sandbox_get_event_payload"
  | exit => "sandbox_exit"
  | systemExit => "proc_exit"
  | counterExceeded => "sandbox_counter_exceeded"

/-- The type of a callback. -/
def type : Native → Wasm.FuncType
  | sum => ⟨[.i32, .i32], [.i32]⟩
  | print => ⟨[.i32], []⟩
  | printString => ⟨[.i32], []⟩
  | startBenchmark => ⟨[], []⟩
  | stopBenchmark => ⟨[], []⟩
  | eventIdLength => ⟨[], [.i32]⟩
  | eventPayloadLength => ⟨[], [.i32]⟩
  | eventId => ⟨[.i32, .i32], [.i32]⟩
  | eventPayload => ⟨[.i32, .i32], [.i32]⟩
  | exit => ⟨[.i32], []⟩
  | systemExit => ⟨[.i32], []⟩
  | counterExceeded => ⟨[], []⟩

end Native

end Embedder
