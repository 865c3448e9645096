namespace Embedder

/-!
# Configuration

What a host can be configured with, and what it takes where nothing is said.

* `ModuleConfig`, `RuntimeConfig`: sizes and limits.
* `RunConfig`: what a benchmark runs.
* `ConfigFile`: both together.
-/

/-- The reservations of a module that a runner brings up. -/
structure ModuleConfig where
  stackSize : UInt32 := 1048576
  heapSize : UInt32 := 67108864
  deriving DecidableEq, Repr, Inhabited

/-- The sizes and limits of a runtime. -/
structure RuntimeConfig where
  heapSizeBytes : UInt64 := 73400320
  maxWasmStack : UInt32 := 1048576
  maxBytecodeSize : UInt64 := 33554432
  module : ModuleConfig := {}
  execStackSize : UInt32 := 1048576
  deriving DecidableEq, Repr, Inhabited

/-- What a benchmark runs: how often, up to which instruction count, with which event, and with
which header before every line that is printed. -/
structure RunConfig where
  repetitions : UInt32 := 5
  threshold : UInt64 := 9223372036854775807
  eventId : String := "event-0"
  eventPayload : String := "EventMessage"
  printHeader : Option String := none
  deriving DecidableEq, Repr, Inhabited

/-- The contents of a configuration file. -/
structure ConfigFile where
  runtime : RuntimeConfig := {}
  run : RunConfig := {}
  deriving DecidableEq, Repr, Inhabited

end Embedder
