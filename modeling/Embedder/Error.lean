import Embedder.Text.Quoted

namespace Embedder

/-!
# Errors

What can go wrong between a host and its guests.

* `FaultKind`: why a guest was unwound.
* `InitFailure`, `AllocationFailure`: the causes of a failed creation and of a failed allocation.
* `Error`: every error, with `Error.message` for its wording and `Error.debug` for its diagnostic
  form.
-/

/-! ### Faults -/

/-- Why a guest was unwound. -/
inductive FaultKind where
  /-- The guest trapped. -/
  | trap
  /-- The guest asked to end with a status. -/
  | exit (code : Int32)
  /-- The instruction counter passed its threshold. -/
  | counterExceeded
  /-- A native callback could not do its work. -/
  | hostFailure
  deriving DecidableEq, Repr

namespace FaultKind

/-- The wording of a fault kind. -/
def message : FaultKind → String
  | trap => "trap"
  | exit code => "exit " ++ toString code.toInt
  | counterExceeded => "counter exceeded"
  | hostFailure => "host failure"

/-- The diagnostic form of a fault kind. -/
def debug : FaultKind → String
  | trap => "Trap"
  | exit code => "Exit(" ++ toString code.toInt ++ ")"
  | counterExceeded => "CounterExceeded"
  | hostFailure => "HostFailure"

/-- Whether the guest was meant to end this way. -/
def isHalt : FaultKind → Bool
  | exit _ => true
  | counterExceeded => true
  | trap => false
  | hostFailure => false

end FaultKind

/-- A fault as it is latched on an instance: why, and in which words. -/
structure Fault where
  kind : FaultKind
  message : String
  deriving DecidableEq, Repr

/-! ### What an error speaks of -/

/-- The kinds of resource a host brings up. -/
inductive Resource where
  | arena
  | runtime
  | module
  | inst
  | environment
  deriving DecidableEq, Repr

/-- The name of a resource in a sentence. -/
def Resource.message : Resource → String
  | .arena => "heap arena"
  | .runtime => "runtime"
  | .module => "module"
  | .inst => "module instance"
  | .environment => "execution environment"

/-- The diagnostic form of a resource. -/
def Resource.debug : Resource → String
  | .arena => "Arena"
  | .runtime => "Runtime"
  | .module => "Module"
  | .inst => "Instance"
  | .environment => "ExecutionEnvironment"

/-- The kinds of export a host looks up. -/
inductive ExportKind where
  | function
  | global
  | memory
  deriving DecidableEq, Repr

/-- The name of an export kind, in a sentence and in the diagnostic form alike. -/
def ExportKind.message : ExportKind → String
  | .function => "Function"
  | .global => "Global"
  | .memory => "Memory"

/-- Why a clock could not be read. -/
inductive TimestampError where
  | beforeEpoch
  | unavailable (reason : String)
  deriving DecidableEq, Repr

/-- The wording of a clock error. -/
def TimestampError.message : TimestampError → String
  | .beforeEpoch => "Clock is before its epoch"
  | .unavailable reason => "Timestamp source unavailable: " ++ reason

/-- The diagnostic form of a clock error. -/
def TimestampError.debug : TimestampError → String
  | .beforeEpoch => "BeforeEpoch"
  | .unavailable reason => "Unavailable \x7b reason: " ++ Text.quoted reason ++ " \x7d"

/-! ### Causes -/

/-- Why a resource did not come up. -/
inductive InitFailure where
  /-- A budget of no bytes. -/
  | zeroCapacity
  /-- The budget has fewer bytes left than were asked for. -/
  | budgetExhausted (requested available capacity : Nat)
  /-- A stack limit of no bytes. -/
  | zeroStackLimit
  /-- The native callbacks could not be defined. -/
  | registration (reason : String)
  /-- Two native callbacks of one name. -/
  | definedTwice (space name : String)
  /-- More bytecode than allowed. -/
  | tooLarge (size limit : Nat)
  /-- Too few bytes for a header. -/
  | tooSmall
  /-- The first bytes are not those of a module. -/
  | badMagic
  /-- The module is not well formed. -/
  | compilation
  /-- The module could not be instantiated. -/
  | instantiation (cause : String)
  /-- An app heap was asked for, and there is no memory to put it into. -/
  | heapWithoutMemory
  /-- The memory could not grow by the app heap's pages. -/
  | growthRefused (pages : Nat)
  /-- The app heap would start past the last 32-bit address. -/
  | heapBeyondRange
  /-- A stack outside of what the runtime allows. -/
  | stackOutside (size limit : Nat)
  /-- Any other reason. -/
  | other (reason : String)
  deriving DecidableEq, Repr

/-- The wording of a failed creation's cause. -/
def InitFailure.message : InitFailure → String
  | zeroCapacity => "arena capacity must be non-zero"
  | budgetExhausted requested available capacity =>
    s!"heap arena exhausted: requested {requested} bytes, {available} of {capacity} available"
  | zeroStackLimit => "max_wasm_stack must be non-zero"
  | registration reason => "failed to register natives: " ++ reason
  | definedTwice space name =>
    "cannot define native `" ++ name ++ "`: import of `" ++ space ++ "::" ++ name
      ++ "` defined twice"
  | tooLarge size limit => s!"bytecode is {size} bytes, limit is {limit}"
  | tooSmall => "invalid Wasm: file too small"
  | badMagic => "invalid Wasm: bad magic number"
  | compilation => "compilation failed"
  | instantiation cause => "instantiation failed: " ++ cause
  | heapWithoutMemory => "an app heap requires an exported `memory`"
  | growthRefused pages =>
    s!"failed to grow memory by {pages} pages for the app heap: failed to grow memory by `{pages}`"
  | heapBeyondRange => "app heap lies beyond the 32-bit guest range"
  | stackOutside size limit => s!"stack size {size} outside 1..={limit}"
  | other reason => reason

/-- Why no block of guest memory was handed out. -/
inductive AllocationFailure where
  /-- An alignment the block heap cannot give. -/
  | badAlignment (align : Nat)
  /-- An array of more bytes than a 32-bit guest can address. -/
  | tooManyElements (count size : Nat)
  /-- A request of more bytes than a 32-bit guest can address. -/
  | beyondRange
  /-- The instance has no app heap. -/
  | noHeap
  /-- No free block is large enough. -/
  | exhausted
  /-- Event data of more bytes than a 32-bit guest can address. -/
  | eventBeyondRange (what : String)
  /-- Any other reason. -/
  | other (reason : String)
  deriving DecidableEq, Repr

/-- The wording of a failed allocation's cause. -/
def AllocationFailure.message : AllocationFailure → String
  | badAlignment align => s!"alignment {align} is not a power of two up to 8"
  | tooManyElements count size =>
    s!"{count} elements of {size} bytes exceed the 32-bit guest range"
  | beyondRange => "request exceeds the 32-bit guest range"
  | noHeap => "instance has no app heap"
  | exhausted => "app heap exhausted"
  | eventBeyondRange what => what ++ " does not fit a 32-bit guest"
  | other reason => reason

/-! ### Errors -/

/-- Every error a host operation can answer with. -/
inductive Error where
  /-- A resource did not come up. -/
  | initFailed (resource : Resource) (cause : InitFailure)
  /-- The guest exports nothing of that kind and name. -/
  | notFound (kind : ExportKind) (name : String)
  /-- A value, argument list or global of another type. -/
  | typeMismatch (expected found : String)
  /-- A list of another length. -/
  | sizeMismatch (expected actual : Nat)
  /-- No block of guest memory. -/
  | allocation (requested : Nat) (cause : AllocationFailure)
  /-- The guest was unwound, or was not entered because of an earlier fault. -/
  | guestTrap (fault : Fault)
  /-- The clock could not be read. -/
  | timestamp (cause : TimestampError)
  /-- An index or address past the end. -/
  | outOfBounds (index length : Nat)
  /-- Another operation holds the instance. -/
  | busy
  /-- A file could not be read. -/
  | io (reason : String)
  /-- Nothing is known under that name or number. -/
  | badHandle
  deriving DecidableEq, Repr

namespace Error

/-- The wording of an error. -/
def message : Error → String
  | initFailed resource cause =>
    "Failed to initialize " ++ resource.message ++ ": " ++ cause.message
  | notFound kind name => kind.message ++ " not found: " ++ name
  | typeMismatch expected found => "Type mismatch: expected " ++ expected ++ ", found " ++ found
  | sizeMismatch expected actual => s!"Size mismatch: expected {expected} elements, got {actual}"
  | allocation requested cause =>
    s!"Guest allocation of {requested} bytes failed: " ++ cause.message
  | guestTrap fault => "Guest trap (" ++ fault.kind.message ++ "): " ++ fault.message
  | timestamp cause => "Timestamp error: " ++ cause.message
  | outOfBounds index length => s!"Index {index} out of bounds (length {length})"
  | busy => "Module instance is busy"
  | io reason => "IO error: " ++ reason
  | badHandle => "Unknown handle"

/-- The diagnostic form of a record: its name, and its fields between braces. -/
def record (name : String) (fields : List (String × String)) : String :=
  name ++ " \x7b " ++ ", ".intercalate (fields.map fun f => f.1 ++ ": " ++ f.2) ++ " \x7d"

/-- The diagnostic form of an error. -/
def debug : Error → String
  | initFailed resource cause =>
    record "ResourceInitialization"
      [("resource", resource.debug), ("reason", Text.quoted cause.message)]
  | notFound kind name => record "Lookup" [("kind", kind.message), ("name", Text.quoted name)]
  | typeMismatch expected found =>
    record "TypeMismatch" [("expected", Text.quoted expected), ("found", Text.quoted found)]
  | sizeMismatch expected actual =>
    record "SizeMismatch" [("expected", toString expected), ("actual", toString actual)]
  | allocation requested cause =>
    record "Allocation" [("requested", toString requested), ("reason", Text.quoted cause.message)]
  | guestTrap fault =>
    record "GuestTrap" [("kind", fault.kind.debug), ("message", Text.quoted fault.message)]
  | timestamp cause => "Timestamp(" ++ cause.debug ++ ")"
  | outOfBounds index length =>
    record "OutOfBounds" [("index", toString index), ("len", toString length)]
  | busy => "InstanceBusy"
  | io reason => "Io(" ++ record "Custom" [("kind", "NotFound"), ("error", Text.quoted reason)] ++ ")"
  | badHandle => "BadHandle"

/-- The fault of an error that reports one. -/
def faultKind? : Error → Option FaultKind
  | guestTrap fault => some fault.kind
  | _ => none

/-- Whether nothing is exported under the name asked for. -/
def isNotFound : Error → Bool
  | notFound .. => true
  | _ => false

/-- Whether the error reports a guest that was meant to end. -/
def isHalt (e : Error) : Bool :=
  e.faultKind?.any FaultKind.isHalt

end Error

end Embedder
