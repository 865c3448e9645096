import Embedder.Host.Benchmark
import Embedder.Host.Blocks

namespace Embedder.Session

/-!
# Steps and answers

What can be asked of a session, and what it answers. A session knows its objects by name; each kind
of object has names of its own.

* `Kind`, `Slot`: the kinds of objects, and their names.
* `Literal`: values as they are written, before the type they are meant for is known.
* `Step`, `Answer`: requests and answers.
-/

-- Powers are those of the core library, whatever else is imported.
attribute [local instance (1100)] instPowNat

/-! ### Names -/

/-- The kinds of objects that have names. The commons are a runtime's budget and output, which
outlive it. -/
inductive Kind where
  | runtime
  | commons
  | module
  | inst
  | environment
  | block
  | runner
  deriving DecidableEq, Repr

/-- Whether an object of a kind can have several holders. -/
def Kind.isShared : Kind → Bool
  | .runtime | .module | .inst => true
  | .commons | .environment | .block | .runner => false

/-- The name of an object. -/
structure Slot where
  kind : Kind
  name : String
  deriving DecidableEq, Repr

/-! ### Literals -/

/-- A value as it is written. -/
inductive Literal where
  | number (v : Int)
  | text (s : String)
  deriving DecidableEq, Repr

/-- The number that a literal stands for, in digits or as a text of digits. -/
def Literal.int? : Literal → Option Int
  | .number v => some v
  | .text s => s.toInt?

/-- The bit pattern that a literal stands for, as a text of hexadecimal digits after `0x`. -/
def Literal.bits? : Literal → Option Nat
  | .number _ => none
  | .text s =>
    if s.startsWith "0x" then
      (s.toList.drop 2).foldlM (fun n c => (Bytes.hexValue? c).map (16 * n + ·)) 0
    else none

/-- The bytes that a literal stands for, as a text of hexadecimal digits. -/
def Literal.bytes? : Literal → Option Bytes
  | .number _ => none
  | .text s => Bytes.ofHex? s

/-- The value of a guest type that a literal stands for. -/
def Literal.datum? (t : GuestType) (l : Literal) : Option Datum :=
  let d :=
    match t.form with
    | .unsigned => l.int?.map Datum.int
    | .signed => l.int?.map Datum.int
    | .float => l.bits?.map Datum.bits
    | .raw => l.bytes?.map Datum.raw
  d.filter t.accepts

/-- The integer of a literal, if it lies in a range. -/
def Literal.inRange? (low high : Int) (l : Literal) : Option Int :=
  l.int?.filter fun v => low ≤ v && v ≤ high

/-- The host value of a type that a literal stands for. -/
def Literal.hostValue? (l : Literal) : HostType → Option HostValue
  | .i32 => (l.inRange? (-2 ^ (31 : Nat)) (2 ^ (31 : Nat) - 1)).map fun v => .i32 (Int32.ofInt v)
  | .u32 => (l.inRange? 0 (2 ^ (32 : Nat) - 1)).map fun v => .u32 (UInt32.ofNat v.toNat)
  | .i64 => (l.inRange? (-2 ^ (63 : Nat)) (2 ^ (63 : Nat) - 1)).map fun v => .i64 (Int64.ofInt v)
  | .u64 => (l.inRange? 0 (2 ^ (64 : Nat) - 1)).map fun v => .u64 (UInt64.ofNat v.toNat)
  | .f32 => (l.bits?.filter (· < 2 ^ (32 : Nat))).map fun n => .f32 (UInt32.ofNat n)
  | .f64 => (l.bits?.filter (· < 2 ^ (64 : Nat))).map fun n => .f64 (UInt64.ofNat n)

/-! ### Steps -/

/-- An argument of a call: a value, or the address of a block. -/
inductive Argument where
  | value (v : HostValue)
  | block (name : String)
  deriving DecidableEq, Repr

/-- A call of an exported function. -/
structure CallRequest where
  function : String
  args : List Argument
  results : List HostType
  deriving DecidableEq, Repr

/-- What is written into a block: one value, or all values of an array. -/
inductive Contents where
  | one (l : Literal)
  | all (ls : List Literal)
  deriving DecidableEq, Repr

/-- What can be asked of a runtime. Here and below, `into` is the name that a new object gets. -/
inductive RuntimeStep where
  | budget
  | output
  | clearOutput
  | print (bytes : Bytes)
  | load (into : String) (bytecode : Bytes)
  | loadText (into text : String)
  | createRunner (into : String) (bytecode eventId payload : Bytes) (config : ModuleConfig)
      (execStack : Nat)
  | benchmark (plain instrumented : Bytes) (run : RunConfig)

/-- What can be asked of a module. -/
inductive ModuleStep where
  | bytecode
  | instantiate (into : String) (stack heap : Nat)

/-- What can be asked of an instance. -/
inductive InstanceStep where
  | createEnvironment (into : String) (stack : Nat)
  | getGlobal (name : String) (type : HostType)
  | setGlobal (name : String) (value : HostValue)
  | memorySize
  | heapStats
  | hasException
  | exceptionMessage
  | exception
  | clearException
  | setException (fault : Fault)
  | allocate (into : String) (type : GuestType) (value : Literal)
  | allocateArray (into : String) (type : GuestType) (count : Nat)
  | readCounter
  | readCounters
  | resetCounters

/-- What can be asked of a block. -/
inductive BlockStep where
  | read
  | write (contents : Contents)
  | get (index : Nat)
  | set (index : Nat) (value : Literal)
  | address
  | move (into : String)

/-- What can be asked of an environment. -/
inductive EnvironmentStep where
  | call (request : CallRequest)
  | callDirectly (request : CallRequest)
  | callAll (requests : List CallRequest)
  | userData
  | setUserData (eventId payload : Bytes)
  | editUserData (edit : UserData.Edit)
  | owner

/-- What can be asked of a runner. -/
inductive RunnerStep where
  | runPlain
  | runInstrumented (threshold : UInt64)
  | reset
  | state
  | takeInstance (into : String)

/-- What a session can be asked. -/
inductive Step where
  /-- Create a runtime; `onPrint` are the steps to run after every print to its output. -/
  | createRuntime (into : String) (config : RuntimeConfig) (natives : List NativeGroup)
      (clock : List Reading) (header : Option Bytes) (onPrint : List Step)
  | runtime (name : String) (s : RuntimeStep)
  | module (name : String) (s : ModuleStep)
  | inst (name : String) (s : InstanceStep)
  | block (name : String) (s : BlockStep)
  | environment (name : String) (s : EnvironmentStep)
  | runner (name : String) (s : RunnerStep)
  | drop (slot : Slot)
  | clone (slot : Slot) (into : String)
  | holders (slot : Slot)
  | same (a b : Slot)
  | debug (slot : Slot)
  /-- Take what was answered to the steps of hooks. -/
  | takeHooked
  /-- Take the record of dropped values. -/
  | takeReleased

/-! ### Answers -/

/-- Who stands behind an environment: the module's hash, the budget, and how many hold the instance,
the module and the runtime. -/
structure Owner where
  hash : String
  budget : Budget
  instances : Nat
  modules : Nat
  runtimes : Nat
  deriving DecidableEq, Repr

/-- What is known of a runner. -/
structure RunnerState where
  threshold : UInt64
  counter : UInt64
  userData : UserData
  exception : Except Error (Option Fault)
  hash : String

/-- What an answer may contain. -/
inductive Payload where
  | nothing
  | flag (b : Bool)
  | number (n : Nat)
  | amount (n : Nat)
  | text (s : Option String)
  | bytes (bs : Bytes)
  | budget (b : Budget)
  | output (bs : Bytes)
  | module (hash : String) (length : Nat) (exports : List String)
  | inst (memory : Nat) (heap : Option HeapStats)
  | heap (stats : Option HeapStats)
  | hostValue (v : HostValue)
  | fault (f : Option Fault)
  | block (address size : Nat)
  | array (address count size : Nat)
  | datum (type : GuestType) (d : Datum)
  | data (type : GuestType) (ds : List Datum)
  | released (ns : List Nat)
  | userData (u : UserData)
  | counters (c : Counters)
  | outcome (o : Outcome)
  | runnerState (s : RunnerState)
  | report (r : Report)
  | owner (o : Owner)

/-- The end of one call: its results, and the phase of the invoker after it. -/
structure CallAnswer where
  result : Except Error (List HostValue)
  phase : Phase

/-- What a session answers. -/
inductive Answer where
  /-- There is no object of that name, or the step did not come to its end. -/
  | absent
  /-- Something that cannot fail. -/
  | plain (p : Payload)
  /-- Something that may fail. -/
  | result (r : Except Error Payload)
  | called (c : CallAnswer)
  | calledAll (cs : List CallAnswer)
  /-- What was answered to the steps of hooks, a list for every print. -/
  | hooked (answers : List (List Answer))

end Embedder.Session
