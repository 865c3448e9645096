import Embedder.Config.File
import Embedder.Host.Benchmark
import Embedder.Interpreter

namespace Embedder.CommandLine

/-!
# The command line

The plain and the instrumented build of a guest program are run as a configuration file, the
environment and the flags say.

* `Options`, `Request`: what a command line asks for.
* `parse`: the request of a list of arguments, or that they make none.
* `Options.override`: the configuration in effect.
* `execute`: a run, given the contents of files and the readings of the clock.
-/

-- Powers are those of the core library, whatever else is imported.
attribute [local instance (1100)] instPowNat

/-! ### Options -/

/-- What the arguments and the environment ask for. -/
structure Options where
  plain : String
  instrumented : String
  config : Option String
  repetitions : Option UInt32
  threshold : Option UInt64
  eventId : Option String
  payload : Option String
  header : Option String
  systemClock : Bool
  deriving DecidableEq, Repr

/-- What a command line asks for. -/
inductive Request where
  | run (options : Options)
  | help
  | version
  deriving DecidableEq, Repr

/-- The flags that take a value. -/
inductive Flag where
  | config
  | repetitions
  | threshold
  | eventId
  | payload
  | header
  deriving DecidableEq, Repr

/-- The name of a flag. -/
def Flag.name : Flag → String
  | .config => "config"
  | .repetitions => "repeat"
  | .threshold => "threshold"
  | .eventId => "event-id"
  | .payload => "payload"
  | .header => "header"

/-- The variable of the environment that stands in for a flag. -/
def Flag.variable? : Flag → Option String
  | .config => some "WASM_SANDBOX_CONFIG"
  | .repetitions => some "WASM_SANDBOX_REPEAT"
  | .threshold => some "WASM_SANDBOX_THRESHOLD"
  | _ => none

/-- The flags that take a value. -/
def Flag.all : List Flag :=
  [.config, .repetitions, .threshold, .eventId, .payload, .header]

/-! ### Values -/

/-- The number of decimal digits, of which there has to be one. -/
def digits? (cs : List Char) : Option Nat :=
  if cs.isEmpty || !cs.all Char.isDigit then none
  else some (cs.foldl (fun n c => 10 * n + (c.toNat - 48)) 0)

/-- A number of repetitions: at most 32 bits, with a sign if need be. -/
def repetitions? (value : String) : Option UInt32 := do
  let v : Int ←
    match value.toList with
    | '-' :: cs => (digits? cs).map fun n => -(n : Int)
    | '+' :: cs => (digits? cs).map Int.ofNat
    | cs => (digits? cs).map Int.ofNat
  if 0 ≤ v ∧ v < 2 ^ (32 : Nat) then some (UInt32.ofNat v.toNat) else none

/-- A threshold: at most 64 bits, with a plus sign if need be. -/
def threshold? (value : String) : Option UInt64 := do
  let n ←
    match value.toList with
    | '+' :: cs => digits? cs
    | cs => digits? cs
  if n < 2 ^ (64 : Nat) then some (UInt64.ofNat n) else none

/-- Whether a value is one that a flag takes. A path must not be empty. -/
def Flag.accepts (f : Flag) (value : String) : Bool :=
  match f with
  | .config => !value.isEmpty
  | .repetitions => (repetitions? value).isSome
  | .threshold => (threshold? value).isSome
  | _ => true

/-! ### Arguments -/

/-- The arguments as far as they have been read: paths, values of flags, and the clock. -/
structure Reading where
  paths : List String
  values : List (Flag × String)
  systemClock : Bool

namespace Reading

/-- Nothing read yet. -/
def empty : Reading :=
  ⟨[], [], false⟩

/-- The value given for a flag. -/
def get? (r : Reading) (f : Flag) : Option String :=
  (r.values.find? fun v => v.1 = f).map Prod.snd

/-- One more path; there are two. -/
def addPath? (r : Reading) (path : String) : Option Reading :=
  if path.isEmpty || 2 ≤ r.paths.length then none else some { r with paths := r.paths ++ [path] }

/-- The value of a flag, which must be acceptable and may be given once. -/
def addValue? (r : Reading) (f : Flag) (value : String) : Option Reading :=
  if (r.get? f).isSome || !f.accepts value then none
  else some { r with values := r.values ++ [(f, value)] }

/-- Take the time from the system's clock; this may be asked for once. -/
def useSystemClock? (r : Reading) : Option Reading :=
  if r.systemClock then none else some { r with systemClock := true }

end Reading

/-- How one argument goes on. -/
inductive Progress where
  /-- The arguments after it are next. -/
  | next (r : Reading)
  /-- The argument after it is the flag's value. -/
  | awaits (f : Flag)
  /-- The request is known. -/
  | done (r : Request)

/-- A long flag without its two dashes. -/
def readLong (r : Reading) (text : List Char) : Option Progress :=
  let name := String.ofList (text.takeWhile (· ≠ '='))
  let value :=
    match text.dropWhile (· ≠ '=') with
    | _ :: value => some (String.ofList value)
    | [] => none
  match Flag.all.find? fun f => f.name = name, value with
  | some f, some value => (r.addValue? f value).map .next
  | some f, none => some (.awaits f)
  | none, none =>
    if name = "system-clock" then r.useSystemClock?.map .next
    else if name = "help" then some (.done .help)
    else if name = "version" then some (.done .version)
    else none
  | none, some _ => none

/-- Short flags without their dash. -/
def readShort (r : Reading) : List Char → Option Progress
  | 'h' :: _ => some (.done .help)
  | 'V' :: _ => some (.done .version)
  | ['c'] => some (.awaits .config)
  | 'c' :: '=' :: value => (r.addValue? .config (String.ofList value)).map .next
  | 'c' :: value => (r.addValue? .config (String.ofList value)).map .next
  | _ => none

/-- One argument. -/
def readArgument (r : Reading) (arg : String) : Option Progress :=
  match arg.toList with
  | '-' :: '-' :: text => readLong r text
  | ['-'] => (r.addPath? arg).map .next
  | '-' :: text => readShort r text
  | _ => (r.addPath? arg).map .next

/-- Whether an argument can be the value of the flag before it. -/
def isValue (arg : String) : Bool :=
  match arg.toList with
  | ['-'] => true
  | '-' :: _ => false
  | _ => true

/-- All arguments; after two dashes they are all paths. -/
def readAll : Reading → List String → Option (Reading ⊕ Request)
  | r, [] => some (.inl r)
  | r, "--" :: args => (args.foldlM Reading.addPath? r).map .inl
  | r, arg :: args =>
    match readArgument r arg with
    | none => none
    | some (.next r) => readAll r args
    | some (.done request) => some (.inr request)
    | some (.awaits f) =>
      match args with
      | [] => none
      | value :: args =>
        if isValue value then (r.addValue? f value).bind fun r => readAll r args else none

/-- The value of a flag: from the arguments, or else from the environment, where it must be
acceptable, too. -/
def valueOf? (env : String → Option String) (r : Reading) (f : Flag) :
    Option (Option String) :=
  match r.get? f with
  | some value => some (some value)
  | none =>
    match f.variable?.bind env with
    | none => some none
    | some value => if f.accepts value then some (some value) else none

/-- The options of arguments that have been read. -/
def optionsOf? (env : String → Option String) (r : Reading) : Option Options := do
  let [plain, instrumented] := r.paths | none
  pure {
    plain
    instrumented
    config := ← valueOf? env r .config
    repetitions := (← valueOf? env r .repetitions).bind repetitions?
    threshold := (← valueOf? env r .threshold).bind threshold?
    eventId := ← valueOf? env r .eventId
    payload := ← valueOf? env r .payload
    header := ← valueOf? env r .header
    systemClock := r.systemClock }

/-- What a command line asks for. -/
def parse (args : List String) (env : String → Option String) : Option Request := do
  match ← readAll .empty args with
  | .inr request => pure request
  | .inl r => pure (.run (← optionsOf? env r))

/-! ### Execution -/

/-- The run configuration in effect: what the options say, and else what the file says. -/
def Options.override (o : Options) (c : RunConfig) : RunConfig where
  repetitions := o.repetitions.getD c.repetitions
  threshold := o.threshold.getD c.threshold
  eventId := o.eventId.getD c.eventId
  eventPayload := o.payload.getD c.eventPayload
  printHeader := o.header <|> c.printHeader

/-- How a command line ends: its status, what it prints, why it failed, and how often it asked for
the time. -/
structure Execution where
  status : Nat
  output : Bytes
  problem : Option String
  asked : Nat
  deriving DecidableEq, Repr

/-- An execution that printed nothing. -/
def Execution.failed (problem : String) : Execution :=
  ⟨1, [], some problem, 0⟩

/-- The host of a benchmark after a runtime has been created with all callbacks, and that
runtime. -/
def startHost (config : ConfigFile) (clock : Clock) : Except Error (Nat × Nat) × Host Unit :=
  let header := config.run.printHeader.map Bytes.ofText
  (HostM.createRuntime config.runtime [.all] (.ofHeader header) clock).run (Host.empty ())

variable [Engine]

/-- Run the benchmark of a configuration. -/
def runConfigured (config : ConfigFile) (plain instrumented : Bytes) (clock : Clock) :
    Execution :=
  match startHost config clock with
  | (.error e, _) => .failed ("Failed to create runtime: " ++ e.message)
  | (.ok (runtime, commons), h) =>
    let (result, h) :=
      (HostM.benchmark Host.emit runtime config.run plain instrumented).run h
    let problem :=
      match result with
      | .ok report => report.error
      | .error e => some e
    match h.commons? commons with
    | none => .failed "Benchmark failed"
    | some c =>
      { status := if problem.isSome then 1 else 0
        output := c.output.captured
        problem := problem.map fun e => "Benchmark failed: " ++ e.message
        asked := c.clock.asked }

/-- The configuration that a run starts from. -/
def baseConfig (files : String → Option Bytes) (o : Options) :
    Except ConfigFileError ConfigFile :=
  match o.config with
  | none => .ok {}
  | some path => ConfigFile.ofContent (files path)

/-- Run what the options say, with the contents of files and the readings of a clock. -/
def execute (o : Options) (files : String → Option Bytes) (clock : Clock) : Execution :=
  match baseConfig files o with
  | .error e => .failed (e.message (o.config.getD ""))
  | .ok base =>
    let config := { base with run := o.override base.run }
    match bytecodeOfContent (files o.plain), bytecodeOfContent (files o.instrumented) with
    | .error e, _ => .failed ("Failed to read Wasm file '" ++ o.plain ++ "': " ++ e.message)
    | _, .error e =>
      .failed ("Failed to read Wasm file '" ++ o.instrumented ++ "': " ++ e.message)
    | .ok plain, .ok instrumented => runConfigured config plain instrumented clock

/-! ### Fixed texts -/

/-- What is printed when the version is asked for. -/
def versionText : String :=
  "wasm-sandbox 0.1.0\n"

/-- What is printed when help is asked for. -/
def helpText (env : String → Option String) : String :=
  let set (key : String) : String := " [env: " ++ key ++ "=" ++ (env key).getD "" ++ "]"
  "\n".intercalate
    ["Host-side ownership and marshalling layer for sandboxed WebAssembly modules",
      "",
      "Usage: wasm-sandbox [OPTIONS] <PLAIN> <INSTRUMENTED>",
      "",
      "Arguments:",
      "  <PLAIN>         Plain build of the guest program (.wasm)",
      "  <INSTRUMENTED>  Instrumented build of the same program (.wasm)",
      "",
      "Options:",
      "  -c, --config <CONFIG>        TOML configuration file" ++ set "WASM_SANDBOX_CONFIG",
      "      --repeat <REPEAT>        Runs per build" ++ set "WASM_SANDBOX_REPEAT",
      "      --threshold <THRESHOLD>  Instruction threshold for the instrumented build"
        ++ set "WASM_SANDBOX_THRESHOLD",
      "      --event-id <EVENT_ID>    Event identifier handed to the guest",
      "      --payload <PAYLOAD>      Event payload handed to the guest",
      "      --header <HEADER>        Prefix for every line the guest prints",
      "      --system-clock           Report benchmark timestamps as microseconds since the Unix "
        ++ "epoch",
      "  -h, --help                   Print help",
      "  -V, --version                Print version",
      ""]

/-- What a command line does. -/
def run (args : List String) (env : String → Option String) (files : String → Option Bytes)
    (clock : Clock) : Execution :=
  match parse args env with
  | none => ⟨2, [], some "invalid arguments", 0⟩
  | some .help => ⟨0, Bytes.ofText (helpText env), none, 0⟩
  | some .version => ⟨0, Bytes.ofText versionText, none, 0⟩
  | some (.run o) => execute o files clock

end Embedder.CommandLine
