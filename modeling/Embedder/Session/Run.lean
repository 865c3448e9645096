import Embedder.Interpreter
import Embedder.Session.Basic

namespace Embedder.Session

/-!
# Running a session

* `actOnRuntime`, `actOnModule`, and so on: the steps by what they are asked of.
* `act`: one step, with a given treatment of printed bytes.
* `hookedPrinter`: bytes go to the output, and then the steps of its hook are run.
* `step`, `run`: one step of a session, and all of them.
-/

open SessionM

variable [Engine]

/-! ### Views -/

/-- The budget of some commons. -/
def budgetView (commons : Nat) : SessionM Payload := do
  pure (.budget (← ofOption ((← get).commons? commons)).budget)

/-- What is shown of a new module. -/
def moduleView (id : Nat) : SessionM Payload := do
  let m ← ofOption ((← get).module? id)
  pure (.module m.contentHash m.bytecode.length m.exports)

/-- What is shown of a new instance. -/
def instanceView (id : Nat) : SessionM Payload := do
  let i ← ofOption ((← get).instance? id)
  let s ← ofOption i.store
  let memory := (i.memory.bind fun m => s.guest.memories[m]?).map Wasm.Memory.size
  pure (.inst (memory.getD 0) (s.heap.map Heap.stats))

/-- What is shown of a new block. -/
def blockView (id : Nat) : SessionM Payload := do
  let b ← ofOption ((← get).blocks.get? id)
  pure <|
    match b.count with
    | none => .block b.start b.type.size
    | some count => .array b.start count (count * b.type.size)

/-- Nothing is shown. -/
def noView (_ : Nat) : SessionM Payload :=
  pure .nothing

/-- The answer of what succeeds without a value. -/
def unit (_ : Unit) : Payload :=
  .nothing

/-! ### Runtimes -/

/-- Create a runtime, and name its commons and keep its hook, too. -/
def createRuntime (into : String) (config : RuntimeConfig) (natives : List NativeGroup)
    (clock : List Reading) (header : Option Bytes) (onPrint : List Step) : SessionM Answer := do
  let clock := Clock.ofReadings clock (.error (.unavailable "script exhausted"))
  match ← host (HostM.createRuntime config natives (.ofHeader header) clock) with
  | .error e => pure (.result (.error e))
  | .ok (id, commons) => do
    keep .runtime into id
    keep .commons into commons
    if !onPrint.isEmpty then
      modify fun s => { s with app := { s.app with hooks := s.app.hooks.set commons onPrint } }
    pure (.result (.ok (← budgetView commons)))

/-- The steps asked of a runtime, or of the commons that outlive it. -/
def actOnRuntime (printer : Printer Slots) (name : String) : RuntimeStep → SessionM Answer
  | .budget => do
    pure (.plain (← budgetView (← find .commons name)))
  | .output => do
    let c ← ofOption ((← get).commons? (← find .commons name))
    pure (.plain (.output c.output.captured))
  | .clearOutput => do
    let id ← find .commons name
    modify fun s => { s with commons := s.commons.modify id fun c =>
      { c with output := { c.output with captured := [] } } }
    pure (.plain .nothing)
  | .print bytes => do
    let r ← ofOption ((← get).runtime? (← find .runtime name))
    modify (printer r.commons bytes)
    pure (.plain .nothing)
  | .load into bytecode => do
    create .module into (HostM.load (← find .runtime name) bytecode) moduleView
  | .loadText into text => do
    create .module into (HostM.loadText (← find .runtime name) text) moduleView
  | .createRunner into bytecode eventId payload config execStack => do
    let id ← find .runtime name
    holding .runtime id <| create .runner into
      (HostM.createRunner printer id bytecode eventId payload config execStack) noView
  | .benchmark plain instrumented run => do
    let id ← find .runtime name
    holding .runtime id do
      match ← host (HostM.benchmark printer id run plain instrumented) with
      | .ok report => pure (.plain (.report report))
      | .error e => pure (.result (.error e))

/-! ### Modules and instances -/

/-- The steps asked of a module. -/
def actOnModule (printer : Printer Slots) (name : String) (s : ModuleStep) : SessionM Answer := do
  let id ← find .module name
  match s with
  | .bytecode => do
    pure (.plain (.bytes (← ofOption ((← get).module? id)).bytecode))
  | .instantiate into stack heap =>
    create .inst into (HostM.instantiate printer id stack heap) instanceView

/-- The steps asked of an instance. -/
def actOnInstance (name : String) (s : InstanceStep) : SessionM Answer := do
  let id ← find .inst name
  match s with
  | .createEnvironment into stack =>
    create .environment into (HostM.createEnvironment id stack) fun _ => pure (.number stack)
  | .getGlobal global type => answer .hostValue (HostM.getGlobal id global type)
  | .setGlobal global value => answer unit (HostM.setGlobal id global value)
  | .memorySize => answer .amount (HostM.memorySize id)
  | .heapStats => answer .heap (HostM.heapStats id)
  | .hasException => answer (fun f => .flag f.isSome) (HostM.exception? id)
  | .exceptionMessage => answer (fun f => .text (f.map Fault.message)) (HostM.exception? id)
  | .exception => answer .fault (HostM.exception? id)
  | .clearException => answer .fault (HostM.clearException id)
  | .setException fault => answer unit (HostM.setException id fault)
  | .allocate into type value => do
    let d ← ofOption (value.datum? type)
    create .block into (HostM.allocate id type d) blockView
  | .allocateArray into type count =>
    create .block into (HostM.allocateArray id type count) blockView
  | .readCounter => answer (fun c => .amount c.toNat) (HostM.readCounter id)
  | .readCounters => answer .counters (HostM.readCounters id)
  | .resetCounters => answer unit (HostM.resetCounters id)

/-! ### Blocks -/

/-- The block of a name. -/
def blockOf (name : String) : SessionM Block := do
  ofOption ((← get).blocks.get? (← find .block name))

/-- Write literals into a block: one into a value, a list into an array. -/
def writeLiterals (b : Block) : Contents → SessionM Answer
  | .one l => do
    if b.count.isSome then failure
    let d ← ofOption (l.datum? b.type)
    answer unit (HostM.writeValue b d)
  | .all ls => do
    if b.count.isNone then failure
    let ds ← ofOption (ls.mapM (Literal.datum? b.type))
    attempt unit (HostM.writeAll b ds)

/-- The steps asked of a block. Only arrays have elements. -/
def actOnBlock (name : String) (s : BlockStep) : SessionM Answer := do
  let b ← blockOf name
  match s with
  | .read =>
    match b.count with
    | none => answer (.datum b.type) (HostM.readValue b)
    | some _ => attempt (.data b.type) (HostM.readAll b)
  | .write contents => writeLiterals b contents
  | .get index => do
    if b.count.isNone then failure
    answer (.datum b.type) (HostM.getElement b index)
  | .set index value => do
    if b.count.isNone then failure
    let d ← ofOption (value.datum? b.type)
    answer unit (HostM.setElement b index d)
  | .address => pure (.plain (.number b.start))
  | .move into => do
    let id ← find .block name
    modify (·.modifyNames (·.erase ⟨.block, name⟩))
    keep .block into id
    pure (.plain .nothing)

/-! ### Environments -/

/-- The host value of an argument; a block is passed as its address. -/
def argumentValue : Argument → SessionM HostValue
  | .value v => pure v
  | .block name => do
    pure (.u32 (UInt32.ofNat (← blockOf name).start))

/-- One call, by an invoker that may have made others before. -/
def callWith (printer : Printer Slots) (v : Invoker) (request : CallRequest)
    (args : List HostValue) : StateM Session (CallAnswer × Invoker) := do
  let (result, v, s) := v.call printer request.function args request.results (← get)
  set s
  pure (⟨result, v.phase⟩, v)

/-- Calls one after another by one invoker. -/
def callEach (printer : Printer Slots) (v : Invoker) :
    List (CallRequest × List HostValue) → StateM Session (List CallAnswer)
  | [] => pure []
  | (request, args) :: rest => do
    let (first, v) ← callWith printer v request args
    let others ← callEach printer v rest
    pure (first :: others)

/-- The value of a call that was made for a single one. -/
def singleResult : List HostValue → Payload
  | [v] => .hostValue v
  | _ => .nothing

/-- The environment of a name. -/
def environmentOf (name : String) : SessionM (Nat × Environment) := do
  let id ← find .environment name
  pure (id, ← ofOption ((← get).environments.get? id))

/-- Give an environment other user data, if there is any. -/
def replaceUserData (id : Nat) (userData : Except Error UserData) (shown : UserData → Payload) :
    SessionM Answer :=
  match userData with
  | .error e => pure (.result (.error e))
  | .ok userData => do
    modify fun s => s.modifyEnvironment id fun e => { e with userData }
    pure (.plain (shown userData))

/-- Who stands behind an environment. -/
def ownerOf (e : Environment) : SessionM Owner := do
  let s ← get
  let i ← ofOption (s.instances.get? e.inst)
  let m ← ofOption (s.modules.get? i.value.module)
  let r ← ofOption (s.runtimes.get? m.value.runtime)
  let c ← ofOption (s.commons? r.value.commons)
  pure ⟨m.value.contentHash, c.budget, i.holders, m.holders, r.holders⟩

/-- The steps asked of an environment. It has no name while a call runs in it. -/
def actOnEnvironment (printer : Printer Slots) (name : String) :
    EnvironmentStep → SessionM Answer
  | .call request => do
    let args ← request.args.mapM argumentValue
    away .environment name fun id => do
      let (result, _) ← OptionT.lift (callWith printer (.ofEnvironment id) request args)
      pure (.called result)
  | .callDirectly request => do
    let args ← request.args.mapM argumentValue
    away .environment name fun id =>
      answer singleResult (HostM.call printer id request.function args request.results)
  | .callAll requests => do
    let args ← requests.mapM fun r => r.args.mapM argumentValue
    away .environment name fun id => do
      let results ← OptionT.lift (callEach printer (.ofEnvironment id) (requests.zip args))
      pure (.calledAll results)
  | .userData => do
    let (_, e) ← environmentOf name
    pure (.plain (.userData e.userData))
  | .setUserData eventId payload => do
    let (id, _) ← environmentOf name
    replaceUserData id (UserData.withEvent eventId payload) fun _ => .nothing
  | .editUserData edit => do
    let (id, e) ← environmentOf name
    replaceUserData id (e.userData.edit edit) .userData
  | .owner => do
    let (_, e) ← environmentOf name
    pure (.plain (.owner (← ownerOf e)))

/-! ### Runners -/

/-- What is known of a runner. -/
def runnerStateOf (r : Runner) : SessionM RunnerState := do
  let s ← get
  let e ← ofOption (s.environments.get? r.environment)
  let m ← ofOption (s.module? r.module)
  let exception ← host (HostM.exception? r.inst)
  pure ⟨r.threshold, r.counter, e.userData, exception, m.contentHash⟩

/-- The steps asked of a runner. It has no name while it runs. -/
def actOnRunner (printer : Printer Slots) (name : String) : RunnerStep → SessionM Answer
  | .runPlain => away .runner name fun id => answer .outcome (HostM.runPlain printer id)
  | .runInstrumented threshold =>
    away .runner name fun id => answer .outcome (HostM.runInstrumented printer id threshold)
  | .reset => away .runner name fun id => answer unit (HostM.resetRunner id)
  | .state => do
    let r ← ofOption ((← get).runners.get? (← find .runner name))
    pure (.plain (.runnerState (← runnerStateOf r)))
  | .takeInstance into => do
    let r ← ofOption ((← get).runners.get? (← find .runner name))
    modify (·.retainInstance r.inst)
    keep .inst into r.inst
    pure (.plain .nothing)

/-! ### All steps -/

/-- One step; it fails if an object that it names is missing, or cannot be what is asked for, and if
it panics. -/
def act (printer : Printer Slots) : Step → SessionM Answer
  | .createRuntime into config natives clock header onPrint =>
    createRuntime into config natives clock header onPrint
  | .runtime name s => actOnRuntime printer name s
  | .module name s => actOnModule printer name s
  | .inst name s => actOnInstance name s
  | .block name s => actOnBlock name s
  | .environment name s => actOnEnvironment printer name s
  | .runner name s => actOnRunner printer name s
  | .drop slot => do
    let id ← find slot.kind slot.name
    modify fun s => (s.modifyNames (·.erase slot)).release slot.kind id
    pure (.plain .nothing)
  | .clone slot into => do
    if !slot.kind.isShared then failure
    let id ← find slot.kind slot.name
    modify (·.retain slot.kind id)
    keep slot.kind into id
    pure (.plain .nothing)
  | .holders slot => do
    let id ← find slot.kind slot.name
    pure (.plain (.number (← ofOption ((← get).holders? slot.kind id))))
  | .same a b => do
    let i ← find a.kind a.name
    let j ← find b.kind b.name
    pure (.plain (.flag (i = j)))
  | .debug slot => do
    let id ← find slot.kind slot.name
    pure (.plain (.text (← ofOption ((← get).debug? slot.kind id))))
  | .takeHooked => do
    let heard := (← get).app.heard
    modify fun s => { s with app := { s.app with heard := [] } }
    pure (.hooked heard)
  | .takeReleased => do
    let released := (← get).released
    modify fun s => { s with released := [] }
    pure (.plain (.released (released.map Bytes.toNat)))

/-- One step and its answer. -/
def stepWith (printer : Printer Slots) (s : Step) (session : Session) : Answer × Session :=
  match (act printer s).run session with
  | (some answer, session) => (answer, session)
  | (none, session) => (.absent, session)

/-- Several steps and their answers. -/
def runWith (printer : Printer Slots) : List Step → Session → List Answer × Session
  | [], session => ([], session)
  | s :: steps, session =>
    let (answer, session) := stepWith printer s session
    let (answers, session) := runWith printer steps session
    (answer :: answers, session)

/-- Append to the output, and then run the steps of its hook. What they print runs no hook. -/
def hookedPrinter : Printer Slots := fun commons bytes session =>
  let session := session.emit commons bytes
  match session.app.hooks.get? commons with
  | none => session
  | some steps =>
    let (answers, session) := runWith Host.emit steps session
    { session with app := { session.app with heard := session.app.heard ++ [answers] } }

/-- One step of a session. -/
def step (s : Step) (session : Session) : Answer × Session :=
  stepWith hookedPrinter s session

/-- All steps of a session that starts with nothing. -/
def run (steps : List Step) : List Answer :=
  (runWith hookedPrinter steps empty).1

end Embedder.Session
