import Embedder.Host.Instantiation

namespace Embedder

/-!
# Calls

A call of an exported function through an environment. It holds the instance's store while the
guest runs, lends the environment's user data to the callbacks, and latches the fault if the guest
is unwound. Everything that can refuse a call is looked at before the guest is touched.

* `Phase`, `Invoker`: where a call is, and what carries it out.
* `Host.callee`: the function that a call would enter, or why it enters none.
* `Host.invoke`: the part of a call during which the guest runs.
* `Invoker.call`: a whole call.
-/

variable [Engine] {σ : Type}

/-! ### Phases -/

/-- Where a call is. -/
inductive Phase where
  /-- No call is in progress. -/
  | idle
  /-- The arguments are being encoded. -/
  | encoding
  /-- The guest is running. -/
  | invoking
  /-- The results are being decoded. -/
  | decoding
  /-- The guest was unwound, and the fault is latched. -/
  | faulted
  deriving DecidableEq, Repr

namespace Phase

/-- Whether one phase may follow another. -/
def mayPrecede : Phase → Phase → Bool
  | idle, encoding => true
  | encoding, invoking => true
  | encoding, idle => true
  | invoking, decoding => true
  | invoking, faulted => true
  | decoding, idle => true
  | faulted, idle => true
  | _, _ => false

/-- The name of a phase. -/
def name : Phase → String
  | idle => "Idle"
  | encoding => "Encoding"
  | invoking => "Invoking"
  | decoding => "Decoding"
  | faulted => "Faulted"

end Phase

/-- Carries out calls through an environment: its phase, and the phases it has been in before, the
latest first. -/
structure Invoker where
  environment : Nat
  phase : Phase
  past : List Phase
  deriving DecidableEq, Repr

namespace Invoker

/-- An invoker that has called nothing yet. -/
def ofEnvironment (environment : Nat) : Invoker :=
  ⟨environment, .idle, []⟩

/-- The invoker in another phase. -/
def advance (v : Invoker) (next : Phase) : Invoker :=
  { v with phase := next, past := v.phase :: v.past }

/-- The invoker before a call: one whose last call faulted is idle again. -/
def ready (v : Invoker) : Invoker :=
  if v.phase = .faulted then v.advance .idle else v

end Invoker

/-! ### The function to enter -/

/-- A function that a call may enter: the store to hold, its number and its type, how many bytes of stack
its code may take up, and on whose behalf it runs. -/
structure Callee where
  caller : Caller
  room : Nat
  store : Store
  function : Nat
  type : Wasm.FuncType

namespace Host

/-- How many bytes of stack the code of an instance may take up. -/
def room (h : Host σ) (i : Instance) : Nat :=
  (((h.module? i.module).bind fun m => h.runtime? m.runtime).map
    fun r => r.config.maxWasmStack.toNat).getD 0

/-- The function that a call of an instance's export would enter. The store must be free, the name
must be a function's, and no fault may be pending. -/
def callee (h : Host σ) (id : Nat) (name : String) : Except Error Callee :=
  match h.instance? id with
  | none => .error .badHandle
  | some i =>
    match i.store with
    | none => .error .busy
    | some store =>
      match store.guest.exportedFunc? name with
      | none => .error (.notFound .function name)
      | some function =>
        match store.latch with
        | some fault =>
          .error (.guestTrap ⟨fault.kind, "pending exception: " ++ fault.message⟩)
        | none =>
          match (store.guest.funcs[function]?).map Wasm.Func.type with
          | none => .error (.notFound .function name)
          | some type => .ok ⟨⟨id, i.commons, false⟩, h.room i, store, function, type⟩

end Host

/-! ### Running the guest -/

namespace Store

/-- The store with an environment's user data lent to the call. -/
def lend (s : Store) (environment : Nat) (userData : UserData) : Store :=
  { s with active := some ⟨environment, userData⟩ }

/-- The store with no call in flight. -/
def reclaim (s : Store) : Store :=
  { s with active := none }

/-- The fault of a guest that was unwound. What a callback latched stands; otherwise the root cause
is latched as a trap. -/
def latchFailure (s : Store) (cause : String) : Fault × Store :=
  match s.latch with
  | some fault => (fault, s)
  | none =>
    let fault : Fault := ⟨.trap, cause⟩
    (fault, { s with latch := some fault })

end Store

namespace Host

/-- Begin to run a guest: its store is held, its instance has one more holder, and the environment
has lent its user data. -/
def beginCall (h : Host σ) (id environment : Nat) : Host σ :=
  let h := h.retainInstance id
  let h := h.modifyInstance id fun i => { i with store := none }
  h.modifyEnvironment environment fun e => { e with userData := .empty }

/-- End the run of a guest: the user data is the environment's again, and the store is free. -/
def endCall (h : Host σ) (id environment : Nat) (userData : Option UserData) (s : Store) :
    Host σ :=
  let h := h.modifyEnvironment environment fun e =>
    { e with userData := userData.getD e.userData }
  let h := h.modifyInstance id fun i => { i with store := some s }
  h.releaseInstance id

/-- Run a guest's function through an environment. -/
def invoke (printer : Printer σ) (h : Host σ) (environment : Nat) (userData : UserData)
    (callee : Callee) (args : List Wasm.Value) : Except Fault (List Wasm.Value) × Host σ :=
  let id := callee.caller.inst
  let entered := FlightM.enter printer callee.caller callee.room callee.function args
  let (result, after) := entered.run.run
    ⟨callee.store.lend environment userData, h.beginCall id environment⟩
  let returned := after.store.active.map ActiveCall.userData
  let s := after.store.reclaim
  match result with
  | .ok values => (.ok values, after.host.endCall id environment returned s)
  | .error cause =>
    let (fault, s) := s.latchFailure cause
    (.error fault, after.host.endCall id environment returned s)

end Host

/-! ### Whole calls -/

/-- The results of a call as host values. -/
def decodeResults (results : List HostType) (values : List Wasm.Value) :
    Except Error (List HostValue) := do
  HostType.decodeAll results (← values.mapM Wire.ofValue)

/-- Call an exported function with arguments, for results of given types. -/
def Invoker.call (printer : Printer σ) (v : Invoker) (name : String) (args : List HostValue)
    (results : List HostType) (h : Host σ) :
    Except Error (List HostValue) × Invoker × Host σ :=
  let v := v.ready
  match h.environments.get? v.environment with
  | none => (.error .badHandle, v, h)
  | some e =>
    match h.callee e.inst name with
    | .error error => (.error error, v, h)
    | .ok callee =>
      let v := v.advance .encoding
      match encodeCall callee.type args results with
      | .error error => (.error error, v.advance .idle, h)
      | .ok params =>
        let v := v.advance .invoking
        match h.invoke printer v.environment e.userData callee params with
        | (.error fault, h) => (.error (.guestTrap fault), v.advance .faulted, h)
        | (.ok values, h) =>
          (decodeResults results values, (v.advance .decoding).advance .idle, h)

/-- Call an exported function through an environment with an invoker of its own. -/
def HostM.call (printer : Printer σ) (environment : Nat) (name : String) (args : List HostValue)
    (results : List HostType) : HostM σ (List HostValue) := do
  let (result, _, h) := (Invoker.ofEnvironment environment).call printer name args results (← get)
  set h
  ofExcept result

end Embedder
