import Embedder.Host.Diagnostic
import Embedder.Session.Step

namespace Embedder

/-!
# Sessions

A session drives a host through objects that it knows by name. Every name owns one hold on its
object: a name that is given to another object, or taken away, gives the old hold up.

* `Session`: a host together with the names, the hooks, and what the hooks were answered.
* `SessionM`: steps, which fail if an object is missing.
* `SessionM.find`, `SessionM.keep`, `SessionM.away`: the names.
-/

namespace Session

/-- What a session knows besides the host: the objects by name, for each output the steps to run
after every print to it, and what was answered to them. -/
structure Slots where
  names : Table Slot Nat
  hooks : Table Nat (List Step)
  heard : List (List Answer)

/-- No names and no hooks. -/
def Slots.empty : Slots :=
  ⟨.empty, .empty, []⟩

end Session

/-- A host that is driven by steps. -/
abbrev Session := Host Session.Slots

/-- A part of a step. It fails if an object is missing, and if it panics: whoever drives the session
catches the panic, and goes on with the next step. -/
abbrev SessionM := OptionT (StateM Session)

namespace Session

/-- A session with nothing in it. -/
def empty : Session :=
  Host.empty Slots.empty

/-- Give up a hold on an object. A panic of the object's end is caught there and then. -/
def release (s : Session) : Kind → Nat → Session
  | .runtime, id => s.releaseRuntime id
  | .commons, _ => s
  | .module, id => s.releaseModule id
  | .inst, id => s.releaseInstance id
  | .environment, id => s.dropEnvironment id
  | .block, id => s.dropBlock id
  | .runner, id => s.dropRunner id

/-- Take another hold on an object that can have several. -/
def retain (s : Session) : Kind → Nat → Session
  | .runtime, id => s.retainRuntime id
  | .module, id => s.retainModule id
  | .inst, id => s.retainInstance id
  | _, _ => s

/-- How many hold an object that can have several holders. -/
def holders? (s : Session) : Kind → Nat → Option Nat
  | .runtime, id => (s.runtimes.get? id).map Counted.holders
  | .module, id => (s.modules.get? id).map Counted.holders
  | .inst, id => (s.instances.get? id).map Counted.holders
  | _, _ => none

/-- The diagnostic form of an object. -/
def debug? (s : Session) : Kind → Nat → Option String
  | .runtime, id => s.debugRuntime id
  | .commons, _ => none
  | .module, id => s.debugModule id
  | .inst, id => s.debugInstance id
  | .environment, id => s.debugEnvironment id
  | .block, id => (s.blocks.get? id).map Block.debug
  | .runner, id => s.debugRunner id

/-- The session with its names changed. -/
def modifyNames (s : Session) (f : Table Slot Nat → Table Slot Nat) : Session :=
  { s with app := { s.app with names := f s.app.names } }

/-- The session with a name for an object. What had the name before is given up. -/
def put (s : Session) (slot : Slot) (id : Nat) : Session :=
  let old := s.app.names.get? slot
  let s := s.modifyNames (·.set slot id)
  match old with
  | some id => s.release slot.kind id
  | none => s

end Session

namespace SessionM

open Session

/-- The object of a name. -/
def find (kind : Kind) (name : String) : SessionM Nat := do
  OptionT.mk (pure ((← get).app.names.get? ⟨kind, name⟩))

/-- A value that may be missing. -/
def ofOption (a : Option α) : SessionM α :=
  OptionT.mk (pure a)

/-- Name an object. -/
def keep (kind : Kind) (name : String) (id : Nat) : SessionM Unit :=
  modify (·.put ⟨kind, name⟩ id)

/-- Do something with an object while it has no name. -/
def away (kind : Kind) (name : String) (act : Nat → SessionM α) : SessionM α := do
  let id ← find kind name
  modify (·.modifyNames (·.erase ⟨kind, name⟩))
  let result ← OptionT.lift (act id).run
  keep kind name id
  ofOption result

/-- Do something while holding an object. -/
def holding (kind : Kind) (id : Nat) (act : SessionM α) : SessionM α := do
  modify (·.retain kind id)
  let result ← OptionT.lift act.run
  modify (·.release kind id)
  ofOption result

/-- Run an operation on the host. -/
def host (act : HostM Slots α) : SessionM (Except Error α) := do
  let (result, s) := act.run.run (← get)
  set s
  pure result

/-- Run an operation on the host and answer how it ended. -/
def answer (view : α → Payload) (act : HostM Slots α) : SessionM Answer := do
  pure (.result ((← host act).map view))

/-- The answer to an operation that may panic. There is none if it does. -/
def attempted? (view : α → Payload) : Except Error (Attempt α) → Option Answer
  | .error e => some (.result (.error e))
  | .ok (.returns a) => some (.result (.ok (view a)))
  | .ok (.panics _) => none

/-- Run an operation on the host that may panic, and answer how it ended. -/
def attempt (view : α → Payload) (act : HostM Slots (Attempt α)) : SessionM Answer := do
  ofOption (attempted? view (← host act))

/-- Create an object and name it; the answer shows the new object. -/
def create (kind : Kind) (name : String) (act : HostM Slots Nat)
    (view : Nat → SessionM Payload) : SessionM Answer := do
  match ← host act with
  | .error e => pure (.result (.error e))
  | .ok id => do
    let shown ← view id
    keep kind name id
    pure (.result (.ok shown))

end SessionM

end Embedder
