import Embedder.Host.Execution
import Embedder.Host.Loading

namespace Embedder

/-!
# Instances and environments

* `link`: the callbacks that a module's imports stand for.
* `FlightM.populate`: memories, tables, globals, segments and the start function.
* `HostM.appendHeap`: pages for the app heap at the end of the exported memory.
* `HostM.instantiate`: an instance, or nothing charged.
* `HostM.createEnvironment`: an environment of an instance.
-/

variable [Engine] {σ : Type}

/-! ### Imports -/

/-- The callback that an import names. -/
def resolve? (natives : List Callback) (i : Wasm.Import) : Option Callback :=
  natives.find? fun n => n.space = i.space && n.name = i.name

/-- The function that an import stands for, if the type it asks for is the callback's. -/
def linkImport? (natives : List Callback) (m : Wasm.Module) (i : Wasm.Import) :
    Option (Wasm.Func Callback) := do
  let n ← resolve? natives i
  match i.kind with
  | .func type => if m.types[type]? = some n.type then some (.native n n.type) else none
  | _ => none

/-- The functions that a module's imports stand for, or what is wrong: first whether there is a
callback for each, then whether each is of the right type. -/
def link (natives : List Callback) (m : Wasm.Module) : Except String (List (Wasm.Func Callback)) := do
  m.imports.forM fun i =>
    if (resolve? natives i).isSome then pure ()
    else throw ("unknown import: `" ++ i.space ++ "::" ++ i.name ++ "` has not been defined")
  m.imports.mapM fun i =>
    match linkImport? natives m i with
    | some f => pure f
    | none => throw ("incompatible import type for `" ++ i.space ++ "::" ++ i.name ++ "`")

/-- The functions that a module's own code defines. -/
def definedFuncs (m : Wasm.Module) : List (Wasm.Func Callback) :=
  (m.functions.zip m.codes).map fun (type, code) =>
    .code ((m.types[type]?).getD ⟨[], []⟩) code

/-- A module's guest before any of its memories, tables and globals exist. -/
def Wasm.Guest.bare (m : Wasm.Module) (imported : List (Wasm.Func Callback)) :
    Wasm.Guest Callback where
  module := m
  funcs := (imported ++ definedFuncs m).toArray
  memories := #[]
  globals := #[]
  tables := #[]

/-- The store of a new instance. -/
def Store.ofGuest (guest : Wasm.Guest Callback) : Store :=
  ⟨guest, none, none, none⟩

/-! ### Initial state -/

namespace FlightM

/-- Change the guest. -/
def modifyGuest (f : Wasm.Guest Callback → Wasm.Guest Callback) : FlightM σ Unit :=
  modifyStore fun s => { s with guest := f s.guest }

/-- Add a memory and charge its first pages. -/
def addMemory (c : Caller) (limits : Wasm.Limits) : FlightM σ Unit := do
  let i := (← store).guest.memories.size
  let maximum := limits.maximum.map (· * Wasm.pageSize)
  modifyGuest fun g => { g with memories := g.memories.push (.empty maximum) }
  match (← get).growMemory? c i limits.minimum with
  | some (_, s) => set s
  | none => throw s!"memory minimum size of {limits.minimum} pages exceeds memory limits"

/-- Add a table of empty places. -/
def addTable (limits : Wasm.Limits) : FlightM σ Unit :=
  modifyGuest fun g => { g with tables := g.tables.push ⟨limits.minimum, []⟩ }

/-- Add a global with its initial value. -/
def addGlobal (global : Wasm.GlobalDef) : FlightM σ Unit :=
  modifyGuest fun g => { g with globals := g.globals.push (g.evalConst global.init) }

/-- Put an element segment into its table. -/
def putElement (e : Wasm.Element) : FlightM σ Unit := do
  let g := (← store).guest
  match (g.tables[e.table]?).bind fun t => t.put? (g.evalOffset e.offset) e.functions with
  | some t => modifyGuest fun g => { g with tables := g.tables.setIfInBounds e.table t }
  | none => throw Wasm.Trap.tableOutOfBounds.cause

/-- Put a data segment into its memory. -/
def putData (d : Wasm.Data) : FlightM σ Unit := do
  let g := (← store).guest
  match g.storeBytes? d.memory (g.evalOffset d.offset) d.bytes with
  | some g => modifyGuest fun _ => g
  | none => throw Wasm.Trap.memoryOutOfBounds.cause

/-- Bring a bare guest into its initial state. -/
def populate (printer : Printer σ) (c : Caller) (room : Nat) (m : Wasm.Module) :
    FlightM σ Unit := do
  m.memories.forM (addMemory c)
  m.tables.forM addTable
  m.globals.forM addGlobal
  m.elements.forM putElement
  m.datas.forM putData
  match m.start with
  | none => pure ()
  | some function =>
    let _ ← enter printer { c with hasExports := true } room function []

end FlightM

/-! ### Instances -/

namespace HostM

/-- Grow an exported memory by enough pages for so many bytes, and manage them as the app heap. -/
def appendHeap (c : Caller) (memory : Option Nat) (bytes : Nat) (s : Store) : HostM σ Store := do
  let i ← ofOption (.initFailed .inst .heapWithoutMemory) memory
  let pages := (bytes + (Wasm.pageSize - 1)) / Wasm.pageSize
  let (before, s) ← ofOption (.initFailed .inst (.growthRefused pages))
    (Flight.growMemory? ⟨s, ← get⟩ c i pages)
  set s.host
  let base := before * Wasm.pageSize
  if addressRange ≤ base then throw (.initFailed .inst .heapBeyondRange)
  let heap := Heap.manage base (min (pages * Wasm.pageSize) (addressRange - 1))
  pure { s.store with heap := some heap }

/-- Bring up the guest of an instance whose store is still absent, and its app heap if one is asked
for. -/
def bringUp (printer : Printer σ) (id : Nat) (r : Runtime) (m : LoadedModule) (heap : Nat) :
    HostM σ Unit := do
  let failed (cause : String) : Error := .initFailed .inst (.instantiation cause)
  let imported ← ofExcept ((link r.natives m.wasm).mapError failed)
  let c : Caller := ⟨id, m.commons, true⟩
  let (result, s) ← inFlight (.ofGuest (.bare m.wasm imported))
    (FlightM.populate printer c r.config.maxWasmStack.toNat m.wasm)
  ofExcept (result.mapError failed)
  let memory := s.guest.exportedMemory? memoryExport
  let s ← if heap = 0 then pure s else appendHeap c memory heap s
  modify fun h => h.modifyInstance id fun i => { i with memory, store := some s }

/-- Instantiate a module with a stack and an app heap of given sizes. -/
def instantiate (printer : Printer σ) (module stack heap : Nat) : HostM σ Nat := do
  let m ← HostM.module module
  let r ← runtime m.runtime
  lease m.commons stack .inst
  modify (·.retainModule module)
  let h ← get
  let (instances, id) := h.instances.insert ⟨{
    module
    commons := m.commons
    stackSize := stack
    limiter := .empty
    memory := none
    store := none }, 1⟩
  set { h with instances }
  orUndo (·.releaseInstance id) (bringUp printer id r m heap)
  pure id

/-! ### Environments -/

/-- Create an environment of an instance with a stack of a given size. -/
def createEnvironment (id stack : Nat) : HostM σ Nat := do
  let i ← inst id
  let r ← runtime (← module i.module).runtime
  let limit := r.config.maxWasmStack.toNat
  if stack = 0 ∨ limit < stack then
    throw (.initFailed .environment (.stackOutside stack limit))
  lease i.commons stack .environment
  modify (·.retainInstance id)
  let h ← get
  let (environments, environment) := h.environments.insert {
    inst := id
    commons := i.commons
    stackSize := stack
    userData := .empty }
  set { h with environments }
  pure environment

end HostM

end Embedder
