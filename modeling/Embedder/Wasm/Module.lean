import Embedder.Wasm.Instr

namespace Embedder.Wasm

/-!
# Modules

A decoded module, its index spaces, and when it is well formed.

* `preamble`: what the binary format begins with.
* `Module`: what the sections hold.
* `Module.export?`, `Module.funcType?`, `Module.memoryLimits`: look-ups.
* `Module.isValid`: the conditions that sections put on one another.
-/

/-- What the binary format begins with: the magic number and the version. -/
def preamble : List UInt8 :=
  [0x00, 0x61, 0x73, 0x6D, 0x01, 0x00, 0x00, 0x00]

/-- A size range; the maximum may be open. -/
structure Limits where
  minimum : Nat
  maximum : Option Nat
  deriving DecidableEq, Repr

/-- The type of a global. -/
structure GlobalType where
  type : ValType
  isMutable : Bool
  deriving DecidableEq, Repr

/-- What an import asks for. -/
inductive ImportKind where
  | func (type : Nat)
  | table (limits : Limits)
  | memory (limits : Limits)
  | global (type : GlobalType)
  deriving DecidableEq, Repr

/-- An import. -/
structure Import where
  space : String
  name : String
  kind : ImportKind
  deriving DecidableEq, Repr

/-- An initial value. -/
inductive ConstExpr where
  | value (v : Value)
  | refFunc (function : Nat)
  | globalGet (i : Nat)
  deriving DecidableEq, Repr

/-- A global that the module defines. -/
structure GlobalDef where
  type : GlobalType
  init : ConstExpr
  deriving DecidableEq, Repr

/-- What an export refers to. -/
inductive ExportTarget where
  | func (i : Nat)
  | table (i : Nat)
  | memory (i : Nat)
  | global (i : Nat)
  deriving DecidableEq, Repr

/-- An export. -/
structure Export where
  name : String
  target : ExportTarget
  deriving DecidableEq, Repr

/-- Functions to be put into a table when the module is instantiated. -/
structure Element where
  table : Nat
  offset : ConstExpr
  functions : List Nat
  deriving DecidableEq, Repr

/-- Bytes to be put into a memory when the module is instantiated. -/
structure Data where
  memory : Nat
  offset : ConstExpr
  bytes : List UInt8
  deriving DecidableEq, Repr

/-- The locals and the body of a function. -/
structure Code where
  locals : List ValType
  body : List Instr
  deriving Repr

/-- A module. Function types are given by index, also those of the functions it defines. -/
structure Module where
  types : Array FuncType
  imports : List Import
  functions : List Nat
  tables : List Limits
  memories : List Limits
  globals : List GlobalDef
  exports : List Export
  start : Option Nat
  elements : List Element
  codes : List Code
  datas : List Data
  deriving Repr

namespace Module

/-- The module without sections. -/
def empty : Module :=
  ⟨#[], [], [], [], [], [], [], none, [], [], []⟩

instance : Inhabited Module :=
  ⟨empty⟩

/-! ### Index spaces -/

/-- The type index that an import of a function names. -/
def importedFunc? (i : Import) : Option Nat :=
  match i.kind with
  | .func type => some type
  | _ => none

/-- The type index of every function, the imported ones first. -/
def funcTypeIndices (m : Module) : List Nat :=
  m.imports.filterMap importedFunc? ++ m.functions

/-- The type of a function. -/
def funcType? (m : Module) (i : Nat) : Option FuncType := do
  m.types[← m.funcTypeIndices[i]?]?

/-- The limits of every memory, the imported ones first. -/
def memoryLimits (m : Module) : List Limits :=
  (m.imports.filterMap fun i => match i.kind with
    | .memory limits => some limits
    | _ => none) ++ m.memories

/-- The limits of every table, the imported ones first. -/
def tableLimits (m : Module) : List Limits :=
  (m.imports.filterMap fun i => match i.kind with
    | .table limits => some limits
    | _ => none) ++ m.tables

/-- The type of a global that an import asks for. -/
def importedGlobal? (i : Import) : Option GlobalType :=
  match i.kind with
  | .global type => some type
  | _ => none

/-- The type of every global, the imported ones first. -/
def globalTypes (m : Module) : List GlobalType :=
  m.imports.filterMap importedGlobal? ++ m.globals.map GlobalDef.type

/-- What is exported under a name. -/
def export? (m : Module) (name : String) : Option ExportTarget :=
  (m.exports.find? fun e => e.name = name).map Export.target

/-! ### Well-formed modules -/

/-- Whether limits are in order and at most `bound`. -/
def limitsOk (bound : Nat) (l : Limits) : Bool :=
  l.minimum ≤ bound && l.maximum.all fun most => l.minimum ≤ most && most ≤ bound

/-- Whether an export refers to something. -/
def targetOk (m : Module) : ExportTarget → Bool
  | .func i => i < m.funcTypeIndices.length
  | .table i => i < m.tableLimits.length
  | .memory i => i < m.memoryLimits.length
  | .global i => i < m.globalTypes.length

/-- Whether an initial value is one of a type. It can be that of an imported global, but not of one
that the module defines. -/
def constOk (m : Module) (type : ValType) : ConstExpr → Bool
  | .value v => v.type = type
  | .refFunc i => type = .ref .func && i < m.funcTypeIndices.length
  | .globalGet i => ((m.imports.filterMap importedGlobal?)[i]?).any fun g =>
      g.type = type && !g.isMutable

/-- Whether the sections fit together. -/
def isValid (m : Module) : Bool :=
  m.functions.length = m.codes.length
    && m.funcTypeIndices.all (· < m.types.size)
    && m.memoryLimits.all (limitsOk 65536)
    && m.tableLimits.all (limitsOk 4294967295)
    && m.globals.all (fun g => m.constOk g.type.type g.init)
    && m.exports.all (fun e => m.targetOk e.target)
    && decide (m.exports.map Export.name).Nodup
    && m.start.all (fun i => m.funcType? i = some ⟨[], []⟩)
    && m.elements.all (fun e => e.table < m.tableLimits.length && m.constOk .i32 e.offset
        && e.functions.all (· < m.funcTypeIndices.length))
    && m.datas.all (fun d => d.memory < m.memoryLimits.length && m.constOk .i32 d.offset)

end Module

end Embedder.Wasm
