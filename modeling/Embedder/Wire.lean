import Embedder.Error
import Embedder.Wasm.Value

namespace Embedder

/-!
# Wire values

What passes between a host and a guest: the four numeric categories, and the host types that are
written in them. An unsigned integer keeps its bit pattern, and a float is its bit pattern.

* `HostValue.encode`, `HostType.decode`: one value, there and back.
* `HostType.decodeAll`: a list of results.
* `Wire.toValue`, `Wire.ofValue`: the step to the virtual machine's values and back.
-/

/-- The numeric categories. -/
inductive NumType where
  | i32
  | i64
  | f32
  | f64
  deriving DecidableEq, Repr

namespace NumType

/-- The name of a category. -/
def name : NumType → String
  | i32 => "i32"
  | i64 => "i64"
  | f32 => "f32"
  | f64 => "f64"

/-- The virtual machine's type of a category. -/
def toValType : NumType → Wasm.ValType
  | i32 => .i32
  | i64 => .i64
  | f32 => .f32
  | f64 => .f64

/-- The category of a type, if it is numeric. -/
def ofValType : Wasm.ValType → Option NumType
  | .i32 => some i32
  | .i64 => some i64
  | .f32 => some f32
  | .f64 => some f64
  | .v128 => none
  | .ref _ => none

end NumType

/-- A value on the wire. -/
inductive Wire where
  | i32 (bits : UInt32)
  | i64 (bits : UInt64)
  | f32 (bits : UInt32)
  | f64 (bits : UInt64)
  deriving DecidableEq, Repr

namespace Wire

/-- The category of a wire value. -/
def kind : Wire → NumType
  | i32 _ => .i32
  | i64 _ => .i64
  | f32 _ => .f32
  | f64 _ => .f64

/-- The virtual machine's form of a wire value. -/
def toValue : Wire → Wasm.Value
  | i32 bits => .i32 bits
  | i64 bits => .i64 bits
  | f32 bits => .f32 bits
  | f64 bits => .f64 bits

/-- The wire form of a value of the virtual machine, if it is a number. -/
def ofValue : Wasm.Value → Except Error Wire
  | .i32 bits => .ok (i32 bits)
  | .i64 bits => .ok (i64 bits)
  | .f32 bits => .ok (f32 bits)
  | .f64 bits => .ok (f64 bits)
  | v => .error (.typeMismatch "numeric value" v.debug)

end Wire

/-! ### Host values -/

/-- The host types that cross the boundary. -/
inductive HostType where
  | i32
  | u32
  | i64
  | u64
  | f32
  | f64
  deriving DecidableEq, Repr

/-- A value of a host type. -/
inductive HostValue where
  | i32 (v : Int32)
  | u32 (v : UInt32)
  | i64 (v : Int64)
  | u64 (v : UInt64)
  | f32 (bits : UInt32)
  | f64 (bits : UInt64)
  deriving DecidableEq, Repr

/-- The type of a host value. -/
def HostValue.type : HostValue → HostType
  | .i32 _ => .i32
  | .u32 _ => .u32
  | .i64 _ => .i64
  | .u64 _ => .u64
  | .f32 _ => .f32
  | .f64 _ => .f64

/-- The category that a host type is written in. -/
def HostType.kind : HostType → NumType
  | .i32 => .i32
  | .u32 => .i32
  | .i64 => .i64
  | .u64 => .i64
  | .f32 => .f32
  | .f64 => .f64

/-- The wire form of a host value. -/
def HostValue.encode : HostValue → Wire
  | .i32 v => .i32 v.toUInt32
  | .u32 v => .i32 v
  | .i64 v => .i64 v.toUInt64
  | .u64 v => .i64 v
  | .f32 bits => .f32 bits
  | .f64 bits => .f64 bits

/-- The host value of a type that a wire value stands for; the category has to be the type's. -/
def HostType.decode : HostType → Wire → Except Error HostValue
  | .i32, .i32 bits => .ok (.i32 bits.toInt32)
  | .u32, .i32 bits => .ok (.u32 bits)
  | .i64, .i64 bits => .ok (.i64 bits.toInt64)
  | .u64, .i64 bits => .ok (.u64 bits)
  | .f32, .f32 bits => .ok (.f32 bits)
  | .f64, .f64 bits => .ok (.f64 bits)
  | type, wire => .error (.typeMismatch type.kind.name wire.kind.name)

/-- The host values of a list of types, position by position. -/
def HostType.decodeEach : List HostType → List Wire → Except Error (List HostValue)
  | type :: types, wire :: wires => do
    let value ← type.decode wire
    let values ← decodeEach types wires
    pure (value :: values)
  | _, _ => .ok []

/-- The host values of a list of types; there have to be as many wire values. -/
def HostType.decodeAll (types : List HostType) (wires : List Wire) :
    Except Error (List HostValue) :=
  if wires.length ≠ types.length then
    .error (.typeMismatch s!"{types.length} results" s!"{wires.length} results")
  else decodeEach types wires

/-! ### Signatures -/

/-- Check arguments against declared parameters, position by position. -/
def checkParams : List Wasm.ValType → List Wire → Except Error Unit
  | declared :: params, given :: wires =>
    match NumType.ofValType declared with
    | some kind =>
      if kind = given.kind then checkParams params wires
      else .error (.typeMismatch kind.name given.kind.name)
    | none => .error (.typeMismatch "numeric parameter" given.kind.name)
  | _, _ => .ok ()

/-- Check requested result types against declared ones, position by position. -/
def checkResults : List Wasm.ValType → List HostType → Except Error Unit
  | declared :: results, requested :: types =>
    match NumType.ofValType declared with
    | some kind =>
      if kind = requested.kind then checkResults results types
      else .error (.typeMismatch requested.kind.name kind.name)
    | none => .error (.typeMismatch requested.kind.name "non-numeric result")
  | _, _ => .ok ()

/-- The virtual machine's arguments for a call of a function of the given type, if the arguments
and the requested results are exactly those that the type declares. -/
def encodeCall (type : Wasm.FuncType) (args : List HostValue) (results : List HostType) :
    Except Error (List Wasm.Value) := do
  let wires := args.map HostValue.encode
  if type.params.length ≠ wires.length then
    throw (.typeMismatch s!"{type.params.length} arguments" s!"{wires.length} arguments")
  checkParams type.params wires
  if type.results.length ≠ results.length then
    throw (.typeMismatch s!"{results.length} results" s!"{type.results.length} results")
  checkResults type.results results
  pure (wires.map Wire.toValue)

end Embedder
