namespace Embedder.Wasm

/-!
# Values and types of the virtual machine

* `ValType`, `FuncType`: the types of values and functions.
* `Value`: a value; floating-point numbers are bit patterns.
* `Value.type`, `ValType.zero`: a value's type, and the value that locals start with.
-/

-- Powers are those of the core library, whatever else is imported.
attribute [local instance (1100)] instPowNat

/-- The kinds of reference. -/
inductive RefType where
  | func
  | external
  | any
  deriving DecidableEq, Repr

/-- The types of values. -/
inductive ValType where
  | i32
  | i64
  | f32
  | f64
  | v128
  | ref (type : RefType)
  deriving DecidableEq, Repr

/-- The parameters and results of a function. -/
structure FuncType where
  params : List ValType
  results : List ValType
  deriving DecidableEq, Repr

/-- A value. -/
inductive Value where
  | i32 (bits : UInt32)
  | i64 (bits : UInt64)
  | f32 (bits : UInt32)
  | f64 (bits : UInt64)
  | v128 (low high : UInt64)
  | ref (type : RefType) (target : Option Nat)
  deriving DecidableEq, Repr

/-- The type of a value. -/
def Value.type : Value → ValType
  | .i32 _ => .i32
  | .i64 _ => .i64
  | .f32 _ => .f32
  | .f64 _ => .f64
  | .v128 .. => .v128
  | .ref type _ => .ref type

/-- The value of each type that is all zero bits, or refers to nothing. -/
def ValType.zero : ValType → Value
  | .i32 => .i32 0
  | .i64 => .i64 0
  | .f32 => .f32 0
  | .f64 => .f64 0
  | .v128 => .v128 0 0
  | .ref type => .ref type none

@[simp] theorem ValType.type_zero (t : ValType) : t.zero.type = t := by
  cases t <;> rfl

/-- The diagnostic form of a value. -/
def Value.debug : Value → String
  | .i32 bits => s!"I32({bits.toInt32.toInt})"
  | .i64 bits => s!"I64({bits.toInt64.toInt})"
  | .f32 bits => s!"F32({bits})"
  | .f64 bits => s!"F64({bits})"
  | .v128 low high => s!"V128({low.toNat + high.toNat * 2 ^ (64 : Nat)})"
  | .ref .func none => "FuncRef(None)"
  | .ref .external none => "ExternRef(None)"
  | .ref .any none => "AnyRef(None)"
  | .ref .func (some i) => s!"FuncRef(Some({i}))"
  | .ref .external (some i) => s!"ExternRef(Some({i}))"
  | .ref .any (some i) => s!"AnyRef(Some({i}))"

end Embedder.Wasm
