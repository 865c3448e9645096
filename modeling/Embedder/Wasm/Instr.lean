import Embedder.Wasm.Float
import Embedder.Wasm.Trap
import Embedder.Wasm.Value

namespace Embedder.Wasm

/-!
# Instructions

The instructions that guests are made of, and what the numeric ones compute.

* `IntBinary`, `IntCompare`, `IntUnary`: the operations on integers of both widths.
* `Conversion`: between the numeric types.
* `Instr`: all instructions; a block holds its body.
-/

-- Powers are those of the core library, whatever else is imported.
attribute [local instance (1100)] instPowNat

/-! ### Integer operations -/

/-- The widths of integers. -/
inductive IntWidth where
  | w32
  | w64
  deriving DecidableEq, Repr

/-- Operations on two integers. -/
inductive IntBinary where
  | add
  | sub
  | mul
  | divS
  | divU
  | remS
  | remU
  | and
  | or
  | xor
  | shl
  | shrS
  | shrU
  | rotl
  | rotr
  deriving DecidableEq, Repr

/-- Comparisons of two integers. -/
inductive IntCompare where
  | eq
  | ne
  | ltS
  | ltU
  | gtS
  | gtU
  | leS
  | leU
  | geS
  | geU
  deriving DecidableEq, Repr

/-- Operations on one integer. -/
inductive IntUnary where
  | clz
  | ctz
  | popcnt
  | extend8
  | extend16
  | extend32
  deriving DecidableEq, Repr

/-- An operation on two 32-bit integers. -/
def IntBinary.eval32 (op : IntBinary) (x y : UInt32) : Except Trap UInt32 :=
  match op with
  | add => .ok (x + y)
  | sub => .ok (x - y)
  | mul => .ok (x * y)
  | divS =>
    if y = 0 then .error .divideByZero
    else if x = 0x80000000 ∧ y = 0xFFFFFFFF then .error .integerOverflow
    else .ok (x.toInt32 / y.toInt32).toUInt32
  | divU => if y = 0 then .error .divideByZero else .ok (x / y)
  | remS =>
    if y = 0 then .error .divideByZero
    else if y = 0xFFFFFFFF then .ok 0
    else .ok (x.toInt32 % y.toInt32).toUInt32
  | remU => if y = 0 then .error .divideByZero else .ok (x % y)
  | and => .ok (x &&& y)
  | or => .ok (x ||| y)
  | xor => .ok (x ^^^ y)
  | shl => .ok (x <<< y)
  | shrS => .ok (x.toInt32 >>> y.toInt32).toUInt32
  | shrU => .ok (x >>> y)
  | rotl => .ok ((x <<< y) ||| (x >>> (32 - y % 32)))
  | rotr => .ok ((x >>> y) ||| (x <<< (32 - y % 32)))

/-- An operation on two 64-bit integers. -/
def IntBinary.eval64 (op : IntBinary) (x y : UInt64) : Except Trap UInt64 :=
  match op with
  | add => .ok (x + y)
  | sub => .ok (x - y)
  | mul => .ok (x * y)
  | divS =>
    if y = 0 then .error .divideByZero
    else if x = 0x8000000000000000 ∧ y = 0xFFFFFFFFFFFFFFFF then .error .integerOverflow
    else .ok (x.toInt64 / y.toInt64).toUInt64
  | divU => if y = 0 then .error .divideByZero else .ok (x / y)
  | remS =>
    if y = 0 then .error .divideByZero
    else if y = 0xFFFFFFFFFFFFFFFF then .ok 0
    else .ok (x.toInt64 % y.toInt64).toUInt64
  | remU => if y = 0 then .error .divideByZero else .ok (x % y)
  | and => .ok (x &&& y)
  | or => .ok (x ||| y)
  | xor => .ok (x ^^^ y)
  | shl => .ok (x <<< y)
  | shrS => .ok (x.toInt64 >>> y.toInt64).toUInt64
  | shrU => .ok (x >>> y)
  | rotl => .ok ((x <<< y) ||| (x >>> (64 - y % 64)))
  | rotr => .ok ((x >>> y) ||| (x <<< (64 - y % 64)))

/-- A comparison of two 32-bit integers. -/
def IntCompare.eval32 (op : IntCompare) (x y : UInt32) : Bool :=
  match op with
  | eq => x = y
  | ne => x ≠ y
  | ltS => x.toInt32 < y.toInt32
  | ltU => x < y
  | gtS => y.toInt32 < x.toInt32
  | gtU => y < x
  | leS => x.toInt32 ≤ y.toInt32
  | leU => x ≤ y
  | geS => y.toInt32 ≤ x.toInt32
  | geU => y ≤ x

/-- A comparison of two 64-bit integers. -/
def IntCompare.eval64 (op : IntCompare) (x y : UInt64) : Bool :=
  match op with
  | eq => x = y
  | ne => x ≠ y
  | ltS => x.toInt64 < y.toInt64
  | ltU => x < y
  | gtS => y.toInt64 < x.toInt64
  | gtU => y < x
  | leS => x.toInt64 ≤ y.toInt64
  | leU => x ≤ y
  | geS => y.toInt64 ≤ x.toInt64
  | geU => y ≤ x

/-- The bits of a number, the lowest first. -/
def bitsOf (width n : Nat) : List Bool :=
  (List.range width).map n.testBit

/-- The two's complement of `n` with the sign at bit `short - 1` extended to `width` bits. -/
def signExtend (width short n : Nat) : Nat :=
  let low := n % 2 ^ short
  if 2 ^ short ≤ 2 * low then low + (2 ^ width - 2 ^ short) else low

/-- An operation on one integer of a width in bits. -/
def IntUnary.eval (op : IntUnary) (width n : Nat) : Nat :=
  match op with
  | clz => ((bitsOf width n).reverse.takeWhile (!·)).length
  | ctz => ((bitsOf width n).takeWhile (!·)).length
  | popcnt => (bitsOf width n).countP id
  | extend8 => signExtend width 8 n
  | extend16 => signExtend width 16 n
  | extend32 => signExtend width 32 n

/-! ### Conversions -/

/-- Conversions between the numeric types. -/
inductive Conversion where
  /-- The low half of a 64-bit integer. -/
  | wrap
  /-- A 32-bit integer as a 64-bit one. -/
  | widen (signed : Bool)
  /-- A float rounded towards zero, if that is an integer of the width. -/
  | truncate (double signed : Bool) (width : IntWidth)
  /-- The same bits at the other type of the same width. -/
  | reinterpret
  deriving DecidableEq, Repr

/-- The bits of an integer, if it is one of `width` bits. -/
def integerBits (signed : Bool) (width : Nat) (n : Int) : Except Trap Nat :=
  let low : Int := if signed then -(2 ^ (width - 1)) else 0
  let high : Int := if signed then 2 ^ (width - 1) else 2 ^ width
  if low ≤ n ∧ n < high then .ok (n % 2 ^ width).toNat else .error .integerOverflow

/-- The bits of the integer part of a number. -/
def truncateBits (part : IntegerPart) (signed : Bool) (width : Nat) : Except Trap Nat :=
  match part with
  | .nan => .error .invalidConversion
  | .infinite => .error .integerOverflow
  | .finite n => integerBits signed width n

/-- The value of a conversion; `none` for a value of another type than it takes. -/
def Conversion.eval (op : Conversion) (v : Value) : Option (Except Trap Value) :=
  match op, v with
  | wrap, .i64 x => some (.ok (.i32 x.toUInt32))
  | widen false, .i32 x => some (.ok (.i64 x.toUInt64))
  | widen true, .i32 x => some (.ok (.i64 x.toInt32.toInt64.toUInt64))
  | truncate false signed .w32, .f32 x =>
    some ((truncateBits (FloatFormat.single.integerPart x.toNat) signed 32).map
      fun n => .i32 (UInt32.ofNat n))
  | truncate true signed .w32, .f64 x =>
    some ((truncateBits (FloatFormat.double.integerPart x.toNat) signed 32).map
      fun n => .i32 (UInt32.ofNat n))
  | truncate false signed .w64, .f32 x =>
    some ((truncateBits (FloatFormat.single.integerPart x.toNat) signed 64).map
      fun n => .i64 (UInt64.ofNat n))
  | truncate true signed .w64, .f64 x =>
    some ((truncateBits (FloatFormat.double.integerPart x.toNat) signed 64).map
      fun n => .i64 (UInt64.ofNat n))
  | reinterpret, .i32 x => some (.ok (.f32 x))
  | reinterpret, .i64 x => some (.ok (.f64 x))
  | reinterpret, .f32 x => some (.ok (.i32 x))
  | reinterpret, .f64 x => some (.ok (.i64 x))
  | _, _ => none

/-! ### Instructions -/

/-- The operands that a block takes and leaves. -/
inductive BlockType where
  | empty
  | value (type : ValType)
  | index (i : Nat)
  deriving DecidableEq, Repr

/-- An access to memory: the type of the value, the bytes that are moved, whether a shorter value
is sign-extended, and the offset added to the address. -/
structure Access where
  type : ValType
  width : Nat
  signed : Bool
  memory : Nat
  offset : Nat
  deriving DecidableEq, Repr

/-- An instruction. -/
inductive Instr where
  | unreachable
  | nop
  | block (type : BlockType) (body : List Instr)
  | loop (type : BlockType) (body : List Instr)
  | ifElse (type : BlockType) (yes no : List Instr)
  | br (depth : Nat)
  | brIf (depth : Nat)
  | brTable (depths : List Nat) (otherwise : Nat)
  | ret
  | call (function : Nat)
  | callIndirect (type table : Nat)
  | drop
  | select
  | localGet (i : Nat)
  | localSet (i : Nat)
  | localTee (i : Nat)
  | globalGet (i : Nat)
  | globalSet (i : Nat)
  | load (access : Access)
  | store (access : Access)
  | memorySize (memory : Nat)
  | memoryGrow (memory : Nat)
  | memoryFill (memory : Nat)
  | const (v : Value)
  | refFunc (function : Nat)
  | refIsNull
  | intTest (width : IntWidth)
  | intBinary (width : IntWidth) (op : IntBinary)
  | intCompare (width : IntWidth) (op : IntCompare)
  | intUnary (width : IntWidth) (op : IntUnary)
  | convert (op : Conversion)
  /-- Any other instruction, by its encoding. -/
  | other (encoding : List UInt8)
  deriving Repr

end Embedder.Wasm
