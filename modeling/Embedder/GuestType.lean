import Embedder.Bytes

namespace Embedder

/-!
# Guest types

Plain data with a fixed little-endian layout in guest memory.

* `GuestType`: size, alignment and form of a type.
* `Datum`: a value of some form.
* `GuestType.store`, `GuestType.load`: a value's bytes, and the value of a slot.
-/

-- Powers are those of the core library, whatever else is imported.
attribute [local instance (1100)] instPowNat

/-- How the bytes of a type are read. -/
inductive DataForm where
  | unsigned
  | signed
  | float
  | raw
  deriving DecidableEq, Repr

/-- A type of plain data. `released` tells whether dropping a value of the type has an effect. -/
structure GuestType where
  form : DataForm
  size : Nat
  align : Nat
  released : Bool
  deriving DecidableEq, Repr

/-- A value of plain data; a float is its bit pattern. -/
inductive Datum where
  | int (v : Int)
  | bits (n : Nat)
  | raw (bytes : Bytes)
  deriving DecidableEq, Repr

namespace GuestType

/-- The type of unsigned integers of a width in bytes. -/
def unsigned (width : Nat) : GuestType :=
  ⟨.unsigned, width, width, false⟩

/-- The type of signed integers of a width in bytes. -/
def signed (width : Nat) : GuestType :=
  ⟨.signed, width, width, false⟩

/-- The type of floats of a width in bytes. -/
def float (width : Nat) : GuestType :=
  ⟨.float, width, width, false⟩

/-- A type of uninterpreted bytes. -/
def raw (size align : Nat) : GuestType :=
  ⟨.raw, size, align, false⟩

/-- Unsigned 32-bit numbers of which every dropped value is recorded. -/
def tracked : GuestType :=
  ⟨.unsigned, 4, 4, true⟩

/-- Whether a value is one of the type. -/
def accepts (t : GuestType) : Datum → Bool
  | .int v =>
    match t.form with
    | .unsigned => 0 ≤ v && v < 256 ^ t.size
    | .signed => -(256 ^ t.size : Int) ≤ 2 * v && 2 * v < 256 ^ t.size
    | _ => false
  | .bits n => t.form = .float && n < 256 ^ t.size
  | .raw bytes => t.form = .raw && bytes.length = t.size

/-- The bytes of a value. -/
def store (t : GuestType) : Datum → Bytes
  | .int v => Bytes.ofNat t.size (v % 256 ^ t.size).toNat
  | .bits n => Bytes.ofNat t.size n
  | .raw bytes => (bytes ++ List.replicate t.size 0).take t.size

@[simp] theorem length_store (t : GuestType) (d : Datum) : (t.store d).length = t.size := by
  cases d <;> simp [store]

/-- The value in a slot; bytes past the type's size are ignored. -/
def load (t : GuestType) (slot : Bytes) : Datum :=
  let bytes : Bytes := slot.take t.size
  match t.form with
  | .unsigned => .int bytes.toNat
  | .signed =>
    let n := bytes.toNat
    .int (if 2 * n < 256 ^ t.size then n else (n : Int) - 256 ^ t.size)
  | .float => .bits bytes.toNat
  | .raw => .raw bytes

end GuestType

end Embedder
