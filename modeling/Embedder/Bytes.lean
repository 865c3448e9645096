import Embedder.Attempt

namespace Embedder

/-!
# Byte strings

Guest memory, bytecode and printed output are byte strings. The main definitions are:

* `Bytes.ofNat`, `Bytes.toNat`: little-endian numbers of a given width.
* `Bytes.toHex`, `Bytes.ofHex?`: two lower-case hexadecimal digits per byte.
* `Bytes.chunks`: the slots of a block of equally long elements.
-/

-- Powers are those of the core library, whatever else is imported.
attribute [local instance (1100)] instPowNat

/-- A byte string. -/
abbrev Bytes := List UInt8

namespace Bytes

/-! ### Little-endian numbers -/

/-- The `width` low-order bytes of `n`, least significant first. -/
def ofNat : (width : Nat) → (n : Nat) → Bytes
  | 0, _ => []
  | width + 1, n => UInt8.ofNat n :: ofNat width (n / 256)

/-- The number whose bytes are given, least significant first. -/
def toNat : Bytes → Nat
  | [] => 0
  | b :: bs => b.toNat + 256 * toNat bs

@[simp] theorem length_ofNat (width n : Nat) : (ofNat width n).length = width := by
  induction width generalizing n with
  | zero => rfl
  | succ width ih => simp [ofNat, ih]

/-- Reading back a number written in `width` bytes gives its residue. -/
theorem toNat_ofNat (width n : Nat) : toNat (ofNat width n) = n % 256 ^ width := by
  induction width generalizing n with
  | zero => simp [ofNat, toNat, Nat.mod_one]
  | succ width ih =>
    have low : (UInt8.ofNat n).toNat = n % 256 := rfl
    rw [ofNat, toNat, ih, low, Nat.pow_succ', Nat.mod_mul]

/-! ### Hexadecimal text -/

/-- The digit of a value below sixteen. -/
def hexDigit (n : Nat) : Char :=
  if n < 10 then Char.ofNat (48 + n) else Char.ofNat (87 + n)

/-- The value of a hexadecimal digit of either case. -/
def hexValue? (c : Char) : Option Nat :=
  let n := c.toNat
  if 48 ≤ n ∧ n ≤ 57 then some (n - 48)
  else if 97 ≤ n ∧ n ≤ 102 then some (n - 87)
  else if 65 ≤ n ∧ n ≤ 70 then some (n - 55)
  else none

/-- Two lower-case digits per byte. -/
def toHex (bs : Bytes) : String :=
  String.ofList (bs.flatMap fun b => [hexDigit (b.toNat / 16), hexDigit (b.toNat % 16)])

/-- The bytes of a list of hexadecimal digits, two a byte. -/
def ofHexDigits? : List Char → Option Bytes
  | [] => some []
  | [_] => none
  | hi :: lo :: rest => do
    let h ← hexValue? hi
    let l ← hexValue? lo
    let bs ← ofHexDigits? rest
    pure (UInt8.ofNat (16 * h + l) :: bs)

/-- The bytes of a hexadecimal text. -/
def ofHex? (text : String) : Option Bytes :=
  ofHexDigits? text.toList

/-- The last `width` hexadecimal digits of a number. -/
def hexOfNat (width n : Nat) : String :=
  String.ofList ((List.range width).reverse.map fun i => hexDigit (n / 16 ^ i % 16))

/-! ### Text and slots -/

/-- The UTF-8 encoding of a text. -/
def ofText (text : String) : Bytes :=
  text.toUTF8.toList

/-- The first `count` slots of `size` bytes. -/
def slots (size : Nat) : (count : Nat) → Bytes → List Bytes
  | 0, _ => []
  | count + 1, bs => bs.take size :: slots size count (bs.drop size)

@[simp] theorem length_slots (size count : Nat) (bs : Bytes) :
    (slots size count bs).length = count := by
  induction count generalizing bs with
  | zero => rfl
  | succ count ih => rw [slots, List.length_cons, ih]

/-- What it is called to cut something into slots of no bytes. -/
def emptySlots : String := "chunk size must be non-zero"

/-- The whole slots of `size` bytes that a byte string consists of; an unfinished last slot is
dropped. Nothing can be cut into slots of no bytes. -/
def chunks (size : Nat) (bs : Bytes) : Attempt (List Bytes) :=
  if size = 0 then .panics emptySlots
  else .returns (slots size (bs.length / size) bs)

theorem chunks_zero (bs : Bytes) : chunks 0 bs = .panics emptySlots := rfl

theorem chunks_of_pos {size : Nat} (pos : 0 < size) (bs : Bytes) :
    chunks size bs = .returns (slots size (bs.length / size) bs) :=
  if_neg (Nat.ne_of_gt pos)

/-- A row of so many slots is cut into these. -/
theorem chunks_of_length {size count : Nat} (pos : 0 < size) {bs : Bytes}
    (length : bs.length = count * size) : chunks size bs = .returns (slots size count bs) := by
  rw [chunks_of_pos pos, length, Nat.mul_div_cancel _ pos]

end Bytes

end Embedder
