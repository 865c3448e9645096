namespace Embedder.Wasm

/-!
# Floating-point bit patterns

The integer part of a floating-point number, read off its bits.

* `FloatFormat`: the widths of the exponent and of the fraction.
* `FloatFormat.integerPart`: the number rounded towards zero.
-/

-- Powers are those of the core library, whatever else is imported.
attribute [local instance (1100)] instPowNat

/-- The widths of a binary format's exponent and fraction. -/
structure FloatFormat where
  exponentBits : Nat
  fractionBits : Nat
  deriving DecidableEq, Repr

/-- The format of 32 bits. -/
def FloatFormat.single : FloatFormat :=
  ⟨8, 23⟩

/-- The format of 64 bits. -/
def FloatFormat.double : FloatFormat :=
  ⟨11, 52⟩

/-- A bit pattern's number, as far as rounding towards zero is concerned. -/
inductive IntegerPart where
  | nan
  | infinite
  | finite (n : Int)
  deriving DecidableEq, Repr

/-- The number of a bit pattern, rounded towards zero. -/
def FloatFormat.integerPart (f : FloatFormat) (bits : Nat) : IntegerPart :=
  let fraction := bits % 2 ^ f.fractionBits
  let exponent := bits / 2 ^ f.fractionBits % 2 ^ f.exponentBits
  let negative := bits / 2 ^ (f.fractionBits + f.exponentBits) % 2 = 1
  if exponent = 2 ^ f.exponentBits - 1 then
    if fraction = 0 then .infinite else .nan
  else
    let significand := if exponent = 0 then fraction else fraction + 2 ^ f.fractionBits
    let bias := 2 ^ (f.exponentBits - 1) - 1 + f.fractionBits
    let magnitude :=
      if bias ≤ exponent then significand * 2 ^ (exponent - bias)
      else significand / 2 ^ (bias - max exponent 1)
    .finite (if negative then -(magnitude : Int) else magnitude)

end Embedder.Wasm
