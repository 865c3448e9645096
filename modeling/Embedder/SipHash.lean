import Embedder.Bytes

namespace Embedder

/-!
# SipHash-1-3

A keyed hash with one round per word of the message and three at the end, taken under the
zero key.

* `SipHash.round`, `SipHash.absorb`: the state transformation and the intake of one word.
* `SipHash.hash`: the hash of a byte string.
* `contentHash`: the hash of a byte string preceded by its length, in hexadecimal.
-/

-- Powers are those of the core library, whatever else is imported.
attribute [local instance (1100)] instPowNat

namespace SipHash

/-- The four words of the hash's state. -/
structure State where
  v0 : UInt64
  v1 : UInt64
  v2 : UInt64
  v3 : UInt64
  deriving DecidableEq, Repr

/-- The state under the zero key. -/
def start : State :=
  ⟨0x736f6d6570736575, 0x646f72616e646f6d, 0x6c7967656e657261, 0x7465646279746573⟩

/-- Rotation to the left. -/
def rotate (x : UInt64) (n : UInt64) : UInt64 :=
  (x <<< n) ||| (x >>> (64 - n))

/-- One round. -/
def round (s : State) : State :=
  let v0 := s.v0 + s.v1
  let v2 := s.v2 + s.v3
  let v1 := rotate s.v1 13 ^^^ v0
  let v3 := rotate s.v3 16 ^^^ v2
  let v0 := rotate v0 32
  let v2 := v2 + v1
  let v0 := v0 + v3
  let v1 := rotate v1 17 ^^^ v2
  let v3 := rotate v3 21 ^^^ v0
  ⟨v0, v1, rotate v2 32, v3⟩

/-- The state after one more word of the message. -/
def absorb (s : State) (word : UInt64) : State :=
  let s := round { s with v3 := s.v3 ^^^ word }
  { s with v0 := s.v0 ^^^ word }

/-- The last word: the remaining bytes, and the message's length in the top byte. -/
def lastWord (length : Nat) (rest : Bytes) : UInt64 :=
  UInt64.ofNat (rest.toNat + length % 256 * 2 ^ (56 : Nat))

/-- The hash of a byte string. -/
def hash (message : Bytes) : UInt64 :=
  let words := Bytes.slots 8 (message.length / 8) message
  let s := words.foldl (fun s w => absorb s (UInt64.ofNat w.toNat)) start
  let s := absorb s (lastWord message.length (message.drop (8 * words.length)))
  let s := round (round (round { s with v2 := s.v2 ^^^ 0xff }))
  s.v0 ^^^ s.v1 ^^^ s.v2 ^^^ s.v3

end SipHash

/-- The fingerprint of a byte string: the hash of its length in eight bytes followed by the bytes
themselves, in sixteen hexadecimal digits. -/
def contentHash (bytes : Bytes) : String :=
  Bytes.hexOfNat 16 (SipHash.hash (Bytes.ofNat 8 bytes.length ++ bytes)).toNat

end Embedder
