import Embedder.Bytes

namespace Embedder.Text

/-!
# UTF-8

Decoding of byte strings, one byte at a time. Every longest prefix of a character that is broken
off by a byte that cannot continue it counts as one ill-formed piece.

* `Decoding`, `Decoding.pieces`: the decoder's state, and what it reads from a byte string.
* `decode?`: the text of a well-formed byte string.
* `lossy`: the text with U+FFFD for each ill-formed piece.
-/

/-- Where the decoder stands between two bytes. -/
inductive Decoding where
  /-- Between two characters. -/
  | fresh
  /-- Inside a character: its bits so far, how many bytes are still owed, and the least and the
  greatest value of the next one. -/
  | inside (bits owed low high : Nat)
  deriving DecidableEq, Repr

namespace Decoding

/-- What the first byte of a character gives: a character, a state inside one, or nothing when no
character starts with it. -/
def first (b : Nat) : Option (Char ⊕ Decoding) :=
  if b < 0x80 then some (.inl (Char.ofNat b))
  else if 0xC2 ≤ b ∧ b ≤ 0xDF then some (.inr (.inside (b - 0xC0) 1 0x80 0xBF))
  else if b = 0xE0 then some (.inr (.inside 0 2 0xA0 0xBF))
  else if b = 0xED then some (.inr (.inside 0xD 2 0x80 0x9F))
  else if 0xE1 ≤ b ∧ b ≤ 0xEF then some (.inr (.inside (b - 0xE0) 2 0x80 0xBF))
  else if b = 0xF0 then some (.inr (.inside 0 3 0x90 0xBF))
  else if 0xF1 ≤ b ∧ b ≤ 0xF3 then some (.inr (.inside (b - 0xF0) 3 0x80 0xBF))
  else if b = 0xF4 then some (.inr (.inside 4 3 0x80 0x8F))
  else none

/-- The pieces a byte gives between two characters, and the state after it. -/
def start (b : Nat) : List (Option Char) × Decoding :=
  match first b with
  | some (.inl c) => ([some c], .fresh)
  | some (.inr state) => ([], state)
  | none => ([none], .fresh)

/-- The pieces a byte gives in a state, and the state after it. A byte that cannot continue the
character ends it as ill-formed and is then read as a first byte. -/
def step : Decoding → Nat → List (Option Char) × Decoding
  | .fresh, b => start b
  | .inside bits owed low high, b =>
    if low ≤ b ∧ b ≤ high then
      let bits := 64 * bits + (b - 0x80)
      if owed ≤ 1 then ([some (Char.ofNat bits)], .fresh)
      else ([], .inside bits (owed - 1) 0x80 0xBF)
    else
      let (pieces, state) := start b
      (none :: pieces, state)

/-- The pieces of a byte string from a state on: characters, and `none` for what is ill-formed. -/
def pieces : Decoding → Bytes → List (Option Char)
  | .fresh, [] => []
  | .inside .., [] => [none]
  | state, b :: bs => (state.step b.toNat).1 ++ pieces (state.step b.toNat).2 bs

end Decoding

/-- The text of a well-formed byte string. -/
def decode? (bs : Bytes) : Option String :=
  ((Decoding.fresh.pieces bs).mapM id).map String.ofList

/-- The text of a byte string, with U+FFFD in place of each ill-formed piece. -/
def lossy (bs : Bytes) : String :=
  String.ofList ((Decoding.fresh.pieces bs).map fun p => p.getD '\uFFFD')

end Embedder.Text
