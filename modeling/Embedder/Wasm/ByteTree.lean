import Embedder.Bytes

namespace Embedder.Wasm

/-!
# Byte trees

Bytes at the addresses below a power of two, with large stretches of one byte held once. The
height, which is the exponent, is an argument of every operation.

* `ByteTree.get`, `ByteTree.set`, `ByteTree.fill`: the operations.
* `get_set`, `get_fill`: what a byte is after a change.
-/

-- Powers are those of the core library, whatever else is imported.
attribute [local instance (1100)] instPowNat

/-- A binary tree over addresses; a stretch of equal bytes is one leaf. -/
inductive ByteTree where
  | uniform (b : UInt8)
  | node (low high : ByteTree)
  deriving Repr

namespace ByteTree

/-- The byte at an address. -/
def get : (height : Nat) → ByteTree → (address : Nat) → UInt8
  | _, uniform b, _ => b
  | 0, node .., _ => 0
  | h + 1, node low high, i => if i < 2 ^ h then get h low i else get h high (i - 2 ^ h)

/-- The lower and the upper half. -/
def halves : ByteTree → ByteTree × ByteTree
  | uniform b => (uniform b, uniform b)
  | node low high => (low, high)

/-- The tree with another byte at an address. -/
def set : (height : Nat) → ByteTree → (address : Nat) → UInt8 → ByteTree
  | 0, _, _, b => uniform b
  | h + 1, t, i, b =>
    let (low, high) := t.halves
    if i < 2 ^ h then node (set h low i b) high else node low (set h high (i - 2 ^ h) b)

/-- The tree with one byte at the addresses from `start` on and below `stop`. -/
def fill : (height : Nat) → ByteTree → (start stop : Nat) → UInt8 → ByteTree
  | 0, t, start, stop, b => if start = 0 ∧ 0 < stop then uniform b else t
  | h + 1, t, start, stop, b =>
    if stop ≤ start ∨ 2 ^ (h + 1) ≤ start then t
    else if start = 0 ∧ 2 ^ (h + 1) ≤ stop then uniform b
    else
      let (low, high) := t.halves
      node (fill h low start stop b) (fill h high (start - 2 ^ h) (stop - 2 ^ h) b)

/-! ### What a byte is after a change -/

theorem get_uniform (h : Nat) (b : UInt8) (i : Nat) : get h (uniform b) i = b := by
  cases h <;> rfl

theorem get_succ (h : Nat) (t : ByteTree) (i : Nat) :
    get (h + 1) t i =
      if i < 2 ^ h then get h t.halves.1 i else get h t.halves.2 (i - 2 ^ h) := by
  cases t with
  | uniform b => simp [get, halves, get_uniform]
  | node low high => rfl

/-- A changed byte is the new one at its address and the old one elsewhere. -/
theorem get_set {h : Nat} (t : ByteTree) {i j : Nat} (b : UInt8) (hi : i < 2 ^ h)
    (hj : j < 2 ^ h) : get h (set h t i b) j = if j = i then b else get h t j := by
  induction h generalizing t i j with
  | zero =>
    have e : j = i := by simp at hi hj; omega
    simp [set, get, e]
  | succ h ih =>
    rw [Nat.pow_succ] at hi hj
    rw [set, get_succ h t j]
    by_cases hlo : i < 2 ^ h
    · by_cases hj' : j < 2 ^ h
      · simp [hlo, hj', get, ih _ hlo hj']
      · have hne : ¬ j = i := by omega
        simp [hlo, hj', get, hne]
    · by_cases hj' : j < 2 ^ h
      · have hne : ¬ j = i := by omega
        simp [hlo, hj', get, hne]
      · have e : j - 2 ^ h = i - 2 ^ h ↔ j = i := by omega
        simp [hlo, hj', get, ih t.halves.2 (i := i - 2 ^ h) (j := j - 2 ^ h) (by omega)
          (by omega), e]

/-- A filled byte is the new one inside the stretch and the old one outside. -/
theorem get_fill {h : Nat} (t : ByteTree) (start stop : Nat) (b : UInt8) {j : Nat}
    (hj : j < 2 ^ h) :
    get h (fill h t start stop b) j = if start ≤ j ∧ j < stop then b else get h t j := by
  induction h generalizing t start stop j with
  | zero =>
    have e : j = 0 := by simpa using hj
    subst e
    by_cases hs : start = 0 <;> simp [fill, hs]
    · split <;> simp [get_uniform]
  | succ h ih =>
    rw [Nat.pow_succ] at hj
    rw [fill]
    -- The range misses the tree, covers it, or is carried on to its halves.
    by_cases hout : stop ≤ start ∨ 2 ^ (h + 1) ≤ start
    · have hne : ¬ (start ≤ j ∧ j < stop) := by
        rcases hout with hout | hout
        · omega
        · rw [Nat.pow_succ] at hout; omega
      simp [hout, hne]
    · by_cases hall : start = 0 ∧ 2 ^ (h + 1) ≤ stop
      · have hin : start ≤ j ∧ j < stop := by
          have := hall.2
          rw [Nat.pow_succ] at this
          omega
        rw [if_neg hout, if_pos hall, if_pos hin, get_uniform]
      · rw [if_neg hout, if_neg hall, get_succ h t j, get]
        by_cases hj' : j < 2 ^ h
        · simp [hj', ih _ start stop hj']
        · have e : start - 2 ^ h ≤ j - 2 ^ h ∧ j - 2 ^ h < stop - 2 ^ h ↔ start ≤ j ∧ j < stop := by
            omega
          rw [if_neg hj', if_neg hj', ih _ (start - 2 ^ h) (stop - 2 ^ h) (by omega)]
          simp only [e]

end ByteTree

end Embedder.Wasm
