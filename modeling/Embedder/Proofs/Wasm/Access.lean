import Embedder.Wasm.Memory

namespace Embedder.Wasm.Memory

/-!
# Access to memory

A stretch of memory that is written has the bytes that were written, and no byte outside it has
changed, so what is read beside it is as before. The text at an address ends before the first zero
byte.

* `read?_eq_some`, `write?_eq_some`: when an access succeeds.
* `byteAt_write?`: the bytes beside a write.
* `Overwritten`, `overwritten_of_write?`: all that a write does.
* `read?_eq_some_iff`, `Overwritten.read?`: what is read.
* `HasText`, `cString?_eq_some_iff`: texts in memory.
* `Agrees`: memories with the same bytes inside.
-/

-- Powers are those of the core library, whatever else is imported.
attribute [local instance (1100)] instPowNat

variable {m m' : Memory} {address count : Nat} {bytes : Bytes}

/-- A byte beside the bytes that are replaced. -/
theorem get_setBytes (t : ByteTree) {a : Nat} (ha : a < 2 ^ addressBits)
    (fits : address + bytes.length ≤ 2 ^ addressBits)
    (beside : a < address ∨ address + bytes.length ≤ a) :
    (setBytes t address bytes).get addressBits a = t.get addressBits a := by
  induction bytes generalizing t address with
  | nil => rfl
  | cons b bs ih =>
    rw [List.length_cons] at fits beside
    have lt : address < 2 ^ addressBits := by omega
    have ne : a ≠ address := by omega
    rw [setBytes, ih _ (by omega) (by omega), ByteTree.get_set t b lt ha, if_neg ne]

theorem length_bytesFrom (m : Memory) (address count : Nat) :
    (m.bytesFrom address count).length = count := by
  rw [bytesFrom, List.length_map, List.length_range']

theorem read?_eq_some (inside : address + count ≤ m.size) :
    m.read? address count = some (m.bytesFrom address count) :=
  if_pos inside

theorem write?_eq_some (inside : address + bytes.length ≤ m.size) :
    ∃ m', m.write? address bytes = some m' :=
  ⟨_, if_pos inside⟩

/-- A write changes no byte beside it, and not the size. -/
theorem byteAt_write? (written : m.write? address bytes = some m')
    (fits : address + bytes.length ≤ 2 ^ addressBits) :
    m'.size = m.size ∧ ∀ a, a < 2 ^ addressBits →
      (a < address ∨ address + bytes.length ≤ a) → m'.byteAt a = m.byteAt a := by
  unfold write? at written
  split at written
  case isTrue =>
    cases written
    exact ⟨rfl, fun a ha beside => get_setBytes m.bytes ha fits beside⟩
  case isFalse => cases written

/-- The bytes that are replaced are the new ones. -/
theorem get_setBytes_inside (t : ByteTree) (fits : address + bytes.length ≤ 2 ^ addressBits) {i : Nat}
    (lt : i < bytes.length) :
    (setBytes t address bytes).get addressBits (address + i) = bytes[i] := by
  induction bytes generalizing t address i with
  | nil => exact absurd lt (Nat.not_lt_zero i)
  | cons b bs ih =>
    rw [List.length_cons] at fits lt
    have here : address < 2 ^ addressBits := by omega
    cases i with
    | zero =>
      -- the first byte lies beside those that are replaced after it
      have kept : (setBytes (t.set addressBits address b) (address + 1) bs).get addressBits address =
          (t.set addressBits address b).get addressBits address :=
        get_setBytes _ here (by omega) (.inl (Nat.lt_succ_self address))
      rw [setBytes]
      exact kept.trans ((ByteTree.get_set t b here here).trans (if_pos rfl))
    | succ i =>
      have lt : i < bs.length := by omega
      have rest : (setBytes (t.set addressBits address b) (address + 1) bs).get addressBits
          (address + 1 + i) = bs[i] := ih _ (by omega) lt
      rw [setBytes, show address + (i + 1) = address + 1 + i by omega]
      exact rest

/-- What a memory is after bytes have been written to it: outside the stretch it is as before. Bytes
are counted where 32 bits can address them all. -/
structure Overwritten (m : Memory) (address : Nat) (bytes : Bytes) (m' : Memory) : Prop where
  inside : address + bytes.length ≤ m.size
  size : m'.size = m.size
  maximum : m'.maximum = m.maximum
  here : m.size ≤ 2 ^ addressBits → ∀ i (lt : i < bytes.length), m'.byteAt (address + i) = bytes[i]
  beside : m.size ≤ 2 ^ addressBits → ∀ a, a < m.size →
    (a < address ∨ address + bytes.length ≤ a) → m'.byteAt a = m.byteAt a

/-- **Writing.** A write that succeeds overwrites the stretch, and nothing else. -/
theorem overwritten_of_write? (written : m.write? address bytes = some m') :
    m.Overwritten address bytes m' := by
  unfold write? at written
  split at written
  case isTrue inside =>
    cases written
    refine ⟨inside, rfl, rfl, fun addressable i lt => ?_, fun addressable a ha beside => ?_⟩
    · exact get_setBytes_inside m.bytes (Nat.le_trans inside addressable) lt
    · exact get_setBytes m.bytes (Nat.lt_of_lt_of_le ha addressable)
        (Nat.le_trans inside addressable) beside
  case isFalse => cases written

/-- What is read depends on the bytes of the stretch alone. -/
theorem bytesFrom_congr (same : ∀ a, address ≤ a → a < address + count → m'.byteAt a = m.byteAt a) :
    m'.bytesFrom address count = m.bytesFrom address count := by
  refine List.map_congr_left fun a ha => ?_
  rw [List.mem_range'_1] at ha
  exact same a ha.1 ha.2

/-- A stretch of memory reads as some bytes if it lies inside, and each of its bytes is the one that it
reads as. -/
theorem read?_eq_some_iff : m.read? address bytes.length = some bytes ↔
    address + bytes.length ≤ m.size ∧ ∀ i (lt : i < bytes.length), m.byteAt (address + i) = bytes[i] := by
  rw [read?, Option.ite_none_right_eq_some, Option.some.injEq]
  refine and_congr_right fun _ => ?_
  constructor
  · intro same i lt
    have here : (m.bytesFrom address bytes.length)[i]? = bytes[i]? := by rw [same]
    rw [bytesFrom, List.getElem?_map, List.getElem?_range' lt, List.getElem?_eq_getElem lt] at here
    simpa using here
  · intro same
    refine List.ext_getElem (by simp [bytesFrom]) fun i _ lt => ?_
    simp only [bytesFrom, List.getElem_map, List.getElem_range', Nat.one_mul]
    exact same i lt

/-- What has been written is read. -/
theorem Overwritten.read? (done : m.Overwritten address bytes m')
    (addressable : m.size ≤ 2 ^ addressBits) : m'.read? address bytes.length = some bytes :=
  read?_eq_some_iff.2 ⟨done.size.symm ▸ done.inside, done.here addressable⟩

/-! ### Texts -/

/-- There is a text at an address: bytes that are not zero, and then a zero byte, all of them inside
the memory. -/
structure HasText (m : Memory) (address : Nat) (text : Bytes) : Prop where
  inside : address + text.length < m.size
  bytes : m.bytesFrom address text.length = text
  nonzero : ∀ b ∈ text, b ≠ 0
  stop : m.byteAt (address + text.length) = 0

theorem untilZero_eq_some_iff {text : Bytes} : m.untilZero address count = some text ↔
    text.length < count ∧ m.bytesFrom address text.length = text ∧ (∀ b ∈ text, b ≠ 0) ∧
      m.byteAt (address + text.length) = 0 := by
  induction count generalizing address text with
  | zero => simp [untilZero]
  | succ count ih =>
    unfold untilZero
    dsimp only
    by_cases zero : m.byteAt address = 0
    · rw [if_pos zero]
      cases text with
      | nil => simp [bytesFrom, zero]
      | cons b text =>
        -- the first byte of the text would be the one that is zero
        simp only [Option.some.injEq, reduceCtorEq, false_iff]
        rintro ⟨-, bytes, nonzero, -⟩
        simp only [bytesFrom, List.length_cons, List.range'_succ, List.map_cons,
          List.cons.injEq] at bytes
        exact nonzero b List.mem_cons_self (bytes.1 ▸ zero)
    · rw [if_neg zero]
      cases text with
      | nil => simp [zero]
      | cons b text =>
        have rest : m.untilZero (address + 1) count = some text ↔ _ := ih
        simp only [bytesFrom] at rest
        simp only [Option.map_eq_some_iff, List.cons.injEq, exists_eq_right_right, rest, bytesFrom,
          List.length_cons, List.range'_succ, List.map_cons, List.forall_mem_cons,
          Nat.add_lt_add_iff_right, Nat.add_right_comm address 1, Nat.add_assoc]
        constructor
        · rintro ⟨⟨lt, bytes, nonzero, stop⟩, rfl⟩
          exact ⟨lt, ⟨rfl, bytes⟩, ⟨zero, nonzero⟩, stop⟩
        · rintro ⟨lt, ⟨first, bytes⟩, ⟨-, nonzero⟩, stop⟩
          exact ⟨⟨lt, bytes, nonzero, stop⟩, first⟩

theorem untilZero_eq_none_iff : m.untilZero address count = none ↔
    ∀ a, address ≤ a → a < address + count → m.byteAt a ≠ 0 := by
  induction count generalizing address with
  | zero =>
    refine ⟨fun _ a low high => ?_, fun _ => rfl⟩
    omega
  | succ count ih =>
    unfold untilZero
    dsimp only
    by_cases zero : m.byteAt address = 0
    · rw [if_pos zero]
      refine ⟨nofun, fun none => ?_⟩
      exact absurd zero (none address (Nat.le_refl _) (by omega))
    · rw [if_neg zero, Option.map_eq_none_iff, ih]
      constructor
      -- The first address is not zero here; all others are up to the recursion.
      · intro none a low high
        rcases Nat.eq_or_lt_of_le low with rfl | lt
        · exact zero
        · exact none a lt (by omega)
      · intro none a low high
        exact none a (by omega) (by omega)

/-- Where bytes are read that begin with a text and a zero byte, there is the text. -/
theorem hasText_of_read? {text rest : Bytes} (here : m.read? address bytes.length = some bytes)
    (split : bytes = text ++ 0 :: rest) (nonzero : ∀ b ∈ text, b ≠ 0) : m.HasText address text := by
  obtain ⟨inside, same⟩ := read?_eq_some_iff.1 here
  subst split
  rw [List.length_append, List.length_cons] at inside
  refine ⟨by omega, ?_, nonzero, ?_⟩
  · refine List.ext_getElem (by simp [bytesFrom]) fun i _ lt => ?_
    have byte := same i (by rw [List.length_append]; omega)
    rw [List.getElem_append_left lt] at byte
    simpa [bytesFrom] using byte
  · have byte := same text.length (by simp)
    simpa using byte

/-- **Texts.** What is found at an address is the text that is there. -/
theorem cString?_eq_some_iff {text : Bytes} :
    m.cString? address = some text ↔ m.HasText address text := by
  rw [cString?, untilZero_eq_some_iff]
  constructor
  · rintro ⟨lt, bytes, nonzero, stop⟩
    exact ⟨by omega, bytes, nonzero, stop⟩
  · rintro ⟨inside, bytes, nonzero, stop⟩
    exact ⟨by omega, bytes, nonzero, stop⟩

/-- Nothing is found at an address that is not inside, or after which no byte inside is zero. -/
theorem cString?_eq_none_iff :
    m.cString? address = none ↔ ∀ a, address ≤ a → a < m.size → m.byteAt a ≠ 0 := by
  rw [cString?, untilZero_eq_none_iff]
  refine forall_congr' fun a => forall_congr' fun low => ?_
  have bounds : a < address + (m.size - address) ↔ a < m.size := by omega
  rw [bounds]

/-- In a memory of three bytes, the last of them zero, there are texts at the addresses inside only,
and nothing can be written past the end, not even no bytes at all. -/
example :
    let m : Memory := ⟨3, none, ((ByteTree.uniform 0).set addressBits 0 104).set addressBits 1 105⟩
    m.cString? 0 = some [104, 105] ∧ m.cString? 2 = some [] ∧ m.cString? 3 = none ∧
      (m.write? 3 []).isSome ∧ (m.write? 4 []).isNone := by
  decide

/-! ### Bytes inside -/

/-- Two memories of one size, which 32 bits can address, with the same bytes inside. -/
structure Agrees (m m' : Memory) : Prop where
  addressable : m.size ≤ 2 ^ addressBits
  size : m'.size = m.size
  maximum : m'.maximum = m.maximum
  bytes : ∀ a, a < m.size → m'.byteAt a = m.byteAt a

/-- The text at an address depends on the bytes inside alone. -/
theorem Agrees.cString? (agrees : m.Agrees m') (address : Nat) :
    m'.cString? address = m.cString? address := by
  ext text
  rw [cString?_eq_some_iff, cString?_eq_some_iff]
  have stretch : address + text.length < m.size →
      m'.bytesFrom address text.length = m.bytesFrom address text.length := fun inside =>
    bytesFrom_congr fun a _ high => agrees.bytes a (by omega)
  constructor
  · rintro ⟨inside, bytes, nonzero, stop⟩
    rw [agrees.size] at inside
    exact ⟨inside, stretch inside ▸ bytes, nonzero, agrees.bytes _ inside ▸ stop⟩
  · rintro ⟨inside, bytes, nonzero, stop⟩
    refine ⟨agrees.size.symm ▸ inside, (stretch inside).trans bytes, nonzero, ?_⟩
    exact (agrees.bytes _ inside).trans stop

/-- A write succeeds for both, or for neither, and leaves them with the same bytes inside. -/
theorem Agrees.write? (agrees : m.Agrees m') (address : Nat) (bytes : Bytes) :
    Option.Rel Agrees (m.write? address bytes) (m'.write? address bytes) := by
  by_cases inside : address + bytes.length ≤ m.size
  · obtain ⟨w, hw⟩ := write?_eq_some inside
    obtain ⟨w', hw'⟩ := write?_eq_some (agrees.size.symm ▸ inside)
    have done := overwritten_of_write? hw
    have done' := overwritten_of_write? hw'
    have addressable' : m'.size ≤ 2 ^ addressBits := agrees.size.symm ▸ agrees.addressable
    rw [hw, hw']
    refine .some ⟨done.size ▸ agrees.addressable, ?_, ?_, fun a ha => ?_⟩
    · rw [done'.size, done.size, agrees.size]
    · rw [done'.maximum, done.maximum, agrees.maximum]
    · rw [done.size] at ha
      -- A byte beside the range is what it was, and one in the range is what was written.
      by_cases out : a < address ∨ address + bytes.length ≤ a
      · rw [done.beside agrees.addressable a ha out, ← agrees.bytes a ha]
        exact done'.beside addressable' a (agrees.size.symm ▸ ha) out
      · obtain ⟨i, rfl⟩ := Nat.exists_eq_add_of_le (show address ≤ a by omega)
        have lt : i < bytes.length := by omega
        rw [done.here agrees.addressable i lt, done'.here addressable' i lt]
  · have outside : ¬ address + bytes.length ≤ m'.size := agrees.size.symm ▸ inside
    rw [Memory.write?, Memory.write?, if_neg inside, if_neg outside]
    exact .none

end Embedder.Wasm.Memory
