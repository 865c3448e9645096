import Embedder.GuestType

namespace Embedder

/-!
# Layouts

A type of plain data has slots of a fixed size. A value is stored in a slot and loaded from one, and
nothing else is asked of it: a user of the library may bring any type that says how.

* `Layout`: a type of plain data.
* `Layout.Undoes`: a value that is loaded as it was stored.
* `GuestType.layout`: the layouts of guest types, and that they lose nothing (`load_store`,
  `store_load`).
-/

-- Powers are those of the core library, whatever else is imported.
attribute [local instance (1100)] instPowNat

/-- How values are laid out in slots of so many bytes. A value may leave bytes of its slot as they
are. -/
structure Layout (α : Type) where
  size : Nat
  store : α → Bytes → Bytes
  load : Bytes → α
  length_store : ∀ v slot, slot.length = size → (store v slot).length = size

/-- From whatever slot the value is stored in, it is loaded again. -/
def Layout.Undoes {α : Type} (l : Layout α) (v : α) : Prop :=
  ∀ slot : Bytes, slot.length = l.size → l.load (l.store v slot) = v

/-! ### Numbers in bytes -/

namespace Bytes

theorem toNat_lt (bs : Bytes) : toNat bs < 256 ^ bs.length := by
  induction bs with
  | nil => decide
  | cons b bs ih =>
    have low := b.toNat_lt
    rw [toNat, List.length_cons, Nat.pow_succ]
    omega

/-- A byte string is the number it stands for. -/
theorem ofNat_toNat (bs : Bytes) : ofNat bs.length (toNat bs) = bs := by
  induction bs with
  | nil => rfl
  | cons b bs ih =>
    have low := b.toNat_lt
    have first : UInt8.ofNat (b.toNat + 256 * toNat bs) = b := by
      apply UInt8.toNat_inj.1
      rw [UInt8.toNat_ofNat']
      omega
    have rest : (b.toNat + 256 * toNat bs) / 256 = toNat bs := by omega
    rw [List.length_cons, toNat, ofNat, first, rest, ih]

end Bytes

/-! ### Numbers and their residues -/

/-- A number below a bound is its residue. -/
theorem toNat_emod {v : Int} {N : Nat} (low : 0 ≤ v) (high : v < N) : (v % N).toNat = v.toNat := by
  rw [Int.emod_eq_of_lt low high]

/-- A residue stands for a negative number, too. -/
theorem toNat_emod_neg {v : Int} {N : Nat} (neg : v < 0) (low : -(N : Int) ≤ v) :
    (v % N).toNat = (v + N).toNat := by
  rw [Int.emod_eq_add_self_emod, Int.emod_eq_of_lt (by omega) (by omega)]

/-! ### Guest types -/

namespace GuestType

variable (t : GuestType)

/-- The layout of a guest type. Bytes of a slot past the type's size are left alone. -/
def layout : Layout Datum where
  size := t.size
  store d slot := t.store d ++ slot.drop t.size
  load := t.load
  length_store d slot length := by simp [length]

variable {t}

/-- **Loading undoes storing.** A value of the type is loaded as it was stored, whatever follows it in
its slot. -/
theorem load_store {d : Datum} (accepts : t.accepts d) (rest : Bytes) :
    t.load (t.store d ++ rest) = d := by
  have slot : (t.store d ++ rest).take t.size = t.store d := List.take_left' (t.length_store d)
  have cast : (256 ^ t.size : Int) = ((256 ^ t.size : Nat) : Int) := (Int.natCast_pow 256 t.size).symm
  rw [load, slot]
  cases d with
  | int v =>
    cases form : t.form with
    | unsigned =>
      simp only [GuestType.accepts, form, Bool.and_eq_true, decide_eq_true_eq] at accepts
      simp only [store, Bytes.toNat_ofNat, Datum.int.injEq]
      rw [cast] at accepts ⊢
      generalize 256 ^ t.size = N at accepts
      rw [toNat_emod accepts.1 accepts.2, Nat.mod_eq_of_lt (by omega)]
      omega
    | signed =>
      simp only [GuestType.accepts, form, Bool.and_eq_true, decide_eq_true_eq] at accepts
      simp only [store, Bytes.toNat_ofNat, Datum.int.injEq]
      rw [cast] at accepts ⊢
      -- A negative number is stored as what it is short of the range, and read as the greater
      -- half of it.
      generalize 256 ^ t.size = N at accepts
      by_cases neg : v < 0
      · rw [toNat_emod_neg neg (by omega), Nat.mod_eq_of_lt (by omega), if_neg (by omega)]
        omega
      · rw [toNat_emod (by omega) (by omega), Nat.mod_eq_of_lt (by omega), if_pos (by omega)]
        omega
    | float => simp [GuestType.accepts, form] at accepts
    | raw => simp [GuestType.accepts, form] at accepts
  | bits n =>
    simp only [GuestType.accepts, Bool.and_eq_true, decide_eq_true_eq] at accepts
    obtain ⟨form, lt⟩ := accepts
    rw [form]
    simp only [store]
    rw [Bytes.toNat_ofNat, Nat.mod_eq_of_lt lt]
  | raw bytes =>
    simp only [GuestType.accepts, Bool.and_eq_true, decide_eq_true_eq] at accepts
    obtain ⟨form, length⟩ := accepts
    rw [form]
    simp only [store]
    rw [List.take_left' length]

/-- **Storing undoes loading.** What is loaded from a slot is a value of the type, and is stored as the
bytes that it was loaded from. -/
theorem store_load {slot : Bytes} (enough : t.size ≤ slot.length) :
    t.accepts (t.load slot) = true ∧ t.store (t.load slot) = slot.take t.size := by
  have length : (slot.take t.size).length = t.size := List.length_take_of_le enough
  have lt := Bytes.toNat_lt (slot.take t.size)
  have back := Bytes.ofNat_toNat (slot.take t.size)
  have cast : (256 ^ t.size : Int) = ((256 ^ t.size : Nat) : Int) := (Int.natCast_pow 256 t.size).symm
  rw [length] at lt back
  rw [load]
  generalize slot.take t.size = bytes at *
  cases form : t.form with
  | unsigned =>
    simp only [GuestType.accepts, form, store, Bool.and_eq_true, decide_eq_true_eq]
    rw [cast, toNat_emod (by omega) (by omega), Int.toNat_natCast]
    exact ⟨by omega, back⟩
  | signed =>
    dsimp only
    rw [cast]
    -- The greater half of the range stands for negative numbers.
    by_cases low : 2 * Bytes.toNat bytes < 256 ^ t.size
    · rw [if_pos low]
      simp only [GuestType.accepts, form, store, Bool.and_eq_true, decide_eq_true_eq]
      rw [cast, toNat_emod (by omega) (by omega), Int.toNat_natCast]
      exact ⟨by omega, back⟩
    · rw [if_neg low]
      simp only [GuestType.accepts, form, store, Bool.and_eq_true, decide_eq_true_eq]
      rw [cast, toNat_emod_neg (by omega) (by omega), Int.sub_add_cancel, Int.toNat_natCast]
      exact ⟨by omega, back⟩
  | float => simp [GuestType.accepts, form, store, lt, back]
  | raw => simp [GuestType.accepts, form, store, length, List.take_left' length]

end GuestType

end Embedder
