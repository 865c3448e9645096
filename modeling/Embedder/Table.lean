namespace Embedder

/-!
# Tables

A finite table from keys to values, no key twice. Hosts keep their objects in tables by number, and
sessions keep their handles in tables by name.

* `Table.get?`, `Table.set`, `Table.erase`, `Table.modify`: the operations.
* `Table.total`: the sum of a measure over the entries.
* `Pool`: a table by number that hands out numbers never used before.
-/

/-- Entries by key, in no particular order. -/
structure Table (κ α : Type) where
  entries : List (κ × α)
  nodup : (entries.map Prod.fst).Nodup

-- A zero is the numeral, whatever else is imported.
attribute [local instance (1100)] Zero.ofOfNat0

namespace Table

variable {κ α : Type} [DecidableEq κ]

/-- The table without entries. -/
def empty : Table κ α :=
  ⟨[], List.nodup_nil⟩

instance : Inhabited (Table κ α) :=
  ⟨empty⟩

instance : EmptyCollection (Table κ α) :=
  ⟨empty⟩

/-- The value under a key. -/
def get? (t : Table κ α) (k : κ) : Option α :=
  (t.entries.find? fun e => e.1 = k).map Prod.snd

/-- Whether the table has the key. -/
def contains (t : Table κ α) (k : κ) : Bool :=
  (t.get? k).isSome

/-- The entries without a key. -/
def without (entries : List (κ × α)) (k : κ) : List (κ × α) :=
  entries.filter fun e => e.1 ≠ k

theorem nodup_without {entries : List (κ × α)} (h : (entries.map Prod.fst).Nodup) (k : κ) :
    ((without entries k).map Prod.fst).Nodup :=
  h.sublist (List.filter_sublist.map _)

/-- The table without a key. -/
def erase (t : Table κ α) (k : κ) : Table κ α :=
  ⟨without t.entries k, nodup_without t.nodup k⟩

/-- The table with a value under a key. -/
def set (t : Table κ α) (k : κ) (a : α) : Table κ α :=
  ⟨(k, a) :: without t.entries k, by
    refine List.nodup_cons.2 ⟨?_, nodup_without t.nodup k⟩
    simp [without]⟩

/-- The table with the value under a key changed, if it has the key. -/
def modify (t : Table κ α) (k : κ) (f : α → α) : Table κ α :=
  match t.get? k with
  | some a => t.set k (f a)
  | none => t

/-- The sum of a measure over the entries. -/
def total (t : Table κ α) (measure : α → Nat) : Nat :=
  (t.entries.map fun e => measure e.2).sum

/-! ### What each operation does to a look-up -/

@[simp] theorem get?_empty (k : κ) : (empty : Table κ α).get? k = none := rfl

theorem find?_without_self (entries : List (κ × α)) (k : κ) :
    (without entries k).find? (fun e => e.1 = k) = none := by
  simp [without, List.find?_eq_none]

theorem find?_without_of_ne (entries : List (κ × α)) {k j : κ} (h : j ≠ k) :
    (without entries k).find? (fun e => e.1 = j) = entries.find? (fun e => e.1 = j) := by
  induction entries with
  | nil => rfl
  | cons e es ih =>
    by_cases hk : e.1 = k
    · have hj : ¬ e.1 = j := fun hj => h (hj ▸ hk)
      simpa [without, hk, hj, h.symm] using ih
    · by_cases hj : e.1 = j
      · simp [without, hj, h]
      · simpa [without, hk, hj] using ih

@[simp] theorem get?_set_self (t : Table κ α) (k : κ) (a : α) : (t.set k a).get? k = some a := by
  simp [get?, set]

theorem get?_set_of_ne (t : Table κ α) {k j : κ} (a : α) (h : j ≠ k) :
    (t.set k a).get? j = t.get? j := by
  have hk : ¬ k = j := fun e => h e.symm
  simp [get?, set, hk, find?_without_of_ne t.entries h]

@[simp] theorem get?_erase_self (t : Table κ α) (k : κ) : (t.erase k).get? k = none := by
  simp [get?, erase, find?_without_self]

theorem get?_erase_of_ne (t : Table κ α) {k j : κ} (h : j ≠ k) :
    (t.erase k).get? j = t.get? j := by
  simp [get?, erase, find?_without_of_ne t.entries h]

end Table

/-! ### Pools -/

/-- A table by number. Every key is below `next`, so a number is handed out once. -/
structure Pool (α : Type) where
  table : Table Nat α
  next : Nat
  fresh : ∀ e ∈ table.entries, e.1 < next

namespace Pool

variable {α : Type}

/-- The pool without entries. -/
def empty : Pool α :=
  ⟨Table.empty, 0, by simp [Table.empty]⟩

instance : Inhabited (Pool α) :=
  ⟨empty⟩

/-- The value under a number. -/
def get? (p : Pool α) (id : Nat) : Option α :=
  p.table.get? id

theorem lt_next_of_get?_eq_some {p : Pool α} {id : Nat} {a : α} (h : p.get? id = some a) :
    id < p.next := by
  obtain ⟨e, he, rfl⟩ := Option.map_eq_some_iff.1 h
  have key : e.1 = id := by simpa using List.find?_some he
  exact key ▸ p.fresh e (List.mem_of_find?_eq_some he)

/-- The pool with one more value, and its number. -/
def insert (p : Pool α) (a : α) : Pool α × Nat :=
  (⟨p.table.set p.next a, p.next + 1, by
    intro e he
    rcases List.mem_cons.1 he with rfl | he
    · exact Nat.lt_succ_self _
    · exact Nat.lt_succ_of_lt (p.fresh e (List.mem_filter.1 he).1)⟩, p.next)

/-- The pool without a number. -/
def erase (p : Pool α) (id : Nat) : Pool α :=
  ⟨p.table.erase id, p.next, fun e he => p.fresh e (List.mem_filter.1 he).1⟩

/-- The pool with the value under a number changed, if there is one. -/
def modify (p : Pool α) (id : Nat) (f : α → α) : Pool α :=
  match h : p.get? id with
  | none => p
  | some a => ⟨p.table.set id (f a), p.next, by
      intro e he
      rcases List.mem_cons.1 he with rfl | he
      · exact lt_next_of_get?_eq_some h
      · exact p.fresh e (List.mem_filter.1 he).1⟩

/-- The sum of a measure over the values. -/
def total (p : Pool α) (measure : α → Nat) : Nat :=
  p.table.total measure

end Pool

end Embedder
