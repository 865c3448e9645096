import Mathlib.Algebra.BigOperators.Group.List.Basic
import Mathlib.Algebra.GroupWithZero.Nat
import Mathlib.Data.List.Nodup
import Embedder.Table

namespace Embedder

/-!
# Sums over tables and pools

What each operation does to a look-up and to a sum over all entries.

* `Table.tally`: the sum of a measure of keys and values.
* `Table.tally_set`, `Table.tally_erase`: one entry more, one entry less.
* `Table.total_set`, `Table.total_erase`: the same for a measure of the values, whatever was there.
* `Pool.get?_insert`, `Pool.get?_erase`, `Pool.get?_modify`: look-ups after a change.
* `Pool.total_insert`, `Pool.total_erase`, `Pool.total_modify`: sums after a change.
* `Pool.values`, `Pool.lost`: all values as a list, and those that another pool has lost.
* `Pool.Since`: pools that come from others.
-/

namespace Table

variable {κ α : Type}

/-- The sum of a measure over the entries, keys included. -/
def tally (t : Table κ α) (f : κ × α → Nat) : Nat :=
  (t.entries.map f).sum

theorem total_eq_tally (t : Table κ α) (f : α → Nat) : t.total f = t.tally fun e => f e.2 := rfl

@[simp] theorem tally_empty (f : κ × α → Nat) : (empty : Table κ α).tally f = 0 := rfl

@[simp] theorem total_empty (f : α → Nat) : (empty : Table κ α).total f = 0 := rfl

variable [DecidableEq κ]

/-! ### One entry among the others -/

/-- What is found under a key is the entry of the key, as there is only one. -/
theorem get?_eq_some_iff (t : Table κ α) {k : κ} {a : α} :
    t.get? k = some a ↔ (k, a) ∈ t.entries := by
  constructor
  · intro h
    obtain ⟨e, he, rfl⟩ := Option.map_eq_some_iff.1 h
    have key : e.1 = k := by simpa using List.find?_some he
    exact key ▸ List.mem_of_find?_eq_some he
  · intro h
    obtain ⟨e, he⟩ : ∃ e, t.entries.find? (fun e => e.1 = k) = some e := by
      rw [← Option.isSome_iff_exists, List.find?_isSome]
      exact ⟨_, h, by simp⟩
    have key : e.1 = k := by simpa using List.find?_some he
    have same : e = (k, a) :=
      List.inj_on_of_nodup_map t.nodup (List.mem_of_find?_eq_some he) h key
    rw [get?, he, same]
    rfl

/-- Nothing is found under a key that no entry has. -/
theorem get?_eq_none_iff (t : Table κ α) {k : κ} :
    t.get? k = none ↔ ∀ e ∈ t.entries, e.1 ≠ k := by
  simp [get?, List.find?_eq_none]

/-- Without a key that it has not, a list is as it was. -/
theorem without_eq_self {entries : List (κ × α)} {k : κ} (h : ∀ e ∈ entries, e.1 ≠ k) :
    without entries k = entries :=
  List.filter_eq_self.2 fun e he => by simpa using h e he

/-- An entry and the entries with other keys are all entries. -/
theorem perm_cons_without {entries : List (κ × α)} (nodup : (entries.map Prod.fst).Nodup)
    {e : κ × α} (he : e ∈ entries) : entries.Perm (e :: without entries e.1) := by
  induction entries with
  | nil => simp at he
  | cons d ds ih =>
    obtain ⟨hd, hds⟩ := List.nodup_cons.1 nodup
    rcases List.mem_cons.1 he with rfl | he
    · have others : ∀ c ∈ ds, c.1 ≠ e.1 := fun c hc eq => hd (eq ▸ List.mem_map_of_mem hc)
      have skip : without (e :: ds) e.1 = without ds e.1 := by simp [without]
      rw [skip, without_eq_self others]
    · have ne : d.1 ≠ e.1 := fun eq => hd (eq ▸ List.mem_map_of_mem he)
      have keep : without (d :: ds) e.1 = d :: without ds e.1 := by simp [without, ne]
      rw [keep]
      exact ((ih hds he).cons d).trans (.swap e d _)

/-! ### Sums -/

/-- An entry counts once. -/
theorem tally_erase (t : Table κ α) {k : κ} {a : α} (h : t.get? k = some a) (f : κ × α → Nat) :
    (t.erase k).tally f + f (k, a) = t.tally f := by
  have perm := perm_cons_without t.nodup ((get?_eq_some_iff t).1 h)
  have sum := (perm.map f).sum_eq
  rw [List.map_cons, List.sum_cons] at sum
  rw [tally, tally, sum, Nat.add_comm]
  rfl

/-- Where there is no entry, there is nothing to erase. -/
theorem erase_eq_self (t : Table κ α) {k : κ} (h : t.get? k = none) : t.erase k = t := by
  cases t
  simp only [erase, mk.injEq]
  exact without_eq_self ((get?_eq_none_iff _).1 h)

/-- A new entry counts next to those with other keys. -/
theorem tally_set (t : Table κ α) (k : κ) (a : α) (f : κ × α → Nat) :
    (t.set k a).tally f = f (k, a) + (t.erase k).tally f := by
  simp [tally, set, erase]

/-- A tally depends on what is in the table only. -/
theorem tally_congr (t : Table κ α) {f g : κ × α → Nat}
    (h : ∀ k a, t.get? k = some a → f (k, a) = g (k, a)) : t.tally f = t.tally g := by
  rw [tally, tally, List.map_congr_left fun e he => h e.1 e.2 ((get?_eq_some_iff t).2 he)]

/-- A measure that is zero on every entry adds up to zero, and conversely. -/
theorem tally_eq_zero_iff (t : Table κ α) (f : κ × α → Nat) :
    t.tally f = 0 ↔ ∀ k a, t.get? k = some a → f (k, a) = 0 := by
  simp only [tally, List.sum_eq_zero_iff_forall_eq_nat, List.mem_map, get?_eq_some_iff]
  exact ⟨fun h k a hk => h _ ⟨_, hk, rfl⟩, fun h _ ⟨⟨k, a⟩, he, e⟩ => e ▸ h k a he⟩

/-- Where a sum is positive, some entry has a positive measure. -/
theorem exists_of_tally_pos {t : Table κ α} {f : κ × α → Nat} (h : 0 < t.tally f) :
    ∃ k a, t.get? k = some a ∧ 0 < f (k, a) := by
  by_contra none
  refine Nat.ne_of_gt h ((tally_eq_zero_iff t f).2 fun k a hk => ?_)
  by_contra pos
  exact none ⟨k, a, hk, Nat.pos_of_ne_zero pos⟩

/-- An entry adds its own share to a tally. -/
theorem le_tally {t : Table κ α} {k : κ} {a : α} (h : t.get? k = some a) (f : κ × α → Nat) :
    f (k, a) ≤ t.tally f := by
  have := tally_erase t h f
  omega

/-- Without a key, the sum is less by the measure of what was under it. -/
theorem total_erase (t : Table κ α) (k : κ) (f : α → Nat) :
    (t.erase k).total f + ((t.get? k).map f).getD 0 = t.total f := by
  cases h : t.get? k with
  | none => rw [erase_eq_self t h]; rfl
  | some a => exact tally_erase t h fun e => f e.2

/-- With a value under a key, the sum is more by its measure, and less by that of the old value. -/
theorem total_set (t : Table κ α) (k : κ) (a : α) (f : α → Nat) :
    (t.set k a).total f + ((t.get? k).map f).getD 0 = t.total f + f a := by
  have erased := total_erase t k f
  have set : (t.set k a).total f = f a + (t.erase k).total f := tally_set t k a fun e => f e.2
  omega

/-! ### Look-ups -/

/-- What is set is found under its key, and the rest is as it was. -/
theorem get?_set (t : Table κ α) (k j : κ) (a : α) :
    (t.set k a).get? j = if j = k then some a else t.get? j := by
  split
  case isTrue h => rw [h, get?_set_self]
  case isFalse h => exact get?_set_of_ne t a h

/-- What is erased is not found, and the rest is as it was. -/
theorem get?_erase (t : Table κ α) (k j : κ) :
    (t.erase k).get? j = if j = k then none else t.get? j := by
  split
  case isTrue h => rw [h, get?_erase_self]
  case isFalse h => exact get?_erase_of_ne t h

/-- A table from which all its keys are erased one after the other has none left. -/
theorem get?_foldl_erase (t : Table κ α) (k : κ) :
    ((t.entries.map Prod.fst).foldl erase t).get? k = none := by
  -- Erasing never brings a key back, so only the keys of the table itself matter.
  have erased : ∀ (keys : List κ) (u : Table κ α),
      (keys.foldl erase u).get? k = if k ∈ keys then none else u.get? k := by
    intro keys
    induction keys with
    | nil => intro u; simp
    | cons j keys ih =>
      intro u
      rw [List.foldl_cons, ih, get?_erase]
      by_cases here : k = j <;> simp [here]
  rw [erased]
  split
  case isTrue => rfl
  case isFalse absent =>
    refine (get?_eq_none_iff t).2 fun e he eq => absent ?_
    exact eq ▸ List.mem_map_of_mem he

end Table

namespace Pool

variable {α : Type}

/-! ### Look-ups -/

@[simp] theorem get?_empty (id : Nat) : (empty : Pool α).get? id = none := rfl

/-- The next number stands for nothing yet. -/
theorem get?_next (p : Pool α) : p.get? p.next = none := by
  cases h : p.get? p.next with
  | none => rfl
  | some a => exact absurd (lt_next_of_get?_eq_some h) (Nat.lt_irrefl _)

@[simp] theorem insert_snd (p : Pool α) (a : α) : (p.insert a).2 = p.next := rfl

@[simp] theorem next_insert (p : Pool α) (a : α) : (p.insert a).1.next = p.next + 1 := rfl

@[simp] theorem next_erase (p : Pool α) (id : Nat) : (p.erase id).next = p.next := rfl

theorem get?_insert (p : Pool α) (a : α) (id : Nat) :
    (p.insert a).1.get? id = if id = p.next then some a else p.get? id := by
  split
  case isTrue h => exact h ▸ Table.get?_set_self _ _ _
  case isFalse h => exact Table.get?_set_of_ne _ _ h

/-- A new value has the number that is answered. -/
theorem get?_inserted (p : Pool α) (a : α) : (p.insert a).1.get? (p.insert a).2 = some a :=
  Table.get?_set_self _ _ _

theorem get?_erase (p : Pool α) (id j : Nat) :
    (p.erase id).get? j = if j = id then none else p.get? j := by
  split
  case isTrue h => exact h ▸ Table.get?_erase_self _ _
  case isFalse h => exact Table.get?_erase_of_ne _ h

/-- What is not there does not change. -/
theorem modify_of_none {p : Pool α} {id : Nat} (h : p.get? id = none) (f : α → α) :
    p.modify id f = p := by
  unfold modify
  split
  · rfl
  · simp_all

/-- To change what is there is to set it anew, with the same next number. -/
theorem modify_of_some {p : Pool α} {id : Nat} {a : α} (h : p.get? id = some a) (f : α → α) :
    (p.modify id f).table = p.table.set id (f a) ∧ (p.modify id f).next = p.next := by
  unfold modify
  split
  · simp_all
  · simp_all

@[simp] theorem next_modify (p : Pool α) (id : Nat) (f : α → α) : (p.modify id f).next = p.next := by
  cases h : p.get? id with
  | none => rw [modify_of_none h]
  | some a => exact (modify_of_some h f).2

theorem get?_modify (p : Pool α) (id : Nat) (f : α → α) (j : Nat) :
    (p.modify id f).get? j = if j = id then (p.get? j).map f else p.get? j := by
  cases h : p.get? id with
  | none =>
    rw [modify_of_none h]
    split
    case isTrue e => rw [e, h]; rfl
    case isFalse => rfl
  | some a =>
    rw [get?, (modify_of_some h f).1]
    split
    case isTrue e => rw [e, h]; exact Table.get?_set_self _ _ _
    case isFalse e => exact Table.get?_set_of_ne _ _ e

/-- What a change does to a value that is known. -/
theorem modify_congr {p : Pool α} {id : Nat} {a : α} (h : p.get? id = some a) {f g : α → α}
    (same : f a = g a) : p.modify id f = p.modify id g := by
  unfold modify
  split
  · rfl
  case h_2 b hb =>
    have : a = b := Option.some.inj (h.symm.trans hb)
    subst this
    simp only [same]

/-- Two changes under one number are one change. -/
theorem modify_modify (p : Pool α) (id : Nat) (f g : α → α) :
    (p.modify id f).modify id g = p.modify id (g ∘ f) := by
  cases h : p.get? id with
  | none => rw [modify_of_none h, modify_of_none h, modify_of_none h]
  | some a =>
    have h' : (p.modify id f).get? id = some (f a) := by rw [get?_modify, if_pos rfl, h]; rfl
    obtain ⟨table, next⟩ := modify_of_some h' g
    obtain ⟨table', next'⟩ := modify_of_some h f
    obtain ⟨table'', next''⟩ := modify_of_some h (g ∘ f)
    have same : ((p.modify id f).modify id g).table = (p.modify id (g ∘ f)).table := by
      rw [table, table', table'']
      simp only [Table.set, Table.without, List.filter_cons, ne_eq, not_true,
        decide_false, Bool.false_eq_true, if_false, List.filter_filter, Bool.and_self,
        Function.comp_apply]
    have next_eq : ((p.modify id f).modify id g).next = (p.modify id (g ∘ f)).next := by
      rw [next, next', next'']
    generalize (p.modify id f).modify id g = q at same next_eq
    generalize p.modify id (g ∘ f) = q' at same next_eq
    cases q
    cases q'
    simp_all

/-! ### Conditions on all values -/

/-- Every value of a pool satisfies a condition. -/
def All (p : Pool α) (P : α → Prop) : Prop :=
  ∀ id a, p.get? id = some a → P a

/-- What holds of all values holds after one more, if it does of the new one. -/
theorem All.insert {p : Pool α} {P : α → Prop} (h : p.All P) {a : α} (ha : P a) :
    (p.insert a).1.All P := by
  intro id b hb
  rw [get?_insert] at hb
  split at hb
  case isTrue => exact Option.some.inj hb ▸ ha
  case isFalse => exact h id b hb

/-- What holds of all values holds of fewer. -/
theorem All.erase {p : Pool α} {P : α → Prop} (h : p.All P) (j : Nat) : (p.erase j).All P := by
  intro id b hb
  rw [get?_erase] at hb
  split at hb
  case isTrue => cases hb
  case isFalse => exact h id b hb

/-- What holds of all values holds after a change that keeps it. -/
theorem All.modify {p : Pool α} {P : α → Prop} (h : p.All P) {j : Nat} {f : α → α}
    (hf : ∀ a, p.get? j = some a → P (f a)) : (p.modify j f).All P := by
  intro id b hb
  rw [get?_modify] at hb
  split at hb
  case isTrue e =>
    obtain ⟨a, ha, rfl⟩ := Option.map_eq_some_iff.1 hb
    exact hf a (e ▸ ha)
  case isFalse => exact h id b hb

/-! ### Sums -/

@[simp] theorem total_empty (f : α → Nat) : (empty : Pool α).total f = 0 := rfl

/-- A new value adds its share to a total. -/
theorem total_insert (p : Pool α) (a : α) (f : α → Nat) :
    (p.insert a).1.total f = p.total f + f a := by
  show (p.table.set p.next a).tally _ = p.table.tally _ + _
  rw [Table.tally_set, Table.erase_eq_self _ (get?_next p), Nat.add_comm]

/-- A value that goes takes its share along. -/
theorem total_erase {p : Pool α} {id : Nat} {a : α} (h : p.get? id = some a) (f : α → Nat) :
    (p.erase id).total f + f a = p.total f :=
  Table.tally_erase p.table h fun e => f e.2

/-- A value that changes trades its share. -/
theorem total_modify {p : Pool α} {id : Nat} {a : α} (h : p.get? id = some a) (u : α → α)
    (f : α → Nat) : (p.modify id u).total f + f a = p.total f + f (u a) := by
  have erase := total_erase h f
  have set := Table.tally_set p.table id (u a) fun e => f e.2
  rw [← Table.total_eq_tally, ← Table.total_eq_tally, ← (modify_of_some h u).1] at set
  simp only [Pool.total, Pool.erase] at *
  omega

/-- A change that a measure does not see leaves the sum as it is. -/
theorem total_modify_of_eq (p : Pool α) (id : Nat) {u : α → α} {f : α → Nat}
    (h : ∀ a, f (u a) = f a) : (p.modify id u).total f = p.total f := by
  cases hp : p.get? id with
  | none => rw [modify_of_none hp]
  | some a =>
    have := total_modify hp u f
    rw [h] at this
    omega

theorem total_congr (p : Pool α) {f g : α → Nat} (h : ∀ id a, p.get? id = some a → f a = g a) :
    p.total f = p.total g :=
  Table.tally_congr p.table h

/-- A total is nothing just if no value has a share. -/
theorem total_eq_zero_iff (p : Pool α) (f : α → Nat) :
    p.total f = 0 ↔ ∀ id a, p.get? id = some a → f a = 0 :=
  Table.tally_eq_zero_iff p.table _

/-- A total that is something comes from some value. -/
theorem exists_of_total_pos {p : Pool α} {f : α → Nat} (h : 0 < p.total f) :
    ∃ id a, p.get? id = some a ∧ 0 < f a :=
  Table.exists_of_tally_pos h

theorem le_total {p : Pool α} {id : Nat} {a : α} (h : p.get? id = some a) (f : α → Nat) :
    f a ≤ p.total f :=
  Table.le_tally h fun e => f e.2

/-- Pools whose values look the same add up to the same. -/
theorem total_eq_of_get? {p q : Pool α} {f : α → Nat}
    (same : ∀ id, (p.get? id).map f = (q.get? id).map f) : p.total f = q.total f := by
  have entry : ∀ (r : Pool α) (e : Nat × Nat),
      e ∈ r.table.entries.map (fun e => (e.1, f e.2)) ↔ (r.get? e.1).map f = some e.2 := by
    intro r e
    simp only [List.mem_map, Option.map_eq_some_iff]
    constructor
    · rintro ⟨d, hd, rfl⟩
      exact ⟨d.2, (Table.get?_eq_some_iff r.table).2 hd, rfl⟩
    · rintro ⟨a, ha, fa⟩
      exact ⟨(e.1, a), (Table.get?_eq_some_iff r.table).1 ha, by rw [fa]⟩
  have nodup : ∀ r : Pool α, (r.table.entries.map fun e => (e.1, f e.2)).Nodup := by
    intro r
    refine List.Nodup.of_map Prod.fst ?_
    rw [List.map_map]
    exact r.table.nodup
  -- Entries are listed in an order of their own, so the two lists are the same up to order only.
  have perm : (p.table.entries.map fun e => (e.1, f e.2)).Perm
      (q.table.entries.map fun e => (e.1, f e.2)) :=
    (List.perm_ext_iff_of_nodup (nodup p) (nodup q)).2 fun e => by rw [entry, entry, same]
  have sum := (perm.map Prod.snd).sum_eq
  rw [List.map_map, List.map_map] at sum
  exact sum

/-! ### The values -/

/-- All values of a pool, in no particular order. -/
def values (p : Pool α) : List α :=
  p.table.entries.map Prod.snd

theorem mem_values {p : Pool α} {a : α} : a ∈ p.values ↔ ∃ id, p.get? id = some a := by
  constructor
  · intro h
    obtain ⟨e, he, rfl⟩ := List.mem_map.1 h
    exact ⟨e.1, (Table.get?_eq_some_iff p.table).2 he⟩
  · rintro ⟨id, h⟩
    exact List.mem_map.2 ⟨(id, a), (Table.get?_eq_some_iff p.table).1 h, rfl⟩

/-- A new value comes first. -/
theorem values_insert (p : Pool α) (a : α) : (p.insert a).1.values = a :: p.values := by
  have others := Table.without_eq_self ((Table.get?_eq_none_iff p.table).1 (get?_next p))
  show a :: (Table.without p.table.entries p.next).map Prod.snd = a :: p.values
  rw [others]
  rfl

/-- The values of a pool are the one that goes and the others. -/
theorem values_erase {p : Pool α} {id : Nat} {a : α} (h : p.get? id = some a) :
    p.values.Perm (a :: (p.erase id).values) :=
  (Table.perm_cons_without p.table.nodup ((Table.get?_eq_some_iff p.table).1 h)).map Prod.snd

/-- The values of a pool whose numbers stand for nothing in another one. -/
def lost (p q : Pool α) : List α :=
  (p.table.entries.filter fun e => (q.get? e.1).isNone).map Prod.snd

/-- Where a pool has no new values of a kind, those of an older one are there or lost. -/
theorem values_lost {p q : Pool α} {P : α → Bool}
    (same : ∀ id a b, p.get? id = some a → q.get? id = some b → a = b)
    (older : ∀ id b, q.get? id = some b → P b → p.get? id = some b) :
    (p.values.filter P).Perm (q.values.filter P ++ (p.lost q).filter P) := by
  have nodup : ∀ r : Pool α, r.table.entries.Nodup := fun r => List.Nodup.of_map _ r.table.nodup
  have entries : ∀ r : Pool α, ∀ e, e ∈ r.table.entries ↔ r.get? e.1 = some e.2 :=
    fun r e => (Table.get?_eq_some_iff r.table).symm
  have kept : ((p.table.entries.filter fun e => !(q.get? e.1).isNone).filter fun e => P e.2).Perm
      (q.table.entries.filter fun e => P e.2) := by
    refine (List.perm_ext_iff_of_nodup (((nodup p).filter _).filter _) ((nodup q).filter _)).2 ?_
    rintro ⟨id, a⟩
    simp only [List.mem_filter, entries]
    constructor
    · rintro ⟨⟨before, there⟩, held⟩
      cases after : q.get? id with
      | none => simp [after] at there
      | some b => exact ⟨same id a b before after ▸ rfl, held⟩
    · rintro ⟨after, held⟩
      exact ⟨⟨older id a after held, by simp [after]⟩, held⟩
  -- The older entries are those whose number is still taken and those whose number is free.
  have split := (List.filter_append_perm (fun e : Nat × α => (q.get? e.1).isNone)
    p.table.entries).symm.trans List.perm_append_comm
  have both := (split.filter fun e => P e.2).map Prod.snd
  rw [List.filter_append, List.map_append] at both
  simp only [values, lost, List.filter_map]
  exact both.trans ((kept.map Prod.snd).append_right _)

/-! ### Pools that come from others -/

/-- Numbers that the first pool had handed out stand in the second one for what they stood
for, or for nothing any more. -/
structure Since {β : Type} (static : α → β) (p q : Pool α) : Prop where
  next : p.next ≤ q.next
  old : ∀ id a, id < p.next → q.get? id = some a → ∃ b, p.get? id = some b ∧ static b = static a

namespace Since

variable {β : Type} {static : α → β} {p q : Pool α}

theorem refl (p : Pool α) : p.Since static p :=
  ⟨Nat.le_refl _, fun _ a _ ha => ⟨a, ha, rfl⟩⟩

/-- What has stayed the same twice has stayed the same. -/
theorem trans {r : Pool α} (h : p.Since static q) (h' : q.Since static r) : p.Since static r where
  next := Nat.le_trans h.next h'.next
  old := by
    intro id a lt ha
    obtain ⟨b, hb, eq⟩ := h'.old id a (Nat.lt_of_lt_of_le lt h.next) ha
    obtain ⟨c, hc, eq'⟩ := h.old id b lt hb
    exact ⟨c, hc, eq'.trans eq⟩

/-- A number that is handed out now was not handed out before. -/
theorem insert (h : p.Since static q) (a : α) : p.Since static (q.insert a).1 where
  next := Nat.le_succ_of_le h.next
  old := by
    intro id b lt hb
    rw [get?_insert, if_neg (by have := h.next; omega)] at hb
    exact h.old id b lt hb

/-- What goes away leaves its number unused. -/
theorem erase (h : p.Since static q) (j : Nat) : p.Since static (q.erase j) where
  next := h.next
  old := by
    intro id b lt hb
    rw [get?_erase] at hb
    split at hb
    · cases hb
    · exact h.old id b lt hb

/-- A change of what is old must keep what stays the same. -/
theorem modify (h : p.Since static q) {j : Nat} {f : α → α}
    (same : ∀ a, q.get? j = some a → j < p.next → static (f a) = static a) :
    p.Since static (q.modify j f) where
  next := by simpa using h.next
  old := by
    intro id b lt hb
    rw [get?_modify] at hb
    split at hb
    case isTrue e =>
      subst e
      obtain ⟨a, ha, rfl⟩ := Option.map_eq_some_iff.1 hb
      obtain ⟨c, hc, eq⟩ := h.old id a lt ha
      exact ⟨c, hc, eq.trans (same a ha lt).symm⟩
    case isFalse => exact h.old id b lt hb

end Since

end Pool

end Embedder
