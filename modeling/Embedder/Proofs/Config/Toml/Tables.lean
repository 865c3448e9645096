import Mathlib.Data.List.Nodup
import Embedder.Proofs.Config.Toml.Reading

namespace Embedder.Toml

/-!
# What a document in TOML says

The tables of a document hold what its lines put there, and nothing else: every value stands under
the names of its header and its key, every header's table is there, and all else is on the way to
one of these. What has once been put somewhere stays there, so nothing can be given twice.

* `Entries.item?`: what stands under some names.
* `Entries.Gains`: what is put in stays, and little else is new.
* `Entries.Inside`: a change of an inner table, seen from outside; `Descends` is one level of it.
* `Entries.Filled`, `Entries.Enters`: what entries do, and what a section does.
* `Document.Denotes`, `denotes_of_entries?`: whole documents.
-/

/-- The names under which a section gives something: those of its header, and of its keys with the
header before them. -/
def Section.places (s : Section) : List (List String) :=
  s.header :: s.entries.map fun e => s.header ++ e.1

namespace Entries

/-! ### One table -/

/-- The first entry of a name is the one that is found. -/
theorem get?_cons (q : String) (i : Item) (t : Entries) (k : String) :
    get? ((q, i) :: t) k = if q = k then some i else t.get? k := by
  by_cases same : q = k <;> simp [get?, same]

/-- An entry that comes last is found if no earlier one has its name. -/
theorem get?_append_singleton (t : Entries) (q : String) (i : Item) (k : String) :
    get? (t ++ [(q, i)]) k = (t.get? k).or (if q = k then some i else none) := by
  induction t with
  | nil => rw [List.nil_append, get?_cons]; rfl
  | cons e t ih =>
    obtain ⟨p, j⟩ := e
    rw [List.cons_append, get?_cons, get?_cons, ih]
    split <;> rfl

/-- A replaced item stands where it stood. -/
theorem get?_replace (t : Entries) (q : String) (i : Item) (k : String) :
    (t.replace q i).get? k = if k = q then (t.get? q).map fun _ => i else t.get? k := by
  induction t with
  | nil => simp [replace, get?]
  | cons e t ih =>
    obtain ⟨p, j⟩ := e
    have unfolded : replace ((p, j) :: t) q i =
        (if p = q then (q, i) else (p, j)) :: replace t q i := rfl
    rw [unfolded]
    by_cases here : p = q
    · subst here
      rw [if_pos rfl, get?_cons, get?_cons, get?_cons, ih]
      by_cases same : k = p <;> simp [same, eq_comm]
    · rw [if_neg here, get?_cons, get?_cons, get?_cons, ih]
      by_cases same : k = q
      · subst same
        simp [here]
      · simp [same]

/-- An erased name is gone, and the others are as they were. -/
theorem get?_erase (t : Entries) (q k : String) :
    (t.erase q).get? k = if k = q then none else t.get? k := by
  induction t with
  | nil => simp [erase, get?]
  | cons e t ih =>
    obtain ⟨p, j⟩ := e
    by_cases here : p = q
    · subst here
      have unfolded : erase ((p, j) :: t) p = erase t p := by simp [erase]
      rw [unfolded, ih, get?_cons]
      by_cases same : k = p <;> simp [same, eq_comm]
    · have unfolded : erase ((p, j) :: t) q = (p, j) :: erase t q := by simp [erase, here]
      rw [unfolded, get?_cons, get?_cons, ih]
      by_cases same : k = q
      · subst same
        simp [here]
      · simp [same]

/-- A name is missing just if no entry has it. -/
theorem get?_eq_none_iff {t : Entries} {k : String} : t.get? k = none ↔ k ∉ t.map Prod.fst := by
  induction t with
  | nil => simp [get?]
  | cons e t ih =>
    obtain ⟨p, j⟩ := e
    rw [get?_cons, List.map_cons, List.mem_cons, not_or]
    by_cases same : p = k
    · simp [same]
    · simp [same, ih, Ne.symm same]

/-- To replace an item leaves the names. -/
theorem names_replace (t : Entries) (q : String) (i : Item) :
    (t.replace q i).map Prod.fst = t.map Prod.fst := by
  rw [replace, List.map_map]
  refine List.map_congr_left fun e _ => ?_
  by_cases same : e.1 = q <;> simp [same]

/-- Of two items for one name the later one stays. -/
theorem replace_replace (t : Entries) (q : String) (i j : Item) :
    (t.replace q i).replace q j = t.replace q j := by
  rw [replace, replace, List.map_map]
  refine List.map_congr_left fun e _ => ?_
  by_cases same : e.1 = q <;> simp [same]

/-- Where there is no item, there is nothing to replace. -/
theorem replace_of_absent {t : Entries} {q : String} (absent : t.get? q = none) (i : Item) :
    t.replace q i = t := by
  have outside := get?_eq_none_iff.1 absent
  have kept : t.replace q i = t.map id := by
    refine List.map_congr_left fun e mem => if_neg ?_
    rintro rfl
    exact outside (List.mem_map_of_mem mem)
  rw [kept, List.map_id]

/-- A new name comes only once. -/
theorem nodup_append_singleton {t : Entries} {q : String} (i : Item)
    (nodup : (t.map Prod.fst).Nodup) (new : t.get? q = none) :
    ((t ++ [(q, i)]).map Prod.fst).Nodup := by
  rw [List.map_append, List.map_singleton, List.nodup_append_comm, List.singleton_append]
  exact List.nodup_cons.2 ⟨get?_eq_none_iff.1 new, nodup⟩

/-- To erase a name brings no name twice. -/
theorem nodup_erase {t : Entries} (q : String) (nodup : (t.map Prod.fst).Nodup) :
    ((t.erase q).map Prod.fst).Nodup :=
  nodup.sublist (List.filter_sublist.map Prod.fst)

/-! ### Tables in tables -/

/-- What stands under some names, each but the last one that of a table. -/
def item? (t : Entries) : (key : List String) → Option Item
  | [] => none
  | [k] => t.get? k
  | p :: q :: key =>
    match t.get? p with
    | some (.table _ inner) => item? inner (q :: key)
    | _ => none

/-- What cannot be given again once it has been given: a value, and a table with a header. -/
inductive Mark where
  | value (n : Node)
  | table

/-- The mark of an item, if it has one. -/
def markOf? : Item → Option Mark
  | .value n => some (.value n)
  | .table .header _ => some .table
  | _ => none

/-- The mark of what stands under some names. -/
def mark? (t : Entries) (key : List String) : Option Mark :=
  (t.item? key).bind markOf?

/-- An item that is no array, and holds no name twice. -/
def IsPlain : Item → Prop
  | .value _ => True
  | .table _ inner => (inner.map Prod.fst).Nodup
  | .array _ => False

/-- No table holds a name twice, and there are no arrays. -/
structure Proper (t : Entries) : Prop where
  nodup : (t.map Prod.fst).Nodup
  plain : ∀ key i, t.item? key = some i → IsPlain i

/-- Only a value has the mark of a value. -/
theorem mark?_eq_value {t : Entries} {key : List String} {n : Node}
    (marked : t.mark? key = some (.value n)) : t.item? key = some (.value n) := by
  obtain ⟨i, found, mark⟩ := Option.bind_eq_some_iff.1 marked
  rcases i with _ | ⟨_ | _ | _, _⟩ | _ <;> cases mark
  exact found

/-- Only a table with a header has the mark of one. -/
theorem mark?_eq_table {t : Entries} {key : List String} (marked : t.mark? key = some .table) :
    ∃ u, t.item? key = some (.table .header u) := by
  obtain ⟨i, found, mark⟩ := Option.bind_eq_some_iff.1 marked
  rcases i with _ | ⟨_ | _ | _, u⟩ | _ <;> cases mark
  exact ⟨u, found⟩

/-- The first of several names is that of a table. -/
theorem item?_cons_cons {t : Entries} {p q : String} {key : List String} {i : Item}
    (found : t.item? (p :: q :: key) = some i) :
    ∃ o u, t.get? p = some (.table o u) ∧ item? u (q :: key) = some i := by
  rw [item?] at found
  split at found
  next o u table => exact ⟨o, u, table, found⟩
  next => cases found

/-- On the way to an item, there are tables. -/
theorem item?_of_prefix {t : Entries} {key path : List String} {i : Item}
    (found : t.item? key = some i) (under : path <+: key) (nonempty : path ≠ []) :
    path = key ∨ ∃ o u, t.item? path = some (.table o u) := by
  induction path generalizing t key with
  | nil => exact absurd rfl nonempty
  | cons p path ih =>
    obtain ⟨rest, rfl⟩ := under
    cases path with
    | nil =>
      cases rest with
      | nil => exact .inl rfl
      | cons q rest =>
        obtain ⟨o, u, table, -⟩ := item?_cons_cons found
        exact .inr ⟨o, u, table⟩
    | cons q path =>
      obtain ⟨o, u, table, found⟩ := item?_cons_cons found
      refine (ih found (List.prefix_append _ _) (by simp)).imp (congrArg _) ?_
      rintro ⟨o', v, inner⟩
      exact ⟨o', v, by simp [item?, table, inner]⟩

/-- There is nothing in no entries. -/
theorem item?_nil (key : List String) : item? [] key = none := by
  match key with
  | [] => rfl
  | [_] => rfl
  | _ :: _ :: _ => rfl

/-- There is nothing wrong with no entries. -/
theorem proper_nil : Proper [] :=
  ⟨List.nodup_nil, fun key i found => by rw [item?_nil] at found; cases found⟩

/-- What some entries gain when they become others by way of some keys: marks stay, and what is new
is on the way to one of the keys. -/
structure Gains (keys : List (List String)) (t t' : Entries) : Prop where
  proper : t'.Proper
  marks : ∀ key m, t.mark? key = some m → t'.mark? key = some m
  news : ∀ key, (t'.item? key).isSome → (t.item? key).isSome ∨ ∃ k ∈ keys, key <+: k

/-- Nothing is gained where nothing happens. -/
theorem Gains.refl {t : Entries} (proper : t.Proper) : Gains [] t t :=
  ⟨proper, fun _ _ => id, fun _ => .inl⟩

/-- What is on the way to some keys is so to more of them. -/
theorem Gains.mono {keys keys' : List (List String)} {t t' : Entries} (gains : Gains keys t t')
    (more : ∀ k ∈ keys, k ∈ keys') : Gains keys' t t' :=
  ⟨gains.proper, gains.marks,
    fun key found => (gains.news key found).imp_right fun ⟨k, mem, under⟩ => ⟨k, more k mem, under⟩⟩

/-- What is gained in two steps is on the way to the keys of either. -/
theorem Gains.trans {keys keys' : List (List String)} {t t' t'' : Entries}
    (first : Gains keys t t') (second : Gains keys' t' t'') : Gains (keys ++ keys') t t'' := by
  refine ⟨second.proper, fun key m old => second.marks key m (first.marks key m old), ?_⟩
  intro key found
  rcases second.news key found with found | ⟨k, mem, under⟩
  · rcases first.news key found with found | ⟨k, mem, under⟩
    · exact .inl found
    · exact .inr ⟨k, List.mem_append_left _ mem, under⟩
  · exact .inr ⟨k, List.mem_append_right _ mem, under⟩

/-! ### One level down -/

/-- Some entries become others in that the table under a name does; it may be a new one. -/
structure Descends (t t' : Entries) (p : String) (u u' : Entries) : Prop where
  before : t.get? p = none ∧ u = [] ∨ ∃ o, t.get? p = some (.table o u)
  after : ∃ o, t'.get? p = some (.table o u') ∧ ∀ i, t.get? p = some (.table .header i) → o = .header
  apart : ∀ q, q ≠ p → t'.get? q = t.get? q
  nodup : (t.map Prod.fst).Nodup → (t'.map Prod.fst).Nodup

/-- Some entries become others in that the table under some names does. -/
structure Inside (t t' : Entries) (path : List String) (u u' : Entries) : Prop where
  proper : u.Proper
  before : ∀ k key, t.item? (path ++ k :: key) = u.item? (k :: key)
  after : ∀ k key, t'.item? (path ++ k :: key) = u'.item? (k :: key)
  gains : ∀ keys, keys ≠ [] → Gains keys u u' → Gains (keys.map (path ++ ·)) t t'

/-- Along no names, entries are inside of themselves. -/
theorem Inside.refl {t t' : Entries} (proper : t.Proper) : Inside t t' [] t t' :=
  ⟨proper, fun _ _ => rfl, fun _ _ => rfl, fun keys _ gains => by simpa using gains⟩

/-- To go down along some names and then along others is to go down along all of them. -/
theorem Inside.trans {t t' u u' v v' : Entries} {path path' : List String}
    (outer : Inside t t' path u u') (inner : Inside u u' path' v v') :
    Inside t t' (path ++ path') v v' := by
  have extended : ∀ w w' : Entries, (∀ k key, w.item? (path ++ k :: key) = w'.item? (k :: key)) →
      ∀ k key, w.item? ((path ++ path') ++ k :: key) = w'.item? (path' ++ k :: key) := by
    intro w w' same k key
    rw [List.append_assoc]
    cases path' with
    | nil => exact same k key
    | cons q path' => exact same q (path' ++ k :: key)
  refine ⟨inner.proper, fun k key => ?_, fun k key => ?_, fun keys nonempty gains => ?_⟩
  · rw [extended _ _ outer.before, inner.before]
  · rw [extended _ _ outer.after, inner.after]
  · have all := outer.gains _ (by simpa using nonempty) (inner.gains keys nonempty gains)
    simpa [List.map_map, Function.comp_def] using all

section Descends

variable {t t' u u' : Entries} {p : String} (descends : Descends t t' p u u')
include descends

/-- What stood one level down is found there from above. -/
theorem Descends.item?_before (k : String) (key : List String) :
    t.item? (p :: k :: key) = u.item? (k :: key) := by
  rcases descends.before with ⟨absent, rfl⟩ | ⟨o, found⟩
  · simp [item?, absent, item?_nil]
  · simp [item?, found]

/-- What stands one level down in the end is found there from above. -/
theorem Descends.item?_after (k : String) (key : List String) :
    t'.item? (p :: k :: key) = u'.item? (k :: key) := by
  obtain ⟨o, found, -⟩ := descends.after
  simp [item?, found]

/-- Beside the name that is gone into nothing has changed. -/
theorem Descends.item?_apart {q : String} (other : q ≠ p) (key : List String) :
    t'.item? (q :: key) = t.item? (q :: key) := by
  cases key with
  | nil => exact descends.apart q other
  | cons k key => simp [item?, descends.apart q other]

/-- A table inside proper entries is proper. -/
theorem Descends.proper_inner (proper : t.Proper) : u.Proper := by
  constructor
  · rcases descends.before with ⟨-, rfl⟩ | ⟨o, found⟩
    · exact List.nodup_nil
    · exact proper.plain [p] _ found
  · intro key i found
    cases key with
    | nil => cases found
    | cons k key => exact proper.plain (p :: k :: key) i (by rw [descends.item?_before, found])

/-- Entries stay proper if the table does that is gone into. -/
theorem Descends.proper_outer (proper : t.Proper) (inner : u'.Proper) : t'.Proper := by
  obtain ⟨o, found, -⟩ := descends.after
  refine ⟨descends.nodup proper.nodup, fun key i here => ?_⟩
  match key with
  | [] => cases here
  | [q] =>
    by_cases same : q = p
    · subst same
      cases here.symm.trans found
      exact inner.nodup
    · exact proper.plain [q] i (by rw [← descends.item?_apart same, here])
  | q :: k :: key =>
    by_cases same : q = p
    · subst same
      exact inner.plain (k :: key) i (by rw [← descends.item?_after, here])
    · exact proper.plain (q :: k :: key) i (by rw [← descends.item?_apart same, here])

/-- Marks stay where those of the inner table do. -/
theorem Descends.marks (marks : ∀ key m, u.mark? key = some m → u'.mark? key = some m)
    (key : List String) (m : Mark) (old : t.mark? key = some m) : t'.mark? key = some m := by
  obtain ⟨o, found, keeps⟩ := descends.after
  match key with
  | [] => cases old
  | [q] =>
    by_cases same : q = p
    · subst same
      -- Of what may stand under the name, only a header's table has a mark.
      rcases descends.before with ⟨absent, -⟩ | ⟨origin, before⟩
      · simp [mark?, item?, absent] at old
      · cases origin with
        | header =>
          rw [keeps _ before] at found
          simpa [mark?, item?, before, found, markOf?] using old
        | _ => simp [mark?, item?, before, markOf?] at old
    · rwa [mark?, descends.item?_apart same]
  | q :: k :: key =>
    by_cases same : q = p
    · subst same
      rw [mark?, descends.item?_before] at old
      rw [mark?, descends.item?_after]
      exact marks _ _ old
    · rwa [mark?, descends.item?_apart same]

/-- What is new is under the name, on the way to what is new in the inner table. -/
theorem Descends.news {keys : List (List String)} (nonempty : keys ≠ [])
    (news : ∀ key, (u'.item? key).isSome → (u.item? key).isSome ∨ ∃ k ∈ keys, key <+: k)
    (key : List String) (new : (t'.item? key).isSome) :
    (t.item? key).isSome ∨ ∃ k ∈ keys.map ([p] ++ ·), key <+: k := by
  -- A name of one part can only be that of the table; a longer one leads into it or stays beside
  -- it.
  match key with
  | [] => cases new
  | [q] =>
    by_cases same : q = p
    · subst same
      obtain ⟨k, mem⟩ := List.exists_mem_of_ne_nil keys nonempty
      exact .inr ⟨q :: k, List.mem_map_of_mem mem, by simp⟩
    · rw [descends.item?_apart same] at new
      exact .inl new
  | q :: k :: key =>
    by_cases same : q = p
    · subst same
      rw [descends.item?_after] at new
      rw [descends.item?_before]
      refine (news _ new).imp_right ?_
      rintro ⟨key', mem, under⟩
      exact ⟨q :: key', List.mem_map_of_mem mem, List.cons_prefix_cons.2 ⟨rfl, under⟩⟩
    · rw [descends.item?_apart same] at new
      exact .inl new

/-- What an inner table gains, its outer table gains. -/
theorem Descends.gains (proper : t.Proper) {keys : List (List String)} (nonempty : keys ≠ [])
    (gains : Gains keys u u') : Gains (keys.map ([p] ++ ·)) t t' :=
  ⟨descends.proper_outer proper gains.proper, descends.marks gains.marks,
    descends.news nonempty gains.news⟩

/-- One level down is inside. -/
theorem Descends.inside (proper : t.Proper) : Inside t t' [p] u u' :=
  ⟨descends.proper_inner proper, descends.item?_before, descends.item?_after,
    fun _ nonempty gains => descends.gains proper nonempty gains⟩

end Descends

/-- A new table under a new name. -/
theorem descends_new {t : Entries} {p : String} (absent : t.get? p = none) (o : Origin)
    (u : Entries) : Descends t (t ++ [(p, .table o u)]) p [] u where
  before := .inl ⟨absent, rfl⟩
  after := by
    refine ⟨o, by simp [get?_append_singleton, absent], fun i found => ?_⟩
    cases absent.symm.trans found
  apart q other := by simp [get?_append_singleton, Ne.symm other]
  nodup nodup := nodup_append_singleton _ nodup absent

/-- A table in the place of another. -/
theorem descends_replace {t : Entries} {p : String} {o : Origin} {u : Entries}
    (found : t.get? p = some (.table o u)) (u' : Entries) :
    Descends t (t.replace p (.table o u')) p u u' where
  before := .inr ⟨o, found⟩
  after := by
    refine ⟨o, by simp [get?_replace, found], fun i same => ?_⟩
    cases found.symm.trans same
    rfl
  apart q other := by simp [get?_replace, other]
  nodup nodup := by rwa [names_replace]

/-- The first step of the way to a header's table. -/
theorem within?_cons {t t' : Entries} {p : String} {path : List String}
    {f : Entries → Option Entries} (proper : t.Proper)
    (changed : t.within? (p :: path) f = some t') :
    ∃ o u u', (t.get? p = none ∧ o = .deeperHeader ∧ u = [] ∨ t.get? p = some (.table o u)) ∧
      t'.get? p = some (.table o u') ∧ Descends t t' p u u' ∧ within? u path f = some u' := by
  rw [within?] at changed
  cases found : t.get? p with
  -- A table that is not there is begun.
  | none =>
    simp only [found, Option.bind_eq_bind, Option.bind_eq_some_iff] at changed
    obtain ⟨u', changed, same⟩ := changed
    cases same
    exact ⟨.deeperHeader, [], u', .inl ⟨rfl, rfl, rfl⟩, by simp [get?_append_singleton, found],
      descends_new found _ u', changed⟩
  | some i =>
    cases i with
    | value n => simp [found] at changed
    | array els => exact (proper.plain [p] _ found).elim
    | table o u =>
      simp only [found, Option.bind_eq_bind, Option.bind_eq_some_iff] at changed
      obtain ⟨u', changed, same⟩ := changed
      cases same
      exact ⟨o, u, u', .inr rfl, by simp [get?_replace, found], descends_replace found u', changed⟩

/-- The way to a header's table leads inside. -/
theorem within?_inside {t t' : Entries} {path : List String} {f : Entries → Option Entries}
    (proper : t.Proper) (changed : t.within? path f = some t') :
    ∃ u u', f u = some u' ∧ Inside t t' path u u' := by
  induction path generalizing t t' with
  | nil => exact ⟨t, t', changed, .refl proper⟩
  | cons p path ih =>
    obtain ⟨o, u, u', -, -, descends, changed⟩ := within?_cons proper changed
    obtain ⟨v, v', step, inside⟩ := ih (descends.proper_inner proper) changed
    exact ⟨v, v', step, (descends.inside proper).trans inside⟩

/-- The first step of the way to a key's value. -/
theorem insert?_cons {t t' : Entries} {p : String} {path : List String} {k : String} {n : Node}
    (proper : t.Proper) (changed : t.insert? (p :: path) k n = some t') :
    ∃ u u', Descends t t' p u u' ∧ insert? u path k n = some u' := by
  rw [insert?] at changed
  cases found : t.get? p with
  | none =>
    simp only [found, Option.bind_eq_bind, Option.bind_eq_some_iff] at changed
    obtain ⟨u', changed, same⟩ := changed
    cases same
    exact ⟨[], u', descends_new found _ u', changed⟩
  | some i =>
    cases i with
    | value n => simp [found] at changed
    | array els => exact (proper.plain [p] _ found).elim
    | table o u =>
      simp only [found] at changed
      -- A table with a header of its own can not be reached by a key.
      split at changed
      next => simp at changed
      next =>
        simp only [Option.bind_eq_bind, Option.bind_eq_some_iff] at changed
        obtain ⟨u', changed, same⟩ := changed
        cases same
        exact ⟨u, u', descends_replace found u', changed⟩

/-- The way to a key's value leads inside. -/
theorem insert?_inside {t t' : Entries} {path : List String} {k : String} {n : Node}
    (proper : t.Proper) (changed : t.insert? path k n = some t') :
    ∃ u u', u.add? k (.value n) = some u' ∧ Inside t t' path u u' := by
  induction path generalizing t t' with
  | nil => exact ⟨t, t', changed, .refl proper⟩
  | cons p path ih =>
    obtain ⟨u, u', descends, changed⟩ := insert?_cons proper changed
    obtain ⟨v, v', step, inside⟩ := ih (descends.proper_inner proper) changed
    exact ⟨v, v', step, (descends.inside proper).trans inside⟩

/-! ### Entries -/

/-- What is added under one name is not found under another. -/
theorem item?_append_singleton_ne (t : Entries) {q k : String} (other : q ≠ k) (i : Item)
    (key : List String) : item? (t ++ [(k, i)]) (q :: key) = t.item? (q :: key) := by
  have same : get? (t ++ [(k, i)]) q = t.get? q := by simp [get?_append_singleton, Ne.symm other]
  cases key with
  | nil => exact same
  | cons p key => simp [item?, same]

/-- A value goes under a name that is new. -/
theorem add?_gains {t t' : Entries} {k : String} {n : Node} (proper : t.Proper)
    (added : t.add? k (.value n) = some t') :
    t.item? [k] = none ∧ Gains [[k]] t t' ∧ t'.item? [k] = some (.value n) := by
  rw [add?] at added
  split at added
  next => cases added
  next absent =>
    cases added
    have new : t.get? k = none := by simpa using absent
    have found : get? (t ++ [(k, .value n)]) k = some (.value n) := by
      simp [get?_append_singleton, new]
    have apart := fun {q : String} (other : q ≠ k) => t.item?_append_singleton_ne other (.value n)
    -- Only the new name tells the tables apart, so each part is a look at keys that begin with
    -- it.
    refine ⟨new, ⟨⟨nodup_append_singleton _ proper.nodup new, fun key i here => ?_⟩,
      fun key m old => ?_, fun key here => ?_⟩, found⟩
    · match key with
      | [] => cases here
      | q :: key =>
        by_cases same : q = k
        · subst same
          cases key with
          | nil => cases here.symm.trans found; trivial
          | cons p key => simp [item?, found] at here
        · exact proper.plain (q :: key) i (by rw [← apart same, here])
    · match key with
      | [] => cases old
      | q :: key =>
        by_cases same : q = k
        · subst same
          cases key with
          | nil => simp [mark?, item?, new] at old
          | cons p key => simp [mark?, item?, new] at old
        · rwa [mark?, apart same]
    · match key with
      | [] => cases here
      | q :: key =>
        by_cases same : q = k
        · subst same
          cases key with
          | nil => exact .inr ⟨[q], by simp, List.prefix_refl _⟩
          | cons p key => simp [item?, found] at here
        · rw [apart same] at here
          exact .inl here

/-- What some entries make of others: each value stands under its key, which was given once. -/
structure Filled (es : List (List String × Node)) (t t' : Entries) : Prop where
  gains : Gains (es.map Prod.fst) t t'
  values : ∀ e ∈ es, t'.mark? e.1 = some (.value e.2)
  fresh : ∀ e ∈ es, t.mark? e.1 = none
  nodup : (es.map Prod.fst).Nodup

/-- To put an entry fills in its value, where there was none. -/
theorem put?_filled {t t' : Entries} {e : List String × Node} (proper : t.Proper)
    (put : t.put? e = some t') : Filled [e] t t' := by
  rw [put?] at put
  split at put
  next =>
    obtain ⟨k, last, inserted⟩ := Option.bind_eq_some_iff.1 put
    have key : e.1.dropLast ++ [k] = e.1 := List.dropLast_append_getLast? k last
    obtain ⟨u, u', added, inside⟩ := insert?_inside proper inserted
    obtain ⟨new, gains, found⟩ := add?_gains inside.proper added
    have before := inside.before k []
    have after := inside.after k []
    have outer := inside.gains _ (by simp) gains
    simp only [List.map_cons, List.map_nil, key] at before after outer
    exact ⟨outer, by simp [mark?, after, found, markOf?], by simp [mark?, before, new], by simp⟩
  next => cases put

/-- Entries fill a table. -/
theorem fill?_filled {t t' : Entries} {es : List (List String × Node)} (proper : t.Proper)
    (filled : t.fill? es = some t') : Filled es t t' := by
  induction es generalizing t with
  | nil =>
    cases filled
    exact ⟨.refl proper, by simp, by simp, by simp⟩
  | cons e es ih =>
    obtain ⟨u, put, filled⟩ := Option.bind_eq_some_iff.1 filled
    have first := put?_filled proper put
    have rest := ih first.gains.proper filled
    have value := first.values e (by simp)
    refine ⟨first.gains.trans rest.gains, ?_, ?_, ?_⟩
    · refine List.forall_mem_cons.2 ⟨rest.gains.marks _ _ value, rest.values⟩
    · refine List.forall_mem_cons.2 ⟨first.fresh e (by simp), fun e' mem => ?_⟩
      -- A mark that was there before would still be there.
      cases old : t.mark? e'.1 with
      | none => rfl
      | some m =>
        have still := first.gains.marks _ _ old
        cases still.symm.trans (rest.fresh e' mem)
    · refine List.nodup_cons.2 ⟨fun again => ?_, rest.nodup⟩
      obtain ⟨e', mem, same⟩ := List.mem_map.1 again
      have fresh := rest.fresh e' mem
      rw [same, value] at fresh
      cases fresh

/-! ### Sections -/

/-- What the table of a header holds before its entries: what headers inside it have begun. -/
def begun? (t : Entries) (k : String) : Option Entries :=
  match t.get? k with
  | none => some []
  | some (.table .deeperHeader inner) => some inner
  | _ => none

/-- A table with the filled table of a header in it. -/
def setTable? (t : Entries) (k : String) (es : List (List String × Node)) : Option Entries := do
  let content ← fill? (← t.begun? k) es
  pure (t.erase k ++ [(k, .table .header content)])

/-- Changes of the same place come one after the other. -/
theorem within?_within? (t : Entries) (path : List String) (f g : Entries → Option Entries) :
    ((t.within? path f).bind fun u => u.within? path g) =
      t.within? path fun u => (f u).bind g := by
  induction path generalizing t with
  | nil => rfl
  | cons p path ih =>
    cases found : t.get? p with
    | none =>
      -- A table that the first descent makes is the one that the second one enters.
      have again : ∀ u, get? (t ++ [(p, .table .deeperHeader u)]) p =
          some (.table .deeperHeader u) := by simp [get?_append_singleton, found]
      have both : ∀ u u', replace (t ++ [(p, .table .deeperHeader u)]) p
          (.table .deeperHeader u') = t ++ [(p, .table .deeperHeader u')] := by
        intro u u'
        have kept := replace_of_absent found (.table .deeperHeader u')
        rw [replace] at kept ⊢
        simp [kept]
      simp only [within?, found, Option.bind_eq_bind, Option.bind_assoc, ← ih, Option.pure_def,
        Option.bind_some, again, both]
    | some i =>
      cases i with
      | value n => simp [within?, found]
      | array els =>
        cases last : els.getLast? with
        | none => simp [within?, found, last]
        | some el =>
          simp [within?, found, last, ← ih, get?_replace, replace_replace, Option.bind_assoc]
      | table o inner =>
        simp [within?, found, ← ih, get?_replace, replace_replace, Option.bind_assoc]

/-- A change that fails one level down fails from above. -/
theorem within?_none (t : Entries) (path : List String) :
    t.within? path (fun _ => none) = none := by
  induction path generalizing t with
  | nil => rfl
  | cons p path ih =>
    cases found : t.get? p with
    | none => simp [within?, found, ih]
    | some i =>
      cases i with
      | value n => simp [within?, found]
      | array els => cases last : els.getLast? <;> simp [within?, found, last, ih]
      | table o inner => simp [within?, found, ih]

/-- Only what is done to the table that is reached counts. -/
theorem within?_congr {t : Entries} {path : List String} {f g : Entries → Option Entries}
    (same : ∀ u, t.reached? path = some u → f u = g u) : t.within? path f = t.within? path g := by
  induction path generalizing t with
  | nil => exact same t rfl
  | cons p path ih =>
    cases found : t.get? p with
    | none =>
      -- Beyond a name that is missing, there is only what is begun there.
      have new : t.reached? (p :: path) = reached? [] path := by
        rw [reached?, found]
        cases path <;> rfl
      have inner : within? [] path f = within? [] path g :=
        ih fun u reached => same u (new.trans reached)
      simp [within?, found, inner]
    | some i =>
      cases i with
      | value n => simp [within?, found]
      | array els =>
        cases last : els.getLast? with
        | none => simp [within?, found, last]
        | some el =>
          have inner : within? el path f = within? el path g :=
            ih fun u reached => same u (by simpa [reached?, found, last] using reached)
          simp [within?, found, last, inner]
      | table o inner =>
        have inner : within? inner path f = within? inner path g :=
          ih fun u reached => same u (by simpa [reached?, found] using reached)
        simp [within?, found, inner]

/-- A section changes the table that its header's is in. -/
theorem section?_eq (t : Entries) (s : Section) :
    t.section? s = s.header.getLast?.bind fun k =>
      t.within? s.header.dropLast fun u => u.setTable? k s.entries := by
  rw [section?, Option.bind_eq_bind]
  refine congrArg _ (funext fun k => ?_)
  have fails : (∀ u, t.reached? s.header.dropLast = some u → u.setTable? k s.entries = none) →
      (t.within? s.header.dropLast fun u => u.setTable? k s.entries) = none := by
    intro none
    rw [← t.within?_none s.header.dropLast]
    exact within?_congr none
  have opened : t.openTable? s.header.dropLast k = (t.reached? s.header.dropLast).bind fun u =>
      (u.begun? k).bind fun content =>
        (t.within? s.header.dropLast fun u => some (u.erase k)).bind fun rest =>
          some (content, rest) := by
    rw [openTable?, Option.bind_eq_bind]
    refine congrArg _ (funext fun u => ?_)
    rw [begun?]
    rcases u.get? k with _ | (_ | ⟨_ | _ | _, _⟩ | _) <;> rfl
  -- Reading a section takes the table out and puts it back; both happen at the place that is
  -- reached.
  simp only [opened, Option.bind_eq_bind]
  cases reached : t.reached? s.header.dropLast with
  | none =>
    rw [fails (by simp [reached])]
    rfl
  | some u =>
    have unfolded : ∀ v, t.reached? s.header.dropLast = some v → v.setTable? k s.entries =
        (u.begun? k).bind fun content => (fill? content s.entries).bind fun content =>
          some (v.erase k ++ [(k, .table .header content)]) := by
      intro v same
      cases reached.symm.trans same
      rfl
    cases begun : u.begun? k with
    | none =>
      rw [fails fun v same => by rw [unfolded v same, begun]; rfl]
      simp [begun]
    | some content =>
      cases filled : fill? content s.entries with
      | none =>
        rw [fails fun v same => by simp [unfolded v same, begun, filled]]
        simp only [begun, Option.bind_some, Option.bind_assoc, filled, Option.bind_none,
          Option.bind_fun_none]
      | some content' =>
        simp only [begun, Option.bind_some, Option.bind_assoc, filled, close?, within?_within?]
        refine within?_congr fun v same => ?_
        rw [unfolded v same, begun]
        simp [filled, get?_erase]

/-- A header may name what is not there yet, or what headers inside it have begun. -/
theorem begun?_eq_some {t u : Entries} {k : String} (begun : t.begun? k = some u) :
    (t.get? k = none ∧ u = [] ∨ t.get? k = some (.table .deeperHeader u)) := by
  rw [begun?] at begun
  split at begun
  next found => cases begun; exact .inl ⟨found, rfl⟩
  next found => cases begun; exact .inr found
  next => cases begun

/-- A filled table is under its name, and nothing else has changed. -/
theorem setTable?_eq_some {t t' : Entries} {k : String} {es : List (List String × Node)}
    (changed : t.setTable? k es = some t') :
    ∃ u u', t.begun? k = some u ∧ u.fill? es = some u' ∧ t'.get? k = some (.table .header u') ∧
      Descends t t' k u u' := by
  obtain ⟨u, begun, changed⟩ := Option.bind_eq_some_iff.1 changed
  obtain ⟨u', filled, changed⟩ := Option.bind_eq_some_iff.1 changed
  cases changed
  have found : get? (t.erase k ++ [(k, .table .header u')]) k = some (.table .header u') := by
    simp [get?_append_singleton, get?_erase]
  refine ⟨u, u', begun, filled, found, (begun?_eq_some begun).imp_right fun found => ⟨_, found⟩,
    ⟨_, found, fun _ _ => rfl⟩, ?_, ?_⟩
  · intro q other
    simp [get?_append_singleton, get?_erase, other, Ne.symm other]
  · exact fun nodup => nodup_append_singleton _ (nodup_erase k nodup) (by simp [get?_erase])

/-- The table of a header is there, with its entries filled in, and was not given before. -/
theorem setTable?_inside {t t' : Entries} {k : String} {es : List (List String × Node)}
    (proper : t.Proper) (changed : t.setTable? k es = some t') :
    t.mark? [k] = none ∧ t'.mark? [k] = some .table ∧
      ∃ u u', Inside t t' [k] u u' ∧ Filled es u u' := by
  obtain ⟨u, u', begun, filled, found, descends⟩ := setTable?_eq_some changed
  refine ⟨?_, by simp [mark?, item?, found, markOf?], u, u', descends.inside proper,
    fill?_filled (descends.proper_inner proper) filled⟩
  rcases begun?_eq_some begun with ⟨absent, -⟩ | before
  · simp [mark?, item?, absent]
  · simp [mark?, item?, before, markOf?]

/-- What a section does: its table is there, its values stand in it, and nothing has been given
before under the names of either. -/
structure Enters (s : Section) (t t' : Entries) : Prop where
  gains : Gains s.places t t'
  opens : t'.mark? s.header = some .table
  values : ∀ e ∈ s.entries, t'.mark? (s.header ++ e.1) = some (.value e.2)
  fresh : ∀ path ∈ s.places, t.mark? path = none
  once : s.places.Nodup

/-- What is given by a section has a mark. -/
theorem Enters.exists_mark {s : Section} {t t' : Entries} (enters : Enters s t t')
    {path : List String} (mem : path ∈ s.places) : ∃ m, t'.mark? path = some m := by
  rcases List.mem_cons.1 mem with rfl | mem
  · exact ⟨_, enters.opens⟩
  · obtain ⟨e, inside, rfl⟩ := List.mem_map.1 mem
    exact ⟨_, enters.values e inside⟩

/-- A section that is read does what its lines say. -/
theorem section?_enters {t t' : Entries} {s : Section} (proper : t.Proper)
    (read : t.section? s = some t') : Enters s t t' := by
  rw [section?_eq] at read
  obtain ⟨k, last, changed⟩ := Option.bind_eq_some_iff.1 read
  have header : s.header.dropLast ++ [k] = s.header := List.dropLast_append_getLast? k last
  obtain ⟨v, v', changed, outer⟩ := within?_inside proper changed
  obtain ⟨fresh, opens, u, u', inner, filled⟩ := setTable?_inside outer.proper changed
  have inside := outer.trans inner
  have before := outer.before k []
  have after := outer.after k []
  rw [header] at inside before after
  -- All that is gained is inside the table of the header, so its name is put in front of every
  -- key.
  have gains := inside.gains ([] :: s.entries.map Prod.fst) (by simp)
    (filled.gains.mono fun key mem => List.mem_cons_of_mem _ mem)
  have opened : t'.mark? s.header = some .table := by rwa [mark?, after]
  have values : ∀ e ∈ s.entries, t'.mark? (s.header ++ e.1) = some (.value e.2) ∧
      t.mark? (s.header ++ e.1) = none := by
    intro e mem
    have value := filled.values e mem
    have new := filled.fresh e mem
    obtain ⟨key, n⟩ := e
    cases key with
    | nil => cases value
    | cons q key => exact ⟨by rwa [mark?, inside.after], by rwa [mark?, inside.before]⟩
  refine ⟨by simpa [Section.places, Function.comp_def] using gains, opened,
    fun e mem => (values e mem).1, ?_, List.nodup_cons.2 ⟨fun again => ?_, ?_⟩⟩
  · refine List.forall_mem_cons.2 ⟨by rwa [mark?, before], fun path mem => ?_⟩
    obtain ⟨e, held, rfl⟩ := List.mem_map.1 mem
    exact (values e held).2
  · -- Under the header's own names there is a table, and no value.
    obtain ⟨e, held, same⟩ := List.mem_map.1 again
    have value := (values e held).1
    rw [same, opened] at value
    cases value
  · have separate := filled.nodup.map (List.append_right_injective s.header)
    rwa [List.map_map] at separate

end Entries

/-! ### Documents -/

/-- The parts of a document: what comes before all headers, and the sections. -/
def Document.parts (doc : Document) : List Section :=
  ⟨[], doc.top⟩ :: doc.sections

/-- A header or an entry of a document leads along some names. -/
def Document.Reaches (doc : Document) (path : List String) : Prop :=
  ∃ s ∈ doc.parts, path <+: s.header ∨ ∃ e ∈ s.entries, path <+: s.header ++ e.1

/-- The names under which a document gives something: those of the keys before all headers, and
those of the sections. -/
def Document.places (doc : Document) : List (List String) :=
  doc.top.map Prod.fst ++ doc.sections.flatMap Section.places

/-- The finished tables hold what the lines say, under the names of header and key, and besides only
what is on the way there. Nothing is given twice. -/
structure Document.Denotes (doc : Document) (t : Entries) : Prop where
  proper : t.Proper
  headers : ∀ s ∈ doc.sections, t.mark? s.header = some .table
  values : ∀ s ∈ doc.parts, ∀ e ∈ s.entries, t.mark? (s.header ++ e.1) = some (.value e.2)
  only : ∀ key, (t.item? key).isSome → doc.Reaches key
  once : doc.places.Nodup

namespace Entries

/-- What sections do one after the other. -/
structure Gathers (ss : List Section) (t t' : Entries) : Prop where
  gains : Gains (ss.flatMap Section.places) t t'
  opens : ∀ s ∈ ss, t'.mark? s.header = some .table
  values : ∀ s ∈ ss, ∀ e ∈ s.entries, t'.mark? (s.header ++ e.1) = some (.value e.2)
  fresh : ∀ path ∈ ss.flatMap Section.places, t.mark? path = none
  once : (ss.flatMap Section.places).Nodup

/-- What was there before is still there after some gains, so what is new after them was new. -/
theorem Gains.fresh {keys : List (List String)} {t u : Entries} (gains : Gains keys t u)
    {path : List String} (new : u.mark? path = none) : t.mark? path = none := by
  cases old : t.mark? path with
  | none => rfl
  | some m => cases (gains.marks _ _ old).symm.trans new

/-- So do sections one after the other, by induction on them. -/
theorem foldlM_section?_gathers {t t' : Entries} {ss : List Section} (proper : t.Proper)
    (read : ss.foldlM section? t = some t') : Gathers ss t t' := by
  induction ss generalizing t with
  | nil =>
    cases read
    exact ⟨.refl proper, by simp, by simp, by simp, by simp⟩
  | cons s ss ih =>
    obtain ⟨u, first, read⟩ := Option.bind_eq_some_iff.1 read
    have enters := section?_enters proper first
    -- What one section has gained is still there after the others.
    have rest := ih enters.gains.proper read
    refine ⟨enters.gains.trans rest.gains, ?_, ?_, ?_, ?_⟩
    · exact List.forall_mem_cons.2 ⟨rest.gains.marks _ _ enters.opens, rest.opens⟩
    · exact List.forall_mem_cons.2
        ⟨fun e mem => rest.gains.marks _ _ (enters.values e mem), rest.values⟩
    · intro path mem
      rcases List.mem_append.1 mem with mem | mem
      · exact enters.fresh path mem
      · exact enters.gains.fresh (rest.fresh path mem)
    · refine List.nodup_append.2 ⟨enters.once, rest.once, fun path mem path' mem' same => ?_⟩
      subst same
      obtain ⟨m, marked⟩ := enters.exists_mark mem
      cases marked.symm.trans (rest.fresh path mem')

end Entries

/-- **Tables.** What a document makes of its lines is what it says. -/
theorem denotes_of_entries? {doc : Document} {t : Entries} (read : doc.entries? = some t) :
    doc.Denotes t := by
  -- First the entries before all headers are filled in, and then the sections one by one.
  obtain ⟨u, top, read⟩ := Option.bind_eq_some_iff.1 read
  have filled := Entries.fill?_filled Entries.proper_nil top
  have gathers := Entries.foldlM_section?_gathers filled.gains.proper read
  refine ⟨gathers.gains.proper, gathers.opens, ?_, fun key found => ?_, ?_⟩
  · refine List.forall_mem_cons.2 ⟨fun e mem => ?_, gathers.values⟩
    exact gathers.gains.marks _ _ (filled.values e mem)
  · rcases gathers.gains.news key found with found | ⟨k, mem, under⟩
    · rcases filled.gains.news key found with found | ⟨k, mem, under⟩
      · rw [Entries.item?_nil] at found
        cases found
      · obtain ⟨e, inside, rfl⟩ := List.mem_map.1 mem
        exact ⟨⟨[], doc.top⟩, by simp [Document.parts], .inr ⟨e, inside, under⟩⟩
    · obtain ⟨s, inside, mem⟩ := List.mem_flatMap.1 mem
      refine ⟨s, List.mem_cons_of_mem _ inside, ?_⟩
      rcases List.mem_cons.1 mem with rfl | mem
      · exact .inl under
      · obtain ⟨e, inside, rfl⟩ := List.mem_map.1 mem
        exact .inr ⟨e, inside, under⟩
  · refine List.nodup_append.2 ⟨filled.nodup, gathers.once, fun path mem path' mem' same => ?_⟩
    subst same
    obtain ⟨e, inside, rfl⟩ := List.mem_map.1 mem
    cases (filled.values e inside).symm.trans (gathers.fresh e.1 mem')

end Embedder.Toml
