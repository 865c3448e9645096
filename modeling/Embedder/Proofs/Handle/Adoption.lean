import Embedder.Handle.Registry
import Embedder.Proofs.Table

namespace Embedder

/-!
# What becomes of adopted values

A value that a handle adopts is held by that handle until the handle gives it up or loses it, and what
a handle loses is deleted there and then. A shared handle loses its value with the last of its owners.
All of it is read off one account of what a step does: either it changes the unique handles, or an
owner of an object, which was in hand for a moment, goes away.

* `Registry.holders`, `Registry.liveOwners`: who holds a value, and who owns an object.
* `Registry.adopts`, `Registry.gives`, `Registry.along`: what steps let handles adopt and give up.
* `Registry.Sound`: the stored numbers of owners are the true ones, but for an owner in hand.
* `Registry.Moved`, `Registry.moved_step`: what a step does.
* `Registry.Accounted`, `Registry.accounted_run`: what has become of all values after any steps.
-/

/-! ### Values and those who hold them -/

/-- One if the handle holds the value, and zero otherwise. -/
def Handle.holds (h : Handle) (value : Nat) : Nat :=
  if h.value = value then 1 else 0

/-- The null value is never deleted. -/
theorem Handle.deleted_ne_zero (h : Handle) : h.deleted ≠ some 0 := by
  unfold Handle.deleted
  split
  case isTrue => simp
  case isFalse real => simpa [Handle.isNull] using real

/-- A handle holds its value once. -/
theorem Handle.count_value (h : Handle) (value : Nat) : [h.value].count value = h.holds value := by
  simp [holds, List.count_singleton]

/-- Dropping a handle deletes the value that it holds. -/
theorem Handle.count_deleted (h : Handle) {value : Nat} (real : value ≠ 0) :
    h.deleted.toList.count value = h.holds value := by
  unfold Handle.deleted Handle.holds
  by_cases null : h.value = 0
  · have other : ¬ h.value = value := fun same => real (same ▸ null)
    simp [Handle.isNull, null, real.symm]
  · simp [Handle.isNull, null, List.count_singleton]

/-- How often a number stands in a table. -/
def Table.occurrences (t : Table String Nat) (id : Nat) : Nat :=
  t.total fun j => if j = id then 1 else 0

/-- A slot that is erased takes along the number in it. -/
theorem Table.occurrences_erase (t : Table String Nat) (slot : String) (id : Nat) :
    (t.erase slot).occurrences id + (if t.get? slot = some id then 1 else 0) =
      t.occurrences id := by
  rw [occurrences, occurrences, ← total_erase t slot]
  cases t.get? slot <;> simp

/-- A slot that is set trades the number in it for another one. -/
theorem Table.occurrences_set (t : Table String Nat) (slot : String) (j id : Nat) :
    (t.set slot j).occurrences id + (if t.get? slot = some id then 1 else 0) =
      t.occurrences id + if some j = some id then 1 else 0 := by
  have total := total_set t slot j fun j => if j = id then 1 else 0
  simp only [occurrences, Option.some.injEq]
  rw [← total]
  cases t.get? slot <;> simp

/-- A number in a slot occurs. -/
theorem Table.occurrences_pos {t : Table String Nat} {slot : String} {id : Nat}
    (found : t.get? slot = some id) : 0 < t.occurrences id := by
  have le := le_tally found fun e => if e.2 = id then 1 else 0
  rw [if_pos rfl] at le
  exact le

namespace Registry

/-- How many handles hold a value: unique ones, and those that objects share. -/
def holders (r : Registry) (value : Nat) : Nat :=
  r.unique.total (·.holds value) + r.objects.total (·.handle.holds value)

/-- How many shared handles and counted references there are to an object. -/
def liveOwners (r : Registry) (id : Nat) : Nat :=
  r.shared.occurrences id + r.references.occurrences id

/-! ### What steps let handles adopt and give up -/

/-- The value that a step lets a handle adopt. A handle that has the value already adopts nothing. -/
def adopts (r : Registry) : Step → List Nat
  | .adopt _ value => [value]
  | .reset slot value =>
    match r.unique.get? slot with
    | some h => if value = h.value then [] else [value]
    | none => []
  | _ => []

/-- The value that a step lets a handle give up. -/
def gives (r : Registry) : Step → List Nat
  | .release slot => (r.unique.get? slot).toList.map Handle.value
  | _ => []

/-- The registry after some steps. -/
def run (r : Registry) (steps : List Step) : Registry :=
  steps.foldl (fun r s => (r.step s).2) r

/-- What each of some steps lets a handle adopt, or give up, one step after the other. -/
def along (values : Registry → Step → List Nat) (r : Registry) : List Step → List Nat
  | [] => []
  | s :: steps => values r s ++ along values (r.step s).2 steps

/-! ### The numbers of owners -/

/-- Every object is owned, and its number of owners is the number of its shared handles and counted
references. One more owner may be in hand: taken from a slot, or not yet put into one. -/
structure Sound (r : Registry) (hand : Option Nat) : Prop where
  owners : ∀ id, r.owners id = r.liveOwners id + if hand = some id then 1 else 0
  owned : r.objects.All fun o => 0 < o.owners

variable {r r₁ : Registry} {hand : Option Nat}

/-- The owners of an object are those that it counts. -/
theorem owners_of_get? {id : Nat} {o : SharedObject} (present : r.objects.get? id = some o) :
    r.owners id = o.owners := by
  rw [owners, present]
  rfl

/-- An empty registry is sound. -/
theorem sound_empty : empty.Sound none :=
  ⟨fun _ => rfl, fun _ _ present => by cases present⟩

/-- Where no owner is in hand, the objects that exist are those with live owners. -/
theorem Sound.isSome_iff (sound : r.Sound none) (id : Nat) :
    (r.objects.get? id).isSome ↔ 0 < r.liveOwners id := by
  have owners := sound.owners id
  cases present : r.objects.get? id with
  | none => simp_all [Registry.owners]
  | some o =>
    have pos := sound.owned id o present
    rw [owners_of_get? present] at owners
    simp at owners ⊢
    omega

/-- A shared slot leads to an object. -/
theorem Sound.present (sound : r.Sound none) {owner : String} {id : Nat}
    (found : r.shared.get? owner = some id) : (r.objects.get? id).isSome :=
  (sound.isSome_iff id).2 (Nat.add_pos_left (Table.occurrences_pos found) _)

/-- An owner that is in hand owns an object. -/
theorem Sound.exists_object {id : Nat} (sound : r.Sound (some id)) :
    ∃ o, r.objects.get? id = some o ∧ o.owners = r.liveOwners id + 1 := by
  have owners := sound.owners id
  rw [if_pos rfl] at owners
  cases present : r.objects.get? id with
  | none => simp [Registry.owners, present] at owners
  | some o => exact ⟨o, rfl, (owners_of_get? present).symm.trans owners⟩

/-- One more owner of an object that exists is in hand. -/
theorem Sound.addOwner (sound : r.Sound none) {id : Nat} (present : (r.objects.get? id).isSome) :
    (r.addOwner id).Sound (some id) where
  owners j := by
    have owners := sound.owners j
    obtain ⟨o, found⟩ := Option.isSome_iff_exists.1 present
    simp only [Registry.owners, Registry.addOwner, Pool.get?_modify] at owners ⊢
    show _ = r.liveOwners j + _
    by_cases same : j = id
    · subst same
      simp_all
    · simp_all [Ne.symm same]
  owned := by
    refine sound.owned.modify fun o found => ?_
    exact Nat.succ_pos _

/-- The owner of an object that is new. -/
theorem Sound.insert (sound : r.Sound none) (unique : Table String Handle) (h : Handle) :
    { r with unique, objects := (r.objects.insert ⟨h, 1⟩).1 }.Sound
      (some (r.objects.insert ⟨h, 1⟩).2) where
  owners j := by
    have owners := sound.owners j
    simp only [Registry.owners, Pool.get?_insert, Pool.insert_snd] at owners ⊢
    show _ = r.liveOwners j + _
    by_cases new : j = r.objects.next
    · subst new
      simp_all [Pool.get?_next]
    · simp_all [Ne.symm new]
  owned := sound.owned.insert (by simp)

/-- Owners that only change hands are as many as before. -/
theorem Sound.pass (sound : r.Sound hand) {hand₁ : Option Nat} (objects : r₁.objects = r.objects)
    (same : ∀ id, r₁.liveOwners id + (if hand₁ = some id then 1 else 0) =
      r.liveOwners id + if hand = some id then 1 else 0) : r₁.Sound hand₁ where
  owners id := by
    have before := sound.owners id
    simp only [Registry.owners, objects] at before ⊢
    rw [before, same]
  owned := objects ▸ sound.owned

/-- The owner in hand goes into a slot, and what was there is in hand. -/
theorem Sound.setShared {id : Nat} (sound : r.Sound (some id)) (slot : String) :
    { r with shared := r.shared.set slot id }.Sound (r.shared.get? slot) := by
  refine sound.pass rfl fun j => ?_
  have passed := r.shared.occurrences_set slot id j
  simp only [liveOwners]
  omega

/-- An owner in hand is put into a slot of references, and what was there is in hand instead. -/
theorem Sound.setReference {id : Nat} (sound : r.Sound (some id)) (slot : String) :
    { r with references := r.references.set slot id }.Sound (r.references.get? slot) := by
  refine sound.pass rfl fun j => ?_
  have passed := r.references.occurrences_set slot id j
  simp only [liveOwners]
  omega

/-- What was in a slot is in hand. -/
theorem Sound.eraseShared (sound : r.Sound none) (slot : String) :
    { r with shared := r.shared.erase slot }.Sound (r.shared.get? slot) := by
  refine sound.pass rfl fun j => ?_
  have passed := r.shared.occurrences_erase slot j
  simp only [liveOwners, reduceCtorEq, if_false]
  omega

/-- An owner is taken from a slot of references into hand. -/
theorem Sound.eraseReference (sound : r.Sound none) (slot : String) :
    { r with references := r.references.erase slot }.Sound (r.references.get? slot) := by
  refine sound.pass rfl fun j => ?_
  have passed := r.references.occurrences_erase slot j
  simp only [liveOwners, reduceCtorEq, if_false]
  omega

/-! ### What a step does -/

/-- What a step does that lets handles adopt and give up some values: it deletes at most one value,
which is the one that handles have lost otherwise, and an object stays with its handle, or it goes
away and its handle's value is deleted. -/
structure Moved (r : Registry) (adopted given : List Nat) (r' : Registry) : Prop where
  sound : r'.Sound none
  ordered : ∃ lost : Option Nat, lost ≠ some 0 ∧ r'.deleted = r.deleted ++ lost.toList ∧
    ∀ v, v ≠ 0 → r'.holders v + given.count v + lost.toList.count v =
      r.holders v + adopted.count v
  retained : ∀ id o, r.objects.get? id = some o →
    (r'.objects.get? id).map SharedObject.handle = some o.handle ∨
      r'.objects.get? id = none ∧ r'.deleted = r.deleted ++ o.handle.deleted.toList

/-- A step that changes nothing. -/
theorem Sound.moved (sound : r.Sound none) : Moved r [] [] r where
  sound := sound
  ordered := ⟨none, by simp, by simp, by simp⟩
  retained id o present := .inl (by rw [present]; rfl)

/-- A step on the unique handles. -/
theorem Sound.moved_log (sound : r.Sound none) {adopted given : List Nat}
    {unique : Table String Handle} {lost : Option Nat} (real : lost ≠ some 0)
    (balance : ∀ v, v ≠ 0 → unique.total (·.holds v) + given.count v + lost.toList.count v =
      r.unique.total (·.holds v) + adopted.count v) :
    Moved r adopted given ({ r with unique }.log lost) where
  sound := ⟨sound.owners, sound.owned⟩
  ordered := by
    refine ⟨lost, real, rfl, fun v nonzero => ?_⟩
    have balance := balance v nonzero
    simp only [holders, log]
    omega
  retained id o present := .inl (by simp only [log, present]; rfl)

/-- The registry with an owner in hand, after which that owner goes away. -/
structure Handed (r : Registry) (hand : Option Nat) (r₁ : Registry) : Prop where
  sound : r₁.Sound hand
  deleted : r₁.deleted = r.deleted
  holders : ∀ v, r₁.holders v = r.holders v
  kept : ∀ id o, r.objects.get? id = some o →
    (r₁.objects.get? id).map SharedObject.handle = some o.handle

/-- The last owner of an object is in hand, and goes away with the object. -/
theorem Sound.moved_last {id : Nat} {o : SharedObject} (sound : r.Sound (some id))
    (present : r.objects.get? id = some o) (last : r.liveOwners id = 0) :
    Moved r [] [] ({ r with objects := r.objects.erase id }.log o.handle.deleted) where
  sound := by
    refine ⟨fun j => ?_, sound.owned.erase id⟩
    -- For this object, the owner in hand was the only one left.
    have before := sound.owners j
    simp only [Registry.owners, log, Pool.get?_erase, Option.some.injEq] at before ⊢
    show _ = r.liveOwners j + _
    by_cases same : j = id
    · subst same
      simp [last]
    · simpa [same, Ne.symm same] using before
  ordered := by
    refine ⟨_, o.handle.deleted_ne_zero, rfl, fun v nonzero => ?_⟩
    have total := Pool.total_erase present fun o => o.handle.holds v
    simp only [Registry.holders, log, o.handle.count_deleted nonzero, List.count_nil]
    omega
  retained j o' present' := by
    simp only [log, Pool.get?_erase]
    by_cases same : j = id
    · subst same
      cases present.symm.trans present'
      exact .inr ⟨if_pos rfl, rfl⟩
    · exact .inl (by rw [if_neg same, present']; rfl)

/-- An owner that is in hand goes away, and others are left: the object keeps its handle. -/
theorem Sound.moved_less {id : Nat} {o : SharedObject} (sound : r.Sound (some id))
    (present : r.objects.get? id = some o) (others : 1 < o.owners) :
    Moved r [] []
      { r with objects := r.objects.modify id fun o => { o with owners := o.owners - 1 } } where
  sound := by
    refine ⟨fun j => ?_, sound.owned.modify fun o' present' => ?_⟩
    -- The owner that goes is the one in hand, so those that are left are the live ones.
    · have before := sound.owners j
      simp only [Registry.owners, Pool.get?_modify, Option.some.injEq] at before ⊢
      show _ = r.liveOwners j + _
      by_cases same : j = id
      · subst same
        simp only [present, Option.map_some, Option.getD_some, if_true, reduceCtorEq, if_false]
          at before ⊢
        omega
      · simpa [same, Ne.symm same] using before
    · cases present.symm.trans present'
      show 0 < o.owners - 1
      omega
  ordered := by
    refine ⟨none, by simp, by simp, fun v _ => ?_⟩
    have total := r.objects.total_modify_of_eq id
      (u := fun o => { o with owners := o.owners - 1 }) (f := fun o => o.handle.holds v)
      fun _ => rfl
    simp [Registry.holders, total]
  retained j o' present' := by
    refine .inl ?_
    simp only [Pool.get?_modify, present']
    split <;> rfl

/-- The owner in hand goes away. It takes the object along if it was the last one. -/
theorem Sound.moved_dropOwner (sound : r.Sound hand) : Moved r [] [] (r.dropOwner hand) := by
  cases hand with
  | none => exact sound.moved
  | some id =>
    obtain ⟨o, present, owners⟩ := sound.exists_object
    simp only [dropOwner, present]
    by_cases last : o.owners ≤ 1
    · rw [if_pos last]
      exact sound.moved_last present (by omega)
    · rw [if_neg last]
      exact sound.moved_less present (by omega)

/-- A step on the owners of objects. -/
theorem Handed.moved (handed : Handed r hand r₁) : Moved r [] [] (r₁.dropOwner hand) where
  sound := handed.sound.moved_dropOwner.sound
  ordered := by
    obtain ⟨lost, real, deleted, balance⟩ := handed.sound.moved_dropOwner.ordered
    refine ⟨lost, real, by rw [deleted, handed.deleted], fun v nonzero => ?_⟩
    rw [balance v nonzero, handed.holders]
  retained id o present := by
    obtain ⟨o₁, present₁, same⟩ := Option.map_eq_some_iff.1 (handed.kept id o present)
    rw [← same, ← handed.deleted]
    exact handed.sound.moved_dropOwner.retained id o₁ present₁

/-! ### Each step -/

/-- Where nothing is deleted, there is nothing to log. -/
theorem log_none (r : Registry) : r.log none = r := by
  simp [log]

/-- Dropping what was in a slot deletes the value of the handle that was there. -/
theorem dropHandle_eq (r : Registry) (old : Option Handle) :
    r.dropHandle old = r.log (old.bind Handle.deleted) := by
  cases old with
  | none => exact r.log_none.symm
  | some h => rfl

/-- Nor is the null value deleted with a handle that is replaced. -/
theorem dropped_ne_zero (old : Option Handle) : old.bind Handle.deleted ≠ some 0 := by
  cases old with
  | none => simp
  | some h => exact h.deleted_ne_zero

/-- A handle that is replaced deletes what it holds. -/
theorem count_dropped (old : Option Handle) {v : Nat} (nonzero : v ≠ 0) :
    (old.bind Handle.deleted).toList.count v = (old.map (·.holds v)).getD 0 := by
  cases old with
  | none => rfl
  | some h => exact h.count_deleted nonzero

/-- An empty handle holds no real value. -/
theorem Handle.holds_null {v : Nat} (nonzero : v ≠ 0) : Handle.null.holds v = 0 :=
  if_neg nonzero.symm

/-- A handle goes into a slot of the unique handles that are left, and what was there is dropped. -/
theorem Sound.moved_putUnique (sound : r.Sound none) {adopted : List Nat}
    (rest : Table String Handle) (slot : String) (h : Handle)
    (balance : ∀ v, v ≠ 0 → rest.total (·.holds v) + h.holds v =
      r.unique.total (·.holds v) + adopted.count v) :
    Moved r adopted [] ({ r with unique := rest }.putUnique slot h) := by
  rw [putUnique, dropHandle_eq]
  refine sound.moved_log (dropped_ne_zero _) fun v nonzero => ?_
  have put := rest.total_set slot h (·.holds v)
  have balance := balance v nonzero
  simp only [count_dropped _ nonzero, List.count_nil]
  omega

/-- An owner of an object that a shared slot leads to is in hand. -/
theorem Sound.handed_addOwner (sound : r.Sound none) {owner : String} {id : Nat}
    (found : r.shared.get? owner = some id) : Handed r (some id) (r.addOwner id) where
  sound := sound.addOwner (sound.present found)
  deleted := rfl
  holders v := by
    have same := r.objects.total_modify_of_eq id
      (u := fun o => { o with owners := o.owners + 1 }) (f := fun o => o.handle.holds v) fun _ => rfl
    simp only [Registry.holders, Registry.addOwner, same]
  kept j o present := by
    simp only [Registry.addOwner, Pool.get?_modify, present]
    split <;> rfl

/-- To reset a handle moves its old value out and the new one in. -/
theorem Sound.moved_reset (sound : r.Sound none) (slot : String) (value : Nat) :
    Moved r (r.adopts (.reset slot value)) [] (r.step (.reset slot value)).2 := by
  cases found : r.unique.get? slot with
  | none => simpa [step, adopts, found] using sound.moved
  | some h =>
    have put (h' : Handle) (v : Nat) := r.unique.total_set slot h' (·.holds v)
    simp only [found, Option.map_some, Option.getD_some] at put
    by_cases held : value = h.value
    · -- The handle has the value already: nothing is adopted, and nothing is lost.
      simp only [step, adopts, found, Handle.reset, if_pos held]
      refine sound.moved_log (by simp) fun v _ => ?_
      have put := put h v
      simp only [Option.toList_none, List.count_nil]
      omega
    · simp only [step, adopts, found, Handle.reset, if_neg held]
      refine sound.moved_log h.deleted_ne_zero fun v nonzero => ?_
      have put := put ⟨value⟩ v
      rw [h.count_deleted nonzero, Handle.count_value ⟨value⟩ v, List.count_nil]
      omega

/-- To release a handle moves its value out, and deletes nothing. -/
theorem Sound.moved_release (sound : r.Sound none) (slot : String) :
    Moved r [] (r.gives (.release slot)) (r.step (.release slot)).2 := by
  cases found : r.unique.get? slot with
  | none => simpa [step, gives, found] using sound.moved
  | some h =>
    simp only [step, gives, found, Handle.release]
    rw [← log_none { r with unique := r.unique.set slot .null }]
    refine sound.moved_log (by simp) fun v nonzero => ?_
    have put := r.unique.total_set slot .null (·.holds v)
    rw [found, Option.map_some, Option.getD_some, Handle.holds_null nonzero] at put
    simp only [Option.toList_some, Option.toList_none, List.map_cons, List.map_nil, h.count_value,
      List.count_nil]
    omega

/-- A handle that is shared goes to an object with an owner in hand, who goes into a slot. -/
theorem Sound.moved_share (sound : r.Sound none) (slot owner : String) :
    Moved r [] [] (r.step (.share slot owner)).2 := by
  cases found : r.unique.get? slot with
  | none => simpa [step, found] using sound.moved
  | some h =>
    simp only [step, found]
    refine Handed.moved ⟨(sound.insert _ h).setShared owner, rfl, fun v => ?_, fun id o present => ?_⟩
    · have taken := r.unique.total_erase slot (·.holds v)
      have put := r.objects.total_insert ⟨h, 1⟩ (·.handle.holds v)
      rw [found, Option.map_some, Option.getD_some] at taken
      simp only [Registry.holders, put]
      omega
    · -- The new object stands where there was none.
      have old : id ≠ r.objects.next := by
        intro new
        rw [new, Pool.get?_next] at present
        cases present
      simp only [Pool.get?_insert, if_neg old, present]
      rfl

/-- What a step does, whatever the registry. -/
theorem moved_step (sound : r.Sound none) (s : Step) :
    Moved r (r.adopts s) (r.gives s) (r.step s).2 := by
  -- A handle that is overwritten or dropped is deleted, so what goes from the holders is logged.
  cases s with
  | adopt slot value =>
    refine sound.moved_putUnique r.unique slot ⟨value⟩ fun v _ => ?_
    rw [adopts, Handle.count_value ⟨value⟩ v]
  | null slot =>
    refine sound.moved_putUnique r.unique slot .null fun v nonzero => ?_
    simp [adopts, Handle.holds_null nonzero]
  | reset slot value => exact sound.moved_reset slot value
  | release slot => exact sound.moved_release slot
  | move source target =>
    cases found : r.unique.get? source with
    | none => simpa [step, adopts, gives, found] using sound.moved
    | some h =>
      simp only [step, found]
      refine sound.moved_putUnique (r.unique.erase source) target h fun v _ => ?_
      have taken := r.unique.total_erase source (·.holds v)
      rw [found] at taken
      simpa [adopts] using taken
  | drop slot =>
    simp only [step, dropHandle_eq]
    refine sound.moved_log (dropped_ne_zero _) fun v nonzero => ?_
    have taken := r.unique.total_erase slot (·.holds v)
    rw [count_dropped _ nonzero]
    simpa [adopts, gives] using taken
  | share slot owner => exact sound.moved_share slot owner
  | clone owner other =>
    cases found : r.shared.get? owner with
    | none => simpa [step, adopts, gives, found] using sound.moved
    | some id =>
      have handed := sound.handed_addOwner found
      simp only [step, found]
      exact Handed.moved
        ⟨handed.sound.setShared other, handed.deleted, handed.holders, handed.kept⟩
  | reference owner ref =>
    cases found : r.shared.get? owner with
    | none => simpa [step, adopts, gives, found] using sound.moved
    | some id =>
      have handed := sound.handed_addOwner found
      simp only [step, found]
      exact Handed.moved
        ⟨handed.sound.setReference ref, handed.deleted, handed.holders, handed.kept⟩
  | dropReference ref =>
    exact Handed.moved ⟨sound.eraseReference ref, rfl, fun _ => rfl,
      fun _ _ present => by simp [present]⟩
  | dropShared owner =>
    exact Handed.moved ⟨sound.eraseShared owner, rfl, fun _ => rfl,
      fun _ _ present => by simp [present]⟩
  | get slot | logLength slot | count slot | sharedGet slot =>
    simp only [step]
    split <;> exact sound.moved
  | same owner other =>
    simp only [step]
    split <;> exact sound.moved

/-! ### Sequences of steps -/

@[simp] theorem run_nil (r : Registry) : r.run [] = r := rfl

@[simp] theorem run_cons (r : Registry) (s : Step) (steps : List Step) :
    r.run (s :: steps) = (r.step s).2.run steps := rfl

/-- Any steps keep a registry sound, by induction. -/
theorem Sound.run (sound : r.Sound none) (steps : List Step) : (r.run steps).Sound none := by
  induction steps generalizing r with
  | nil => exact sound
  | cons s steps ih => exact ih (moved_step sound s).sound

/-- After any steps, a value is held, given up or deleted as often as it was held, deleted or adopted
before and on the way. By induction on the steps, each of which balances. -/
theorem Sound.balance (sound : r.Sound none) (steps : List Step) {v : Nat} (nonzero : v ≠ 0) :
    (r.run steps).holders v + (r.along gives steps).count v + (r.run steps).deleted.count v =
      r.holders v + r.deleted.count v + (r.along adopts steps).count v := by
  induction steps generalizing r with
  | nil => simp [along]
  | cons s steps ih =>
    obtain ⟨lost, -, deleted, balance⟩ := (moved_step sound s).ordered
    have first := balance v nonzero
    have rest := ih (moved_step sound s).sound
    rw [deleted, List.count_append] at rest
    simp only [run_cons, along, List.count_append]
    omega

/-- Any steps delete real values only, by induction. -/
theorem Sound.proper (sound : r.Sound none) (real : 0 ∉ r.deleted) (steps : List Step) :
    0 ∉ (r.run steps).deleted := by
  induction steps generalizing r with
  | nil => exact real
  | cons s steps ih =>
    obtain ⟨lost, nonzero, deleted, -⟩ := (moved_step sound s).ordered
    refine ih (moved_step sound s).sound ?_
    rw [deleted, List.mem_append, not_or]
    exact ⟨real, by simpa using nonzero⟩

/-- Steps each of which comes to nothing come to nothing. -/
theorem along_eq_nil {values : Registry → Step → List Nat} {steps : List Step}
    (none : ∀ s ∈ steps, ∀ r, values r s = []) : r.along values steps = [] := by
  induction steps generalizing r with
  | nil => rfl
  | cons s steps ih =>
    rw [along, none s List.mem_cons_self, List.nil_append]
    exact ih fun s mem => none s (List.mem_cons_of_mem _ mem)

/-! ### Dropping all that is left -/

/-- A registry without any handle, owner or reference under a name. -/
structure Vacant (r : Registry) : Prop where
  unique : ∀ slot, r.unique.get? slot = none
  shared : ∀ owner, r.shared.get? owner = none
  references : ∀ ref, r.references.get? ref = none

/-- Where nothing has a name, nothing is held: the objects have gone with their owners. -/
theorem Sound.holders_eq_zero (sound : r.Sound none) (vacant : r.Vacant) (v : Nat) :
    r.holders v = 0 := by
  have unique : r.unique.total (·.holds v) = 0 := by
    refine (Table.tally_eq_zero_iff _ _).2 fun slot h found => ?_
    rw [vacant.unique] at found
    cases found
  have objects : r.objects.total (·.handle.holds v) = 0 := by
    refine (Pool.total_eq_zero_iff _ _).2 fun id o present => ?_
    have live : r.liveOwners id = 0 := by
      refine Nat.add_eq_zero_iff.2 ⟨?_, ?_⟩
      · refine (Table.tally_eq_zero_iff _ _).2 fun owner j found => ?_
        rw [vacant.shared] at found
        cases found
      · refine (Table.tally_eq_zero_iff _ _).2 fun ref j found => ?_
        rw [vacant.references] at found
        cases found
    have pos := (sound.isSome_iff id).1 (by rw [present]; rfl)
    omega
  rw [holders, unique, objects]

/-- Losing an owner leaves all names as they are. -/
theorem names_dropOwner (r : Registry) (hand : Option Nat) :
    (r.dropOwner hand).unique = r.unique ∧ (r.dropOwner hand).shared = r.shared ∧
      (r.dropOwner hand).references = r.references := by
  unfold dropOwner
  split
  · exact ⟨rfl, rfl, rfl⟩
  · split
    · exact ⟨rfl, rfl, rfl⟩
    · split <;> exact ⟨rfl, rfl, rfl⟩

/-- Steps that each erase a slot of a table erase all of the slots. -/
theorem run_map_erase {β : Type} (f : String → Step) (table : Registry → Table String β)
    (erases : ∀ r slot, table (step r (f slot)).2 = (table r).erase slot) (r : Registry)
    (slots : List String) : table (r.run (slots.map f)) = slots.foldl Table.erase (table r) := by
  induction slots generalizing r with
  | nil => rfl
  | cons slot slots ih => rw [List.map_cons, run_cons, ih, erases, List.foldl_cons]

/-- What each of some steps leaves alone is left alone. -/
theorem run_map_keep {β : Type} (f : String → Step) (part : Registry → β)
    (keeps : ∀ r slot, part (step r (f slot)).2 = part r) (r : Registry) (slots : List String) :
    part (r.run (slots.map f)) = part r := by
  induction slots generalizing r with
  | nil => rfl
  | cons slot slots ih => rw [List.map_cons, run_cons, ih, keeps]

/-- Dropping all that is left is some steps, by which nothing is adopted or given up, and after which
nothing has a name. -/
theorem exists_clear_eq (r : Registry) : ∃ steps, r.clear = r.run steps ∧
    r.along adopts steps = [] ∧ r.along gives steps = [] ∧ r.clear.Vacant := by
  let slots := r.unique.entries.map Prod.fst
  let r₁ := r.run (slots.map .drop)
  let owners := r₁.shared.entries.map Prod.fst
  let r₂ := r₁.run (owners.map .dropShared)
  let refs := r₂.references.entries.map Prod.fst
  let r₃ := r₂.run (refs.map .dropReference)
  have cleared : r.clear = r₃ := by
    simp only [clear, r₃, r₂, r₁, refs, owners, slots, run, List.map_map, List.foldl_map,
      Function.comp_apply]
  -- Each table is erased by the steps for it, and stays empty by those for the other tables.
  have unique : r₃.unique = slots.foldl Table.erase r.unique :=
    calc r₃.unique = r₂.unique :=
          run_map_keep .dropReference Registry.unique (fun _ _ => (names_dropOwner _ _).1) r₂ refs
      _ = r₁.unique :=
          run_map_keep .dropShared Registry.unique (fun _ _ => (names_dropOwner _ _).1) r₁ owners
      _ = slots.foldl Table.erase r.unique :=
          run_map_erase .drop Registry.unique (fun _ _ => by rw [step, dropHandle_eq]; rfl) r slots
  have shared : r₃.shared = owners.foldl Table.erase r₁.shared :=
    calc r₃.shared = r₂.shared :=
          run_map_keep .dropReference Registry.shared (fun _ _ => (names_dropOwner _ _).2.1) r₂ refs
      _ = owners.foldl Table.erase r₁.shared :=
          run_map_erase .dropShared Registry.shared (fun _ _ => (names_dropOwner _ _).2.1) r₁ owners
  have references : r₃.references = refs.foldl Table.erase r₂.references :=
    run_map_erase .dropReference Registry.references (fun _ _ => (names_dropOwner _ _).2.2) r₂ refs
  have drops : ∀ s ∈ slots.map Step.drop ++ owners.map .dropShared ++ refs.map .dropReference,
      ∀ r : Registry, r.adopts s = [] ∧ r.gives s = [] := by
    intro s mem r
    simp only [List.mem_append, List.mem_map] at mem
    rcases mem with (⟨_, -, rfl⟩ | ⟨_, -, rfl⟩) | ⟨_, -, rfl⟩ <;> exact ⟨rfl, rfl⟩
  refine ⟨_, ?_, along_eq_nil fun s mem r => (drops s mem r).1,
    along_eq_nil fun s mem r => (drops s mem r).2, ?_⟩
  · rw [cleared, run, List.foldl_append, List.foldl_append]
    rfl
  · rw [cleared]
    refine ⟨fun slot => ?_, fun owner => ?_, fun ref => ?_⟩
    · rw [unique]
      exact r.unique.get?_foldl_erase slot
    · rw [shared]
      exact r₁.shared.get?_foldl_erase owner
    · rw [references]
      exact r₂.references.get?_foldl_erase ref

/-- When everything is dropped, what was held has been deleted. -/
theorem Sound.count_clear (sound : r.Sound none) {v : Nat} (nonzero : v ≠ 0) :
    r.clear.holders v = 0 ∧ r.clear.deleted.count v = r.holders v + r.deleted.count v := by
  obtain ⟨drops, cleared, adopted, given, vacant⟩ := r.exists_clear_eq
  have unheld : r.clear.holders v = 0 := by
    rw [cleared] at vacant ⊢
    exact (sound.run drops).holders_eq_zero vacant v
  have balance := sound.balance drops nonzero
  rw [adopted, given, ← cleared, unheld, List.count_nil] at balance
  exact ⟨unheld, by omega⟩

/-! ### Sharing -/

/-- Losing an owner of another object leaves an object as it is. -/
theorem get?_dropOwner_of_ne (r : Registry) {hand : Option Nat} {id : Nat} (ne : hand ≠ some id) :
    (r.dropOwner hand).objects.get? id = r.objects.get? id := by
  cases hand with
  | none => rfl
  | some j =>
    have other : id ≠ j := fun same => ne (congrArg some same.symm)
    unfold dropOwner
    split
    case h_1 => rfl
    case h_2 found =>
      cases found
      split
      · rfl
      · split
        · simp only [log, Pool.get?_erase, if_neg other]
        · simp only [Pool.get?_modify, if_neg other]

/-- A handle that is shared is in a new object, whatever the owner's slot held before. -/
theorem Sound.share (sound : r.Sound none) {slot : String} (owner : String) {h : Handle}
    (found : r.unique.get? slot = some h) :
    (r.step (.share slot owner)).2.unique.get? slot = none ∧
      (r.step (.share slot owner)).2.shared.get? owner = some r.objects.next ∧
      (r.step (.share slot owner)).2.objects.get? r.objects.next = some ⟨h, 1⟩ := by
  -- The old object of the owner's slot exists, so its number is not the next one.
  have older : r.shared.get? owner ≠ some r.objects.next := by
    intro next
    have present := sound.present next
    rw [Pool.get?_next] at present
    cases present
  simp only [step, found, putShared, get?_dropOwner_of_ne _ older, names_dropOwner, Pool.insert_snd,
    Table.get?_erase_self, Table.get?_set_self, Pool.get?_insert, if_true, and_self]

/-- The step after which an object has no live owner takes it along, and deletes its value. -/
theorem Sound.last_owner (sound : r.Sound none) (s : Step) {id : Nat} {o : SharedObject}
    (present : r.objects.get? id = some o) :
    if (r.step s).2.liveOwners id = 0 then
      (r.step s).2.objects.get? id = none ∧
        (r.step s).2.deleted = r.deleted ++ o.handle.deleted.toList
    else ((r.step s).2.objects.get? id).map SharedObject.handle = some o.handle := by
  -- Whether the object is still there is the same as whether it has live owners.
  have there := (moved_step sound s).sound.isSome_iff id
  rcases (moved_step sound s).retained id o present with kept | gone
  · obtain ⟨o', present', -⟩ := Option.map_eq_some_iff.1 kept
    rw [present'] at there
    have live : 0 < (r.step s).2.liveOwners id := there.1 rfl
    rw [if_neg (by omega)]
    exact kept
  · rw [gone.1] at there
    have dead : ¬ 0 < (r.step s).2.liveOwners id := fun live => by simpa using there.2 live
    rw [if_pos (by omega)]
    exact gone

/-- A shared handle that is asked for its count tells how many owners there are. -/
theorem Sound.step_count (sound : r.Sound none) {owner : String} {id : Nat}
    (found : r.shared.get? owner = some id) :
    (r.step (.count owner)).1 = .number (r.liveOwners id) := by
  simp only [step, found, sound.owners id, reduceCtorEq, if_false, Nat.add_zero]

/-! ### All values -/

/-- What has become of all values that some steps, from an empty registry on, have let handles adopt,
and what becomes of them by one step more. -/
structure Accounted (steps : List Step) (r : Registry) : Prop where
  /-- As often as a value was adopted, it is held by a handle, was given up, or was deleted. -/
  once : ∀ v, v ≠ 0 → r.holders v + (empty.along gives steps).count v + r.deleted.count v =
    (empty.along adopts steps).count v
  /-- None is no value, and is never deleted. -/
  proper : 0 ∉ r.deleted
  /-- A step deletes at most one value, after all that were deleted before: the one that handles have
  lost by the step without giving it up. -/
  ordered : ∀ s, ∃ lost : Option Nat, (r.step s).2.deleted = r.deleted ++ lost.toList ∧
    ∀ v, v ≠ 0 → (r.step s).2.holders v + (r.gives s).count v + lost.toList.count v =
      r.holders v + (r.adopts s).count v
  /-- A handle that is shared moves into a new object, which has one owner. -/
  wrapped : ∀ slot owner h, r.unique.get? slot = some h → ∃ id, r.objects.get? id = none ∧
    (r.step (.share slot owner)).2.unique.get? slot = none ∧
    (r.step (.share slot owner)).2.shared.get? owner = some id ∧
    (r.step (.share slot owner)).2.objects.get? id = some ⟨h, 1⟩
  /-- The objects that exist are those with live owners. -/
  owned : ∀ id, (r.objects.get? id).isSome ↔ 0 < r.liveOwners id
  /-- The value of a shared handle is deleted by the step after which its object has no live owner
  any more; until then the object keeps its handle. -/
  last : ∀ s id o, r.objects.get? id = some o →
    if (r.step s).2.liveOwners id = 0 then
      (r.step s).2.objects.get? id = none ∧
        (r.step s).2.deleted = r.deleted ++ o.handle.deleted.toList
    else ((r.step s).2.objects.get? id).map SharedObject.handle = some o.handle
  /-- The number of owners that is told is that of the live shared handles and references. -/
  counted : ∀ owner id, r.shared.get? owner = some id →
    (r.step (.count owner)).1 = .number (r.liveOwners id)
  /-- Where no handle, owner or reference is left, nothing is held. -/
  settled : r.Vacant → ∀ v, r.holders v = 0
  /-- When all that is left is dropped, every value that was not given up has been deleted as often
  as it was adopted. -/
  cleared : r.clear.Vacant ∧ ∀ v, v ≠ 0 → r.clear.holders v = 0 ∧
    (empty.along gives steps).count v + r.clear.deleted.count v =
      (empty.along adopts steps).count v

/-- Every value that handles have adopted is held, was given up, or was deleted once, by induction
on the steps. -/
theorem once_run (steps : List Step) {v : Nat} (nonzero : v ≠ 0) :
    (empty.run steps).holders v + (empty.along gives steps).count v +
      (empty.run steps).deleted.count v = (empty.along adopts steps).count v := by
  have balance := sound_empty.balance steps nonzero
  have unheld : empty.holders v = 0 := rfl
  have undeleted : empty.deleted.count v = 0 := rfl
  omega

/-- **Adopted values.** Whatever is asked of handles, from an empty registry on, each value that was
adopted is held by one handle, was given up, or was deleted exactly once; nothing null is deleted, and
values are deleted in the order in which handles lose them. A shared handle loses its value with the
last of its owners, whose true number is told; when everything is dropped, nothing is held. -/
theorem accounted_run (steps : List Step) : Accounted steps (empty.run steps) where
  once _ nonzero := once_run steps nonzero
  proper := sound_empty.proper (by simp [empty]) steps
  ordered s := by
    obtain ⟨lost, -, deleted, balance⟩ := (moved_step (sound_empty.run steps) s).ordered
    exact ⟨lost, deleted, balance⟩
  wrapped _ owner _ found := ⟨_, Pool.get?_next _, (sound_empty.run steps).share owner found⟩
  owned := (sound_empty.run steps).isSome_iff
  last s _ _ present := (sound_empty.run steps).last_owner s present
  counted _ _ found := (sound_empty.run steps).step_count found
  settled := (sound_empty.run steps).holders_eq_zero
  cleared := by
    obtain ⟨drops, -, -, -, vacant⟩ := (empty.run steps).exists_clear_eq
    refine ⟨vacant, fun v nonzero => ?_⟩
    have once := once_run steps nonzero
    have clear := (sound_empty.run steps).count_clear nonzero
    exact ⟨clear.1, by omega⟩

example : (empty.run [.adopt "a" 7, .reset "a" 7, .share "a" "s", .clone "s" "t", .reference "s" "x",
    .dropShared "s", .adopt "b" 8, .null "b", .dropShared "t", .dropReference "x"]).deleted =
      [8, 7] := by
  decide +kernel

end Registry

end Embedder
