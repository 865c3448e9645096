import Embedder.Proofs.Host.Making
import Embedder.Proofs.Session.Basic

namespace Embedder

open Session (Kind Slot Slots)

/-!
# What names stand for

A session's names stand for instances, environments and blocks. When a name is given to another
object, what it stood for before is given up, and this is confined to the instance that it belonged
to. In two sessions that have the instance in common the same becomes of it.

* `Session.thing?`: what a name stands for.
* `Session.Tidy`: names stand for objects that are there, and each environment and block has one name.
* `confined_release`, `release_alike`: objects that are given up.
* `thing?_put_self`, `thing?_put_of_ne`, `put_alike`: names that are given to objects.
-/

/-- The kinds of objects that a guest is concerned with: its instance, and the environments and
blocks of it. -/
def Session.Kind.isLocal : Kind → Bool
  | .inst | .environment | .block => true
  | .runtime | .commons | .module | .runner => false

namespace Session

variable {s t : Session}

/-- What a name stands for. -/
def thing? (s : Session) (slot : Slot) : Option Thing :=
  (s.app.names.get? slot).bind (s.object? slot.kind)

/-- No two names stand for the same environment or block. -/
def Distinct (s : Session) : Prop :=
  ∀ {slot slot' : Slot} {id : Nat}, s.app.names.get? slot = some id →
    s.app.names.get? slot' = some id → slot.kind = slot'.kind → slot.kind.isLocal →
      slot.kind ≠ .inst → slot = slot'

/-- Names stand for objects that are there, and no two for the same environment or block. -/
structure Tidy (s : Session) : Prop where
  there : ∀ {slot : Slot} {id : Nat}, s.app.names.get? slot = some id → slot.kind.isLocal →
    (s.object? slot.kind id).isSome
  distinct : s.Distinct

/-- In a sound session, no two names stand for one object that has a single owner. -/
theorem tidy_of_sound [HookRule] {g : Pending} (ha : Config.Sound ⟨s, g⟩) : s.Tidy where
  there := by
    intro slot id named plain
    obtain ⟨kind, name⟩ := slot
    cases kind with
    | inst => rfl
    | environment =>
      obtain ⟨e, there⟩ := Pool.get?_of_owned_pos (holders_pos_of_named ha named (by simp))
      simp [Host.object?, there]
    | block =>
      obtain ⟨b, there⟩ := Pool.get?_of_owned_pos (holders_pos_of_named ha named (by simp))
      simp [Host.object?, there]
    | _ => cases plain
  distinct := by
    intro slot slot' id named named' same plain single
    by_contra other
    have counted : s.holders slot.kind id = Holder.holds s.app slot.kind id + g.pins slot.kind id +
        s.inner slot.kind id + g.loaned slot.kind id :=
      ha.counted slot.kind id (by rintro e; rw [e] at plain; cases plain)
    -- What has two names has two holders.
    have twice : 2 ≤ Holder.holds s.app slot.kind id := by
      have rest : (s.app.names.erase slot).get? slot' = some id := by
        rw [Table.get?_erase_of_ne _ (Ne.symm other), named']
      have le := Table.le_tally rest fun e => if e.1.kind = slot.kind ∧ e.2 = id then 1 else 0
      have all := Table.tally_erase s.app.names named
        fun e => if e.1.kind = slot.kind ∧ e.2 = id then 1 else 0
      simp only [same, and_self, if_true] at le all
      show 2 ≤ s.app.names.tally fun e => if e.1.kind = slot.kind ∧ e.2 = id then 1 else 0
      rw [same]
      omega
    have once : s.holders slot.kind id ≤ 1 := by
      have owned : ∀ {α : Type} (p : Pool α), p.owned id ≤ 1 := by
        intro α p
        unfold Pool.owned
        split <;> omega
      cases kind : slot.kind with
      | environment => exact owned s.environments
      | block => exact owned s.blocks
      | inst => exact absurd kind single
      | _ => rw [kind] at plain; cases plain
    omega

/-- A name stands for what its number stands for. -/
theorem thing?_of_named {slot : Slot} {id : Nat} (named : s.app.names.get? slot = some id) :
    s.thing? slot = s.object? slot.kind id := by
  rw [thing?, named, Option.bind_some]

/-- A name stands for nothing only if there is no such name. -/
theorem Tidy.unnamed (tidy : s.Tidy) {slot : Slot} (plain : slot.kind.isLocal)
    (none : s.thing? slot = none) : s.app.names.get? slot = .none := by
  cases named : s.app.names.get? slot with
  | none => rfl
  | some id =>
    have there := tidy.there named plain
    rw [← thing?_of_named named, none] at there
    cases there

/-- What a name stands for stays, unless something happens to it. -/
theorem thing?_eq_of_confined {insts : Set Nat} {objects : Set (Kind × Nat)} {slot : Slot}
    (confined : Host.Confined insts objects s t)
    (names : t.app.names.get? slot = s.app.names.get? slot)
    (spared : ∀ id, s.app.names.get? slot = some id → (slot.kind, id) ∉ objects) :
    t.thing? slot = s.thing? slot := by
  unfold thing?
  rw [names]
  cases named : s.app.names.get? slot with
  | none => rfl
  | some id => exact confined.objects _ _ (spared id named)

/-! ### Objects that are given up -/

/-- Giving up an object is confined to it and to the instance that it belongs to. -/
theorem confined_release {kind : Kind} {id : Nat} {x : Thing} (there : s.object? kind id = some x) :
    Host.Confined {x.home} {(kind, id)} s (s.release kind id) := by
  cases kind with
  | inst =>
    cases there
    exact (Host.confined_releaseInstance s id).mono subset_rfl (Set.empty_subset _)
  | environment =>
    obtain ⟨e, present, rfl⟩ := Option.map_eq_some_iff.1 there
    exact Host.confined_dropEnvironment present
  | block =>
    obtain ⟨b, present, rfl⟩ := Option.map_eq_some_iff.1 there
    exact Host.confined_dropBlock present
  | _ => cases there

/-- Where there is no object, there is nothing to give up. -/
theorem release_of_absent {kind : Kind} {id : Nat} (plain : kind.isLocal)
    (gone : s.object? kind id = none) : s.release kind id = s := by
  cases kind with
  | inst => cases gone
  | environment =>
    show s.dropEnvironment id = s
    unfold Host.dropEnvironment
    rw [Option.map_eq_none_iff.1 gone]
  | block =>
    show s.dropBlock id = s
    unfold Host.dropBlock
    rw [Option.map_eq_none_iff.1 gone]
  | _ => cases plain

/-- What becomes of an instance when a block of it is dropped. -/
theorem instances_dropBlock {s : Session} {id : Nat} {b : Block} (there : s.blocks.get? id = some b) :
    (s.dropBlock id).instances.get? b.inst =
      ((match b.address.deleted with
        | some address => s.freeBlock b.inst address
        | none => s).instances.get? b.inst).bind Counted.release? := by
  have freed : ∀ (u u' : Session) address, u'.instances.get? b.inst = u.instances.get? b.inst →
      (u'.freeBlock b.inst address).instances.get? b.inst =
        (u.freeBlock b.inst address).instances.get? b.inst :=
    fun u u' address same => ((local_freeBlock (σ := Slots) address).alike same).2
  unfold Host.dropBlock
  rw [there]
  dsimp only
  rw [Host.get?_releaseInstance]
  -- Whether or not slots are released is nothing to the instance; after that its heap takes the
  -- block back.
  generalize released : (if b.address.isNull then ({ s with blocks := s.blocks.erase id } : Session)
    else Host.releaseValues { s with blocks := s.blocks.erase id } b) = u
  have same : u.instances.get? b.inst = s.instances.get? b.inst := by
    rw [← released]
    split
    · rfl
    · exact (Host.confined_releaseValues _ b).instances _ (Set.notMem_empty _)
  cases b.address.deleted with
  | none => exact congrArg (·.bind Counted.release?) same
  | some address => exact congrArg (·.bind Counted.release?) (freed s u address same)

/-- The same becomes of an instance when the same object is given up. -/
theorem release_alike {kind : Kind} {i j : Nat} {x : Thing} (there : s.object? kind i = some x)
    (there' : t.object? kind j = some x)
    (same : t.instances.get? x.home = s.instances.get? x.home) :
    (t.release kind j).instances.get? x.home = (s.release kind i).instances.get? x.home := by
  cases kind with
  | inst =>
    cases there
    cases there'
    show (t.releaseInstance i).instances.get? i = (s.releaseInstance i).instances.get? i
    rw [Host.get?_releaseInstance, Host.get?_releaseInstance]
    exact congrArg (·.bind Counted.release?) same
  | environment =>
    obtain ⟨e, present, rfl⟩ := Option.map_eq_some_iff.1 there
    obtain ⟨_, present', eq⟩ := Option.map_eq_some_iff.1 there'
    cases eq
    -- An environment gives its share in the instance back.
    have dropped : ∀ {u : Session} {n : Nat}, u.environments.get? n = some e →
        (u.dropEnvironment n).instances.get? e.inst =
          (u.instances.get? e.inst).bind Counted.release? := by
      intro u n present
      unfold Host.dropEnvironment
      rw [present]
      exact Host.get?_releaseInstance _ _
    exact (dropped present').trans ((congrArg (·.bind Counted.release?) same).trans
      (dropped present).symm)
  | block =>
    obtain ⟨b, present, rfl⟩ := Option.map_eq_some_iff.1 there
    obtain ⟨_, present', eq⟩ := Option.map_eq_some_iff.1 there'
    cases eq
    -- A block gives its memory back first, and then its share in the instance.
    show (t.dropBlock j).instances.get? b.inst = (s.dropBlock i).instances.get? b.inst
    rw [instances_dropBlock present, instances_dropBlock present']
    cases b.address.deleted with
    | none => exact congrArg (·.bind Counted.release?) same
    | some address =>
      have freed := ((local_freeBlock (σ := Slots) address).alike same).2
      exact congrArg (·.bind Counted.release?) freed
  | _ => cases there

/-! ### Names that are given and taken away -/

section

variable {slot : Slot} {id : Nat}

/-- A name that gets an object stands for it, and the others for what they did. -/
theorem names_put (s : Session) (slot : Slot) (id : Nat) (m : Slot) :
    (s.put slot id).app.names.get? m = if m = slot then some id else s.app.names.get? m := by
  rw [app_put]
  show (s.app.names.set slot id).get? m = _
  split
  case isTrue own => rw [own, Table.get?_set_self]
  case isFalse other => rw [Table.get?_set_of_ne _ _ other]

/-- Nothing is given up for a name that stood for nothing. -/
theorem put_cases (plain : slot.kind.isLocal) (s : Session) (id : Nat) :
    s.thing? slot = none ∧ s.put slot id = s.modifyNames (·.set slot id) ∨
      ∃ old x, s.app.names.get? slot = some old ∧ s.thing? slot = some x ∧
        s.object? slot.kind old = some x ∧
        s.put slot id = (s.modifyNames (·.set slot id)).release slot.kind old := by
  unfold put
  cases named : s.app.names.get? slot with
  | none => exact .inl ⟨by rw [thing?, named]; rfl, rfl⟩
  | some old =>
    cases there : s.object? slot.kind old with
    | some x => exact .inr ⟨old, x, rfl, (thing?_of_named named).trans there, there, rfl⟩
    | none =>
      exact .inl ⟨(thing?_of_named named).trans there,
        release_of_absent (s := s.modifyNames (·.set slot id)) plain there⟩

/-- What happens when a name is given to an object happens to what it stood for before. -/
theorem confined_put (plain : slot.kind.isLocal) (s : Session) (id : Nat) :
    Host.Confined {j | ∃ x, s.thing? slot = some x ∧ x.home = j}
      {p | p.1 = slot.kind ∧ s.app.names.get? slot = some p.2} (s.modifyNames (·.set slot id))
      (s.put slot id) := by
  rcases put_cases plain s id with ⟨-, put⟩ | ⟨old, x, named, stood, there, put⟩
  · rw [put]
    exact .refl _
  · rw [put]
    refine (confined_release (s := s.modifyNames (·.set slot id)) there).mono ?_ ?_
    · rintro _ rfl
      exact ⟨x, stood, rfl⟩
    · rintro _ rfl
      exact ⟨rfl, named⟩

/-- To name an object of an instance is nothing to clocks. -/
theorem tells_put (plain : slot.kind.isLocal) (s : Session) (id j : Nat) :
    (s.put slot id).tells? j = s.tells? j :=
  (confined_put plain s id).tells j

/-- To name an object leaves every instance alone to which nothing belonged that had the name. -/
theorem instances_put (plain : slot.kind.isLocal) (id : Nat) {b : Nat}
    (other : ∀ x, s.thing? slot = some x → x.home ≠ b) :
    (s.put slot id).instances.get? b = s.instances.get? b :=
  (confined_put plain s id).instances b fun ⟨x, stood, home⟩ => other x stood home

/-- A name stands for the object that it is given to. -/
theorem thing?_put_self (plain : slot.kind.isLocal)
    (fresh : s.app.names.get? slot = some id → slot.kind = .inst) :
    (s.put slot id).thing? slot = s.object? slot.kind id := by
  have named : (s.put slot id).app.names.get? slot = some id := by rw [names_put, if_pos rfl]
  rw [thing?_of_named named]
  by_cases kind : slot.kind = .inst
  · rw [kind]
    rfl
  · exact (confined_put plain s id).objects _ _ fun ⟨_, before⟩ => kind (fresh before)

/-- What other names stand for stays. -/
theorem thing?_put_of_ne (distinct : s.Distinct) (plain : slot.kind.isLocal) (id : Nat) {m : Slot}
    (other : m ≠ slot) : (s.put slot id).thing? m = s.thing? m := by
  have names : (s.put slot id).app.names.get? m = s.app.names.get? m := by
    rw [names_put, if_neg other]
  unfold thing?
  rw [names]
  cases named : s.app.names.get? m with
  | none => rfl
  | some i =>
    by_cases kind : m.kind = .inst
    · rw [kind]
      rfl
    · refine (confined_put plain s id).objects _ _ ?_
      rintro ⟨same, before⟩
      change m.kind = slot.kind at same
      exact other (distinct named before same (same ▸ plain) kind)

/-- The same becomes of an instance when a name that stood for the same is given to an object. -/
theorem put_alike (plain : slot.kind.isLocal) {i j b : Nat} (same : t.thing? slot = s.thing? slot)
    (own : ∀ x, s.thing? slot = some x → x.home = b)
    (inst : t.instances.get? b = s.instances.get? b) :
    (t.put slot j).instances.get? b = (s.put slot i).instances.get? b := by
  rcases put_cases plain s i with ⟨none, put⟩ | ⟨old, x, -, stood, there, put⟩ <;>
    rcases put_cases plain t j with ⟨none', put'⟩ | ⟨old', x', -, stood', there', put'⟩
  · rw [put, put']
    exact inst
  · rw [same, none] at stood'
    cases stood'
  · rw [same, stood] at none'
    cases none'
  · rw [same, stood] at stood'
    cases stood'
    rw [put, put', ← own x stood]
    exact release_alike (s := s.modifyNames (·.set slot i)) (t := t.modifyNames (·.set slot j)) there
      there' ((own x stood).symm ▸ inst)

/-- A name that is taken away stands for nothing. -/
theorem names_erase (s : Session) (slot m : Slot) :
    (s.modifyNames (·.erase slot)).app.names.get? m =
      if m = slot then none else s.app.names.get? m := by
  show (s.app.names.erase slot).get? m = _
  split
  case isTrue own => rw [own, Table.get?_erase_self]
  case isFalse other => rw [Table.get?_erase_of_ne _ other]

/-- Nor does it stand for a thing. -/
theorem thing?_erase (s : Session) (slot m : Slot) :
    (s.modifyNames (·.erase slot)).thing? m = if m = slot then none else s.thing? m := by
  unfold thing?
  rw [names_erase]
  split <;> rfl

/-- What is named without some name is named with it. -/
theorem named_of_erase {s : Session} {slot m : Slot} {id : Nat}
    (named : (s.modifyNames (·.erase slot)).app.names.get? m = some id) :
    m ≠ slot ∧ s.app.names.get? m = some id := by
  rw [names_erase] at named
  split at named
  · cases named
  case isFalse other => exact ⟨other, named⟩

/-- When an object is dropped, all other names stand for what they stood for. -/
theorem thing?_drop (distinct : s.Distinct) (plain : slot.kind.isLocal)
    (named : s.app.names.get? slot = some id) {x : Thing} (there : s.object? slot.kind id = some x)
    (m : Slot) : ((s.modifyNames (·.erase slot)).release slot.kind id).thing? m =
      if m = slot then none else s.thing? m := by
  rw [← thing?_erase]
  have names : ((s.modifyNames (·.erase slot)).release slot.kind id).app.names.get? m =
      (s.modifyNames (·.erase slot)).app.names.get? m := by rw [app_release]
  unfold thing?
  rw [names]
  cases named' : (s.modifyNames (·.erase slot)).app.names.get? m with
  | none => rfl
  | some i =>
    by_cases kind : m.kind = .inst
    · rw [kind]
      rfl
    · refine (confined_release (s := s.modifyNames (·.erase slot)) there).objects _ _ fun same => ?_
      obtain ⟨kind', rfl⟩ := Prod.mk.injEq .. ▸ (show (m.kind, i) = (slot.kind, id) from same)
      obtain ⟨other, named'⟩ := named_of_erase named'
      exact other (distinct named' named kind' (kind' ▸ plain) kind)

end

end Session

end Embedder
