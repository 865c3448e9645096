import Embedder.Proofs.Host.Conservation

namespace Embedder

open Session (Kind)

/-!
# What is there is what can be reached

An object lives as long as the application holds it, or an object that lives does. When nothing is in
hand, these are the objects that a host has.

* `Host.refs`, `Host.Live`: what objects hold, and what can be reached.
* `Config.Sound.has_iff_live`: a host has what can be reached, and nothing else.
* `Host.Unmoved`, `Host.Unmoved.holders_eq`, `Host.Unmoved.inUse_eq`: where the application holds what
  it held, everything has as many holders as before, and every budget is charged as much.
* `inUse_of_denied`: what creates nothing that can be reached charges nothing.
-/

variable {σ : Type}

namespace Host

/-- Whether a host has an object. -/
def has (h : Host σ) : Kind → Nat → Bool
  | .runtime, id => (h.runtimes.get? id).isSome
  | .commons, id => (h.commons.get? id).isSome
  | .module, id => (h.modules.get? id).isSome
  | .inst, id => (h.instances.get? id).isSome
  | .environment, id => (h.environments.get? id).isSome
  | .block, id => (h.blocks.get? id).isSome
  | .runner, id => (h.runners.get? id).isSome

/-- What an object holds. -/
def refs (h : Host σ) : Kind → Nat → Holds
  | .runtime, _ => 0
  | .commons, _ => 0
  | .module, id => ((h.module? id).map LoadedModule.refs).getD 0
  | .inst, id => ((h.instance? id).map Instance.refs).getD 0
  | .environment, id => ((h.environments.get? id).map Environment.refs).getD 0
  | .block, id => ((h.blocks.get? id).map Block.refs).getD 0
  | .runner, id => ((h.runners.get? id).map Runner.refs).getD 0

/-- What the application holds, what that holds, and so on. -/
inductive Live [Holder σ] (h : Host σ) : Kind → Nat → Prop
  /-- The application holds it. -/
  | owned {k : Kind} {id : Nat} (holds : 0 < Holder.holds h.app k id) : Live h k id
  /-- An object that lives holds it. -/
  | held {k k' : Kind} {id id' : Nat} (live : Live h k id) (holds : 0 < h.refs k id k' id') :
      Live h k' id'

end Host

/-! ### The order of ownership -/

/-- How far an object of a kind is from the end of all chains of holds. -/
def Session.Kind.rank : Kind → Nat
  | .runner => 0
  | .environment => 1
  | .block => 1
  | .inst => 2
  | .module => 3
  | .runtime => 4
  | .commons => 4

theorem Holds.on_pos {kind k : Kind} {j i : Nat} :
    0 < Holds.on kind j 1 k i ↔ k = kind ∧ i = j := by
  unfold Holds.on
  split
  case isTrue e => exact ⟨fun _ => e, fun _ => Nat.one_pos⟩
  case isFalse e => exact ⟨fun h => absurd h (Nat.lt_irrefl 0), fun h => absurd h e⟩

theorem Runner.refs_pos {r : Runner} {k : Kind} {i : Nat} :
    0 < r.refs k i ↔ (k = .environment ∧ i = r.environment) ∨ (k = .inst ∧ i = r.inst) ∨
      (k = .module ∧ i = r.module) := by
  rw [← Holds.on_pos, ← Holds.on_pos, ← Holds.on_pos]
  simp only [Runner.refs, Pi.add_apply]
  omega

namespace Host

variable {h : Host σ} {k : Kind} {id : Nat}

/-- What is held from inside is held by an object that comes before it. -/
theorem exists_of_inner_pos (pos : 0 < h.inner k id) :
    ∃ k' id', k'.rank < k.rank ∧ k' ≠ .commons ∧ h.has k' id' ∧ 0 < h.refs k' id' k id := by
  unfold inner at pos
  have parts : 0 < (h.modules.total fun c => c.value.refs k id) ∨
      0 < (h.instances.total fun c => c.value.refs k id) ∨
      0 < (h.environments.total fun e => e.refs k id) ∨
      0 < (h.blocks.total fun b => b.refs k id) ∨ 0 < h.runners.total fun r => r.refs k id := by
    omega
  -- One of the parts is positive, so an object of that kind holds it.
  rcases parts with pos | pos | pos | pos | pos
  · obtain ⟨j, c, hc, refs⟩ := Pool.exists_of_total_pos pos
    obtain ⟨rfl, -⟩ := Holds.on_pos.1 refs
    exact ⟨.module, j, by decide, by decide, by simp [has, hc], by simpa [Host.refs, module?, hc]⟩
  · obtain ⟨j, c, hc, refs⟩ := Pool.exists_of_total_pos pos
    obtain ⟨rfl, -⟩ := Holds.on_pos.1 refs
    exact ⟨.inst, j, by decide, by decide, by simp [has, hc], by simpa [Host.refs, instance?, hc]⟩
  · obtain ⟨j, e, he, refs⟩ := Pool.exists_of_total_pos pos
    obtain ⟨rfl, -⟩ := Holds.on_pos.1 refs
    exact ⟨.environment, j, by decide, by decide, by simp [has, he], by simpa [Host.refs, he]⟩
  · obtain ⟨j, b, hb, refs⟩ := Pool.exists_of_total_pos pos
    obtain ⟨rfl, -⟩ := Holds.on_pos.1 refs
    exact ⟨.block, j, by decide, by decide, by simp [has, hb], by simpa [Host.refs, hb]⟩
  · obtain ⟨j, r, hr, refs⟩ := Pool.exists_of_total_pos pos
    have rank : (Kind.runner).rank < k.rank := by
      rcases Runner.refs_pos.1 refs with ⟨rfl, -⟩ | ⟨rfl, -⟩ | ⟨rfl, -⟩ <;> decide
    exact ⟨.runner, j, rank, by decide, by simp [has, hr], by simpa [Host.refs, hr]⟩

theorem pos_of_getD_pos {α : Type} {a : Option α} {f : α → Holds}
    (pos : 0 < ((a.map f).getD 0) k id) : ∃ x, a = some x ∧ 0 < f x k id := by
  cases a with
  | none => exact absurd pos (Nat.lt_irrefl 0)
  | some x => exact ⟨x, rfl, pos⟩

/-- What an object holds is held from inside. -/
theorem inner_pos_of_refs {k' : Kind} {id' : Nat} (pos : 0 < h.refs k' id' k id) :
    0 < h.inner k id ∧ k ≠ .commons := by
  unfold inner
  -- The part of its kind is at least what the object holds.
  cases k' with
  | runtime => exact absurd pos (Nat.lt_irrefl 0)
  | commons => exact absurd pos (Nat.lt_irrefl 0)
  | module =>
    obtain ⟨m, hm, refs⟩ := pos_of_getD_pos pos
    obtain ⟨c, hc, rfl⟩ := Option.map_eq_some_iff.1 hm
    have le := Pool.le_total hc fun c => c.value.refs k id
    obtain ⟨rfl, -⟩ := Holds.on_pos.1 refs
    exact ⟨by omega, by decide⟩
  | inst =>
    obtain ⟨i, hi, refs⟩ := pos_of_getD_pos pos
    obtain ⟨c, hc, rfl⟩ := Option.map_eq_some_iff.1 hi
    have le := Pool.le_total hc fun c => c.value.refs k id
    obtain ⟨rfl, -⟩ := Holds.on_pos.1 refs
    exact ⟨by omega, by decide⟩
  | environment =>
    obtain ⟨e, he, refs⟩ := pos_of_getD_pos pos
    have le := Pool.le_total he fun e => e.refs k id
    obtain ⟨rfl, -⟩ := Holds.on_pos.1 refs
    exact ⟨by omega, by decide⟩
  | block =>
    obtain ⟨b, hb, refs⟩ := pos_of_getD_pos pos
    have le := Pool.le_total hb fun b => b.refs k id
    obtain ⟨rfl, -⟩ := Holds.on_pos.1 refs
    exact ⟨by omega, by decide⟩
  | runner =>
    obtain ⟨r, hr, refs⟩ := pos_of_getD_pos pos
    have le := Pool.le_total hr fun r => r.refs k id
    refine ⟨by omega, ?_⟩
    rcases Runner.refs_pos.1 refs with ⟨rfl, -⟩ | ⟨rfl, -⟩ | ⟨rfl, -⟩ <;> decide

end Host

/-! ### Between operations -/

section

variable [Holder σ] [Rule σ] {h h' : Host σ} {k : Kind} {id : Nat}

/-- A host has what has holders. -/
theorem Config.Sound.has_iff {g : Pending} (ha : Config.Sound ⟨h, g⟩) (hk : k ≠ .commons) :
    h.has k id ↔ 0 < h.holders k id := by
  -- Objects that are counted are there as long as they have holders; others have one owner as
  -- long as they are there.
  have counted : ∀ {α : Type} {p : Pool (Counted α)}, (p.All fun c => 0 < c.holders) →
      ((p.get? id).isSome ↔ 0 < p.count id) := by
    intro α p all
    cases hp : p.get? id with
    | none => simp [Pool.count, hp]
    | some c => simp [Pool.count, hp, all id c hp]
  have owned : ∀ {α : Type} {p : Pool α}, (p.get? id).isSome ↔ 0 < p.owned id := by
    intro α p
    unfold Pool.owned
    split <;> simp_all
  cases k with
  | runtime => exact counted ha.runtimes
  | commons => exact absurd rfl hk
  | module => exact counted ha.modules
  | inst => exact counted ha.instances
  | environment => exact owned
  | block => exact owned
  | runner => exact owned

/-- What an object holds is there. -/
theorem Config.Sound.has_of_refs {g : Pending} {k' : Kind} {id' : Nat}
    (ha : Config.Sound ⟨h, g⟩) (refs : 0 < h.refs k' id' k id) : h.has k id := by
  obtain ⟨inner, hk⟩ := Host.inner_pos_of_refs refs
  have counted : h.holders k id =
      Holder.holds h.app k id + g.pins k id + h.inner k id + g.loaned k id := ha.counted k id hk
  exact (ha.has_iff hk).2 (by omega)

/-- When nothing is in hand, what is held is held by the application or from inside. -/
theorem Config.Sound.holders_eq (ha : Config.Sound ⟨h, .none⟩) (hk : k ≠ .commons) :
    h.holders k id = Holder.holds h.app k id + h.inner k id := by
  have counted := ha.counted k id hk
  have loaned : Pending.none.loaned k id = 0 := by cases k <;> rfl
  have pins : Pending.none.pins k id = 0 := rfl
  simp only [loaned, pins] at counted
  omega

/-- What has holders lives, by induction along the chains of holds. -/
theorem Config.Sound.live_of_has {k : Kind} {id : Nat} (ha : Config.Sound ⟨h, .none⟩)
    (hk : k ≠ .commons) (has : h.has k id) : h.Live k id := by
  have pos := (ha.has_iff hk).1 has
  rw [ha.holders_eq hk] at pos
  by_cases owned : 0 < Holder.holds h.app k id
  · exact .owned owned
  · have inner : 0 < h.inner k id := by omega
    obtain ⟨k', id', lower, hk', has', refs⟩ := Host.exists_of_inner_pos inner
    exact .held (ha.live_of_has hk' has') refs
termination_by k.rank

theorem Host.Live.has (ha : Config.Sound ⟨h, .none⟩) (live : h.Live k id) (hk : k ≠ .commons) :
    h.has k id := by
  cases live with
  | owned holds =>
    rw [ha.has_iff hk, ha.holders_eq hk]
    omega
  | held live refs => exact ha.has_of_refs refs

/-- **Liveness.** Between operations, a host has what can be reached, and nothing else. -/
theorem Config.Sound.has_iff_live (ha : Config.Sound ⟨h, .none⟩) (hk : k ≠ .commons) :
    h.has k id ↔ h.Live k id :=
  ⟨ha.live_of_has hk, fun live => live.has ha hk⟩

/-- What nobody holds is gone. -/
theorem Config.Sound.gone (ha : Config.Sound ⟨h, .none⟩)
    (none : ∀ k id, k ≠ .commons → Holder.holds h.app k id = 0) (hk : k ≠ .commons) :
    h.has k id = false := by
  have dead : ∀ {k id}, h.Live k id → k = .commons := by
    intro k id live
    induction live with
    | @owned k id holds =>
      by_contra hk
      rw [none k id hk] at holds
      exact Nat.lt_irrefl 0 holds
    | held _ refs ih =>
      rw [ih] at refs
      exact absurd refs (Nat.lt_irrefl 0)
  cases has : h.has k id with
  | false => rfl
  | true => exact absurd (dead (ha.live_of_has hk has)) hk

/-! ### What leaves no trace -/

omit [Holder σ] [Rule σ] in
/-- What an object holds stays, as long as it is there. -/
theorem Host.Since.refs (since : h.Since h') (has : h.has k id) (has' : h'.has k id) :
    h'.refs k id = h.refs k id := by
  -- What an object holds is part of what it was made with.
  cases k with
  | runtime => rfl
  | commons => rfl
  | module =>
    obtain ⟨c, hc⟩ := Option.isSome_iff_exists.1 has
    obtain ⟨c', hc'⟩ := Option.isSome_iff_exists.1 has'
    obtain ⟨d, hd, eq⟩ := since.modules.old id c' (Pool.lt_next_of_get?_eq_some hc) hc'
    simp [Host.refs, Host.module?, hd, hc', eq]
  | inst =>
    obtain ⟨c, hc⟩ := Option.isSome_iff_exists.1 has
    obtain ⟨c', hc'⟩ := Option.isSome_iff_exists.1 has'
    obtain ⟨d, hd, eq⟩ := since.instances.old id c' (Pool.lt_next_of_get?_eq_some hc) hc'
    simp only [Prod.mk.injEq] at eq
    simp [Host.refs, Host.instance?, hd, hc', Instance.refs, eq.1]
  | environment =>
    obtain ⟨c, hc⟩ := Option.isSome_iff_exists.1 has
    obtain ⟨c', hc'⟩ := Option.isSome_iff_exists.1 has'
    obtain ⟨d, hd, eq⟩ := since.environments.old id c' (Pool.lt_next_of_get?_eq_some hc) hc'
    simp only [Prod.mk.injEq] at eq
    simp [Host.refs, hd, hc', Environment.refs, eq.1]
  | block =>
    obtain ⟨c, hc⟩ := Option.isSome_iff_exists.1 has
    obtain ⟨c', hc'⟩ := Option.isSome_iff_exists.1 has'
    obtain ⟨d, hd, rfl⟩ := since.blocks.old id c' (Pool.lt_next_of_get?_eq_some hc) hc'
    simp [Host.refs, hd, hc']
  | runner =>
    obtain ⟨c, hc⟩ := Option.isSome_iff_exists.1 has
    obtain ⟨c', hc'⟩ := Option.isSome_iff_exists.1 has'
    obtain ⟨d, hd, eq⟩ := since.runners.old id c' (Pool.lt_next_of_get?_eq_some hc) hc'
    simp only [Prod.mk.injEq] at eq
    simp [Host.refs, hd, hc', Runner.refs, eq]

/-- Changes among which none renames leave the application as it is. -/
theorem Leads.app {allowed : Effect → Prop} {a b : Config σ} (lead : Leads allowed a b)
    (ha : a.Sound) (denied : ¬ allowed .renames) : b.host.app = a.host.app := by
  refine lead.induct (P := fun c => c.host.app = a.host.app) ha (fun c d _ step same => ?_) rfl
  cases step with
  | app _ _ permit => exact (permit.resolve_right denied).trans same
  | _ => exact same

/-- What an instance at rest is charged for stays as long as no call enters it. -/
theorem Leads.limiter {allowed : Effect → Prop} {a b : Config σ} (lead : Leads allowed a b)
    (ha : a.Sound) (denied : ¬ allowed (.enters id)) {x y : Custody} (before : a.custody? id = some x)
    (free : x.held = none) (after : b.custody? id = some y) :
    y.record.limiter = x.record.limiter := by
  refine (lead.instance_induct (P := fun y => y.held = none ∧ y.record.limiter = x.record.limiter) ha
    (fun _ _ hx => hx) (fun z paid y _ step hz => ?_) before ⟨free, rfl⟩ after).2
  obtain ⟨free, limiter⟩ := hz
  cases step with
  | enter _ _ _ permit => exact absurd permit denied
  | leave held => cases free.symm.trans held
  | run held => cases free.symm.trans held
  | grow held => cases free.symm.trans held
  | manage held => cases free.symm.trans held
  | complete held => cases free.symm.trans held
  | _ => exact ⟨free, limiter⟩

/-- Pools with values under the same numbers that look the same add up to the same. -/
theorem Pool.total_eq_of_alike {α : Type} {p q : Pool α} {f : α → Nat}
    (alike : ∀ id, (q.get? id).isSome ↔ (p.get? id).isSome)
    (same : ∀ id a b, p.get? id = some a → q.get? id = some b → f b = f a) :
    q.total f = p.total f := by
  refine Pool.total_eq_of_get? fun id => ?_
  have alike := alike id
  cases hp : p.get? id with
  | none =>
    cases hq : q.get? id with
    | none => rfl
    | some b => simp [hp, hq] at alike
  | some a =>
    cases hq : q.get? id with
    | none => simp [hp, hq] at alike
    | some b => rw [Option.map_some, Option.map_some, same id a b hp hq]

/-- The application holds as many as it did, and instances are charged for their memories as they
were. -/
structure Host.Unmoved (h h' : Host σ) : Prop where
  holds : Holder.holds h'.app = Holder.holds h.app
  limiter : ∀ id i i', h.instance? id = some i → h'.instance? id = some i' →
    i'.limiter = i.limiter

/-- Where what the application holds and what is in hand is the same before and after, what is there
is the same. By induction on the rank: what is there is held, and what is held from inside is held by
something of a lower rank. -/
theorem Host.Unmoved.has_iff {g : Pending} (unmoved : h.Unmoved h') (since : h.Since h')
    (ha : Config.Sound ⟨h, g⟩) (ha' : Config.Sound ⟨h', g⟩) {k : Kind} {id : Nat}
    (hk : k ≠ .commons) : h'.has k id ↔ h.has k id := by
  -- What holds it comes before it in the order of kinds, so this goes by recursion on that order.
  have inner : 0 < h'.inner k id ↔ 0 < h.inner k id := by
    constructor
    · intro pos
      obtain ⟨k', id', lower, hk', has', refs⟩ := Host.exists_of_inner_pos pos
      have has := (unmoved.has_iff since ha ha' hk').1 has'
      rw [since.refs has has'] at refs
      exact (Host.inner_pos_of_refs refs).1
    · intro pos
      obtain ⟨k', id', lower, hk', has, refs⟩ := Host.exists_of_inner_pos pos
      have has' := (unmoved.has_iff since ha ha' hk').2 has
      rw [← since.refs has has'] at refs
      exact (Host.inner_pos_of_refs refs).1
  have counted : h.holders k id =
      Holder.holds h.app k id + g.pins k id + h.inner k id + g.loaned k id := ha.counted k id hk
  have counted' : h'.holders k id =
      Holder.holds h'.app k id + g.pins k id + h'.inner k id + g.loaned k id := ha'.counted k id hk
  rw [unmoved.holds] at counted'
  rw [ha.has_iff hk, ha'.has_iff hk]
  omega
termination_by k.rank

section

variable {g : Pending} (unmoved : h.Unmoved h') (since : h.Since h') (ha : Config.Sound ⟨h, g⟩)
  (ha' : Config.Sound ⟨h', g⟩)
include unmoved since ha ha'

theorem Host.Unmoved.inner_eq : h'.inner = h.inner := by
  have alike : ∀ k id, k ≠ .commons → (h'.has k id ↔ h.has k id) :=
    fun _ _ => unmoved.has_iff since ha ha'
  -- What is there in both has the same references, and the same things are there.
  have refs : ∀ k j, h.has k j → h'.has k j → h'.refs k j = h.refs k j := fun _ _ => since.refs
  funext k id
  have modules : (h'.modules.total fun c => c.value.refs k id) =
      h.modules.total fun c => c.value.refs k id := by
    refine Pool.total_eq_of_alike (alike .module · (by decide)) fun j c c' hc hc' => ?_
    have same := refs .module j (by simp [has, hc]) (by simp [has, hc'])
    simpa [Host.refs, module?, hc, hc'] using congrFun₂ same k id
  have instances : (h'.instances.total fun c => c.value.refs k id) =
      h.instances.total fun c => c.value.refs k id := by
    refine Pool.total_eq_of_alike (alike .inst · (by decide)) fun j c c' hc hc' => ?_
    have same := refs .inst j (by simp [has, hc]) (by simp [has, hc'])
    simpa [Host.refs, instance?, hc, hc'] using congrFun₂ same k id
  have environments : (h'.environments.total fun e => e.refs k id) =
      h.environments.total fun e => e.refs k id := by
    refine Pool.total_eq_of_alike (alike .environment · (by decide)) fun j e e' he he' => ?_
    have same := refs .environment j (by simp [has, he]) (by simp [has, he'])
    simpa [Host.refs, he, he'] using congrFun₂ same k id
  have blocks : (h'.blocks.total fun b => b.refs k id) = h.blocks.total fun b => b.refs k id := by
    refine Pool.total_eq_of_alike (alike .block · (by decide)) fun j b b' hb hb' => ?_
    have same := refs .block j (by simp [has, hb]) (by simp [has, hb'])
    simpa [Host.refs, hb, hb'] using congrFun₂ same k id
  have runners : (h'.runners.total fun r => r.refs k id) = h.runners.total fun r => r.refs k id := by
    refine Pool.total_eq_of_alike (alike .runner · (by decide)) fun j r r' hr hr' => ?_
    have same := refs .runner j (by simp [has, hr]) (by simp [has, hr'])
    simpa [Host.refs, hr, hr'] using congrFun₂ same k id
  simp only [Host.inner, modules, instances, environments, blocks, runners]

/-- Then everything has as many holders as before. -/
theorem Host.Unmoved.holders_eq {k : Kind} {id : Nat} (hk : k ≠ .commons) :
    h'.holders k id = h.holders k id := by
  have counted : h.holders k id =
      Holder.holds h.app k id + g.pins k id + h.inner k id + g.loaned k id := ha.counted k id hk
  have counted' : h'.holders k id =
      Holder.holds h'.app k id + g.pins k id + h'.inner k id + g.loaned k id := ha'.counted k id hk
  rw [counted, counted', unmoved.holds, unmoved.inner_eq since ha ha']

/-- Then every budget is charged as much as before. -/
theorem Host.Unmoved.inUse_eq (balanced : Config.Balanced ⟨h, g⟩)
    (balanced' : Config.Balanced ⟨h', g⟩) : h'.inUse = h.inUse := by
  have alike : ∀ k id, k ≠ .commons → (h'.has k id ↔ h.has k id) :=
    fun _ _ => unmoved.has_iff since ha ha'
  funext budget
  have modules : (h'.modules.total fun c => c.value.charge budget) =
      h.modules.total fun c => c.value.charge budget := by
    refine Pool.total_eq_of_alike (alike .module · (by decide)) fun id c c' hc hc' => ?_
    obtain ⟨d, hd, eq⟩ := since.modules.old id c' (Pool.lt_next_of_get?_eq_some hc) hc'
    cases hc.symm.trans hd
    rw [eq]
  have instances : (h'.instances.total fun c => c.value.charge budget) =
      h.instances.total fun c => c.value.charge budget := by
    refine Pool.total_eq_of_alike (alike .inst · (by decide)) fun id c c' hc hc' => ?_
    obtain ⟨d, hd, eq⟩ := since.instances.old id c' (Pool.lt_next_of_get?_eq_some hc) hc'
    cases hc.symm.trans hd
    simp only [Prod.mk.injEq] at eq
    have limiter := unmoved.limiter id c.value c'.value (by rw [instance?, hc, Option.map_some])
      (by rw [instance?, hc', Option.map_some])
    rw [Instance.charge, Instance.charge, eq.2.1, eq.2.2, limiter]
  have environments : (h'.environments.total fun e => e.charge budget) =
      h.environments.total fun e => e.charge budget := by
    refine Pool.total_eq_of_alike (alike .environment · (by decide)) fun id e e' he he' => ?_
    obtain ⟨d, hd, eq⟩ := since.environments.old id e' (Pool.lt_next_of_get?_eq_some he) he'
    cases he.symm.trans hd
    simp only [Prod.mk.injEq] at eq
    rw [Environment.charge, Environment.charge, eq.2.1, eq.2.2]
  -- Both balance, so that what is in use is what the objects are charged and what is owed.
  have before : h.inUse budget = h.charged budget + g.debt budget := balanced.charged budget
  have after : h'.inUse budget = h'.charged budget + g.debt budget := balanced'.charged budget
  rw [before, after]
  simp only [Host.charged, modules, instances, environments]

end

/-- Changes that rename nothing and enter nothing that was there leave a host unmoved, if no call is in
flight. -/
theorem Leads.unmoved {allowed : Effect → Prop} {g g' : Pending}
    (lead : Leads allowed ⟨h, g⟩ ⟨h', g'⟩) (ha : Config.Sound ⟨h, g⟩)
    (renames : ¬ allowed .renames) (idle : ∀ id, g.held id = none)
    (enters : ∀ id, h.has .inst id → ¬ allowed (.enters id)) : h.Unmoved h' where
  holds := congrArg Holder.holds (lead.app ha renames)
  limiter := by
    intro id i i' before after
    obtain ⟨c, hc, rfl⟩ := Option.map_eq_some_iff.1 before
    obtain ⟨c', hc', rfl⟩ := Option.map_eq_some_iff.1 after
    exact lead.limiter ha (enters id (by simp [Host.has, hc])) (Config.custody?_of_get? hc) (idle id)
      (Config.custody?_of_get? hc')

/-- **Nothing kept, nothing charged.** Changes that leave nothing in hand, rename nothing and enter
nothing leave all budgets charged as they were. -/
theorem inUse_of_denied {allowed : Effect → Prop} (lead : Leads allowed ⟨h, .none⟩ ⟨h', .none⟩)
    (renames : ¬ allowed .renames) (enters : ∀ id, ¬ allowed (.enters id))
    (ha : Config.Sound ⟨h, .none⟩) (balanced : Config.Balanced ⟨h, .none⟩) :
    h'.inUse = h.inUse := by
  have unmoved := lead.unmoved ha renames (fun _ => rfl) fun id _ => enters id
  exact unmoved.inUse_eq (lead.since ha) ha (lead.sound ha) balanced
    (lead.induct ha (fun _ _ _ step => step.balanced) balanced)

end

end Embedder
