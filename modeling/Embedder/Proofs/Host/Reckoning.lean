import Embedder.Proofs.Host.Forfeiture

namespace Embedder

/-!
# What takes up an app heap

The app heap of an instance is taken up by the blocks that have an owner, each in a span of its own
that is as long as the heap makes it, and by the blocks that were forgotten while a call was in
flight. Nothing else is live in it.

* `Config.TakenUp`, `Leads.takenUp`: what is live in an app heap, and that it stays so.
* `Config.Orderly.finds`: a block of an instance at rest is found when it is given back.
* `Config.Tallied`: an instance at rest whose app heap is accounted for.
* `Host.Tallies`, `Host.Tallies.stats`: the same of a host between operations, and in numbers.
* `Host.gone`, `Host.Sheds.tallies`: the blocks that a call has made the heap forget.
-/

variable {σ : Type}

/-! ### Spans that come and go -/

/-- Where the live spans are those that serve the claims, and some more, they stay so. -/
theorem Turn.exact {live taken live' taken' others lost : List Span}
    (turn : Turn live taken live' taken')
    (exact : live.Perm ((taken ++ others).map Span.served ++ lost)) :
    live'.Perm ((taken' ++ others).map Span.served ++ lost) := by
  cases turn with
  | same => exact exact
  | alloc fits perm => exact perm.trans (exact.cons _)
  | @free _ _ s t start perm distinct =>
    -- No two live spans start at one address, so the span that goes is the one that served.
    have both : s.served ∈ live := exact.symm.mem_iff.1 (by simp)
    have same : t = s.served :=
      List.inj_on_of_nodup_map distinct (perm.symm.mem_iff.1 (by simp)) both start
    rw [same] at perm
    exact (perm.symm.trans exact).cons_inv

/-- What is found goes back to the heap. -/
theorem Host.freeBlock_of_found {h : Host σ} {id address size : Nat} {i : Instance} {store : Store}
    {heap heap' : Heap} (there : h.instance? id = some i) (idle : i.store = some store)
    (present : store.heap = some heap) (found : heap.free? address = some (size, heap')) :
    h.freeBlock id address =
      h.modifyInstance id fun i => { i with store := some { store with heap := some heap' } } := by
  rw [Host.freeBlock, there, Option.bind_some, idle]
  simp only [present, Option.bind_some, found]

section

variable [Holder σ] [Rule σ] {allowed : Effect → Prop} {a b : Config σ} {h h' : Host σ} {g : Pending}
  {id : Nat} {lost : List Span}

/-! ### An instance at rest -/

/-- What is claimed of an instance at rest is backed by a live span of its app heap, which lies in the
instance's memory. -/
theorem Config.Orderly.backing (ha : Config.Orderly ⟨h, g⟩) {i : Instance} {store : Store} {s : Span}
    (there : h.instance? id = some i) (idle : i.store = some store)
    (claimed : s ∈ Config.claims ⟨h, g⟩ id) :
    ∃ heap t m, store.heap = some heap ∧ t ∈ heap.live ∧ s.Fits t ∧ heap.Inside m.size ∧
      h.memory? id = some m := by
  have free := ha.sound.free there idle
  obtain ⟨c, hc, rfl⟩ := Option.map_eq_some_iff.1 there
  have custody := Config.custody?_of_get? (c := ⟨h, g⟩) hc
  have here := Custody.store?_idle (x := ⟨c.value, g.held id, g.taken id⟩) free idle
  obtain ⟨t, live, fits⟩ := (ha.backed.backs _ _ custody).exists_live claimed
  rw [Custody.live, here, Option.map_some, Option.getD_some, Store.live] at live
  cases present : store.heap with
  | none =>
    rw [present] at live
    cases live
  | some heap =>
    rw [present, Option.map_some, Option.getD_some] at live
    have placed := ha.placed _ _ custody
    obtain ⟨memory, m, exported, found, inside⟩ := placed.placed store here heap present
    have number : c.value.memory = some memory := (placed.idle store idle).trans exported
    refine ⟨heap, t, m, rfl, live, fits, inside, ?_⟩
    simp only [Host.memory?, there, Option.bind_some, Instance.exported?, idle, number, found,
      Option.bind_eq_bind]

/-- What is claimed of an instance at rest lies in its memory, below the last address. -/
theorem Config.Orderly.addressable (ha : Config.Orderly ⟨h, g⟩) {i : Instance} {store : Store}
    {s : Span} (there : h.instance? id = some i) (idle : i.store = some store)
    (claimed : s ∈ Config.claims ⟨h, g⟩ id) :
    ∃ m, h.memory? id = some m ∧ s.stop ≤ m.size ∧ s.stop < addressRange := by
  obtain ⟨heap, t, m, -, live, ⟨start, size⟩, inside, memory⟩ := ha.backing there idle claimed
  obtain ⟨before, count, region, within⟩ := inside.pages
  have block := inside.tiled.live_block t live
  have pos := block.pos
  have base := block.base_le
  have stop := block.stop_le
  obtain ⟨base_eq, capacity_eq⟩ := Prod.mk.inj region
  have last := @Heap.inside_ofPages before count (t.stop - 1)
  refine ⟨m, memory, ?_⟩
  simp only [Span.stop] at *
  omega

/-- What is claimed of an instance at rest lies in its memory. -/
theorem Config.Orderly.inside (ha : Config.Orderly ⟨h, g⟩) {i : Instance} {store : Store} {s : Span}
    (there : h.instance? id = some i) (idle : i.store = some store)
    (claimed : s ∈ Config.claims ⟨h, g⟩ id) :
    ∃ m, h.memory? id = some m ∧ s.stop ≤ m.size := by
  obtain ⟨m, memory, within, -⟩ := ha.addressable there idle claimed
  exact ⟨m, memory, within⟩

/-- What is claimed of an instance at rest is found when it is given back. -/
theorem Config.Orderly.finds (ha : Config.Orderly ⟨h, g⟩) {i : Instance} {store : Store} {s : Span}
    (there : h.instance? id = some i) (idle : i.store = some store)
    (claimed : s ∈ Config.claims ⟨h, g⟩ id) :
    0 < s.start ∧ ∃ heap size heap', store.heap = some heap ∧
      heap.free? s.start = some (size, heap') ∧ s.size ≤ size ∧
        heap.live.length = heap'.live.length + 1 := by
  obtain ⟨heap, t, m, present, live, ⟨start, size⟩, inside, -⟩ := ha.backing there idle claimed
  refine ⟨start ▸ (inside.tiled.live_block t live).start_pos, heap, ?_⟩
  cases removed : Heap.removeSpan s.start heap.live with
  | none => exact absurd start (Heap.removeSpan_eq_none_iff.1 removed t live)
  | some found =>
    obtain ⟨u, rest⟩ := found
    have perm := Heap.removeSpan_perm removed
    -- It is the span that backs the claim, the only one to start there.
    have same : u = t := List.inj_on_of_nodup_map inside.tiled.nodup_starts
      (perm.symm.mem_iff.1 (by simp)) live ((Heap.removeSpan_eq_some removed).1.trans start.symm)
    refine ⟨u.size, { heap with free := Heap.coalesce u heap.free, live := rest }, present, ?_,
      same ▸ size, perm.length_eq⟩
    simp only [Heap.free?, removed, Option.bind_eq_bind, Option.bind_some, Option.pure_def]

/-- The live spans of an instance at rest are those that serve what is claimed of it, and these. -/
def Config.TakenUp (c : Config σ) (id : Nat) (lost : List Span) : Prop :=
  ∀ x, c.custody? id = some x →
    x.held = none ∧ x.live.Perm ((c.claims id).map Span.served ++ lost)

/-- **App heaps.** Whatever happens to a host, the app heap of an instance stays taken up in the same
way as long as no call enters the instance. -/
theorem Change.takenUp (step : Change allowed a b) (ha : a.Orderly)
    (old : id < a.host.instances.next) (denied : ¬ allowed (.enters id))
    (taken : a.TakenUp id lost) : b.TakenUp id lost := by
  intro y after
  have rests : ∀ x, a.custody? id = some x → y.held = none := fun x before =>
    (Leads.of_change step).instance_induct (P := fun y => y.held = none) ha.sound
      (fun _ _ free => free) (fun z paid y _ step free => by
        cases step with
        | enter _ _ _ permit => exact absurd permit denied
        | leave => rfl
        | complete => rfl
        | run held => cases free.symm.trans held
        | grow held => cases free.symm.trans held
        | manage held => cases free.symm.trans held
        | _ => exact free) before (taken x before).1 after
  cases step.tenure after with
  | still before live same =>
    refine ⟨rests _ before, ?_⟩
    rw [live]
    exact (taken _ before).2.trans ((same.map Span.served).symm.append_right lost)
  | @lost x s before live claims stays =>
    -- The instance is at rest, so what is given back is found.
    obtain ⟨free, -⟩ := taken x before
    obtain ⟨c, hc, rfl⟩ := Option.map_eq_some_iff.1 before
    obtain ⟨store, idle⟩ :=
      Option.isSome_iff_exists.1 ((ha.sound.custody _ _ before).idle free)
    have there : a.host.instance? id = some c.value := by rw [Host.instance?, hc, Option.map_some]
    obtain ⟨pos, heap, size, heap', here, found, -, shorter⟩ :=
      ha.finds there idle (claims ▸ List.mem_cons_self)
    rcases stays with zero | stays
    · exact absurd zero (Nat.ne_of_gt pos)
    · exfalso
      rw [Host.freeBlock_of_found there idle here found] at stays
      have returned := congrArg (fun k : Host σ => k.heap? id) stays
      simp only [Host.heap?, Host.instance?_modifyInstance, if_true, there, Option.map_some,
        Option.bind_some] at returned
      change some heap' = c.value.store.bind Store.heap at returned
      rw [show c.value.store = some store from idle, Option.bind_some, here] at returned
      cases returned
      omega
  | evolve before step owned =>
    refine ⟨rests _ before, ?_⟩
    have turn := step.turn (ha.sound.custody _ _ before) (ha.placed _ _ before)
    have exact := (taken _ before).2
    obtain ⟨c, -, rfl⟩ := Option.map_eq_some_iff.1 before
    obtain ⟨d, -, rfl⟩ := Option.map_eq_some_iff.1 after
    rw [Config.claims, owned]
    exact turn.exact exact
  | made fresh => omega

/-- Whatever enters no guest of an instance leaves its heap accounted for, by induction on the
changes. -/
theorem Leads.takenUp (lead : Leads allowed a b) (ha : a.Orderly)
    (old : id < a.host.instances.next) (denied : ¬ allowed (.enters id))
    (taken : a.TakenUp id lost) : b.TakenUp id lost := by
  refine (lead.induct (P := fun c => c.Orderly ∧ id < c.host.instances.next ∧ c.TakenUp id lost)
    ha.sound ?_ ⟨ha, old, taken⟩).2.2
  rintro c d - step ⟨hc, old, taken⟩
  exact ⟨(Leads.of_change step).orderly hc, Nat.lt_of_lt_of_le old step.since.instances.next,
    step.takenUp hc old denied taken⟩

/-- An instance at rest is accounted for: what is live in its app heap is known. -/
structure Config.Tallied (c : Config σ) (id : Nat) (lost : List Span) : Prop where
  orderly : c.Orderly
  chained : c.Chained
  old : id < c.host.instances.next
  takenUp : c.TakenUp id lost

/-- What enters no guest of an instance. -/
def Avoids (id : Nat) (e : Effect) : Prop :=
  e ≠ .enters id

/-- So an instance stays accounted for. -/
theorem Config.Tallied.leads (tallied : a.Tallied id lost) (lead : Leads (Avoids id) a b) :
    b.Tallied id lost where
  orderly := lead.orderly tallied.orderly
  chained := lead.induct tallied.orderly.sound (fun _ _ _ step => step.chained) tallied.chained
  old := Nat.lt_of_lt_of_le tallied.old (lead.since tallied.orderly.sound).instances.next
  takenUp := lead.takenUp tallied.orderly tallied.old (fun avoids => avoids rfl) tallied.takenUp

/-- No call is in flight on an instance that is accounted for. -/
theorem Config.Tallied.free (tallied : a.Tallied id lost) : a.pending.held id = none := by
  by_contra held
  obtain ⟨loan, held⟩ := Option.ne_none_iff_exists'.1 held
  obtain ⟨c, hc⟩ := Option.isSome_iff_exists.1 (tallied.orderly.sound.present id loan held)
  cases held.symm.trans (tallied.takenUp _ (Config.custody?_of_get? hc)).1

end

/-! ### Between operations -/

section

variable {h h' : Host σ} {g : Pending} {id : Nat} {lost : List Span}

/-- The blocks of an instance. -/
def Host.blocksOf (h : Host σ) (id : Nat) : List Block :=
  h.blocks.values.filter fun b => b.inst = id

/-- What is live in the app heap of an instance at rest are the spans that serve its blocks, and
these. -/
def Host.Tallies (h : Host σ) (id : Nat) (lost : List Span) : Prop :=
  ∀ i s, h.instance? id = some i → i.store = some s →
    s.live.Perm ((h.blocksOf id).map (fun b => b.span.served) ++ lost)

/-- The spans that an instance owns are those of its blocks. -/
theorem Host.owned_eq (h : Host σ) (id : Nat) :
    (h.owned id).map Span.served = (h.blocksOf id).map fun b => b.span.served :=
  List.map_map

/-- Where no block is in hand, to be taken up by some spans is to be so in the host. -/
theorem Config.TakenUp.tallies (taken : Config.TakenUp ⟨h, g⟩ id lost) (none : g.taken id = []) :
    h.Tallies id lost := by
  intro i s there idle
  obtain ⟨c, hc, rfl⟩ := Option.map_eq_some_iff.1 there
  obtain ⟨free, exact⟩ := taken _ (Config.custody?_of_get? hc)
  rw [Custody.live, Custody.store?_idle free idle, Option.map_some, Option.getD_some, Config.claims,
    none, List.nil_append, Host.owned_eq] at exact
  exact exact

/-- Where no block is in hand, what tallies is taken up. -/
theorem Host.Tallies.takenUp [Holder σ] [Rule σ] (tallies : h.Tallies id lost) (ha : Config.Sound ⟨h, g⟩)
    (free : g.held id = .none) (none : g.taken id = []) : Config.TakenUp ⟨h, g⟩ id lost := by
  intro x custody
  obtain ⟨c, hc, rfl⟩ := Option.map_eq_some_iff.1 custody
  refine ⟨free, ?_⟩
  obtain ⟨s, idle⟩ := Option.isSome_iff_exists.1 ((ha.custody _ _ custody).idle free)
  have exact := tallies c.value s (by rw [Host.instance?, hc, Option.map_some]) idle
  rw [Custody.live, Custody.store?_idle free idle, Option.map_some, Option.getD_some, Config.claims]
  show s.live.Perm ((g.taken id ++ h.owned id).map Span.served ++ lost)
  rw [none, List.nil_append, Host.owned_eq]
  exact exact

/-- The statistics of an app heap that is there can be told. -/
theorem exec_heapStats {heap : Heap} (present : h.heap? id = some heap) :
    exec (HostM.heapStats id) h = (.ok (some heap.stats), h) := by
  obtain ⟨s, found, here⟩ := Option.bind_eq_some_iff.1 present
  obtain ⟨i, there, idle⟩ := Option.bind_eq_some_iff.1 found
  have look : exec (get : HostM σ (Host σ)) h = (.ok h, h) := rfl
  simp only [HostM.heapStats, HostM.store, HostM.inst, exec_bind, look, there, idle, exec_ofOption,
    here]
  rfl

/-- **Statistics.** The app heap says how many blocks there are and how many were forgotten, and how
many bytes they take. -/
theorem Host.Tallies.stats (tallies : h.Tallies id lost) {heap : Heap}
    (present : h.heap? id = some heap) :
    heap.stats.live = (h.blocksOf id).length + lost.length ∧
      heap.stats.used = ((h.blocksOf id).map fun b => b.span.served.size).sum +
        (lost.map Span.size).sum := by
  obtain ⟨s, found, here⟩ := Option.bind_eq_some_iff.1 present
  obtain ⟨i, there, idle⟩ := Option.bind_eq_some_iff.1 found
  have exact := tallies i s there idle
  rw [Store.live, here, Option.map_some, Option.getD_some] at exact
  constructor
  · have length := exact.length_eq
    rw [List.length_append, List.length_map] at length
    exact length
  · have sum := (exact.map Span.size).sum_eq
    rw [List.map_append, List.sum_append, List.map_map] at sum
    exact sum

/-- What is live in the app heap of an instance that is accounted for, between operations. -/
theorem Config.Tallied.tallies [Holder σ] [Rule σ] (tallied : Config.Tallied ⟨h, g⟩ id lost)
    (none : g.taken id = []) : h.Tallies id lost :=
  tallied.takenUp.tallies none

/-! ### Blocks that are forgotten -/

/-- The blocks of an instance that another host has no more. -/
def Host.gone (h h' : Host σ) (id : Nat) : List Block :=
  (h.blocks.lost h'.blocks).filter fun b => b.inst = id

/-- No block of an instance has come, and its app heap is as it was. -/
structure Host.Sheds (h h' : Host σ) (id : Nat) : Prop where
  older : ∀ j b, h'.blocks.get? j = some b → b.inst = id → h.blocks.get? j = some b
  heap : ∀ i' s', h'.instance? id = some i' → i'.store = some s' →
    ∃ i s, h.instance? id = some i ∧ i.store = some s ∧ s'.heap = s.heap

namespace Host.Sheds

theorem refl (h : Host σ) (id : Nat) : h.Sheds h id :=
  ⟨fun _ _ there _ => there, fun i s there idle => ⟨i, s, there, idle, rfl⟩⟩

/-- What is shed at every step is shed in all. -/
theorem trans {h'' : Host σ} (first : h.Sheds h' id) (second : h'.Sheds h'' id) :
    h.Sheds h'' id where
  older j b there own := first.older j b (second.older j b there own) own
  heap := by
    intro i'' s'' there idle
    obtain ⟨i', s', there', idle', same'⟩ := second.heap i'' s'' there idle
    obtain ⟨i, s, there'', idle'', same⟩ := first.heap i' s' there' idle'
    exact ⟨i, s, there'', idle'', same'.trans same⟩

/-- The blocks that are gone have been forgotten: their spans stay live. -/
theorem tallies (sheds : h.Sheds h' id) (since : h.Since h') (tallies : h.Tallies id lost) :
    h'.Tallies id ((h.gone h' id).map (fun b => b.span.served) ++ lost) := by
  intro i' s' there' idle'
  obtain ⟨i, s, there, idle, heap⟩ := sheds.heap i' s' there' idle'
  have same : ∀ j b c, h.blocks.get? j = some b → h'.blocks.get? j = some c → b = c := by
    intro j b c before after
    obtain ⟨d, hd, eq⟩ := since.blocks.old j c (Pool.lt_next_of_get?_eq_some before) after
    exact (Option.some.inj (before.symm.trans hd)).trans eq
  have split : (h.blocksOf id).Perm (h'.blocksOf id ++ h.gone h' id) :=
    Pool.values_lost same fun j b there own => sheds.older j b there (of_decide_eq_true own)
  have moved := (split.map fun b => b.span.served).append_right lost
  rw [List.map_append, List.append_assoc] at moved
  rw [Store.live_congr heap]
  exact (tallies i s there idle).trans moved

end Host.Sheds

/-- What leads to a host that has shed blocks keeps account of them. -/
theorem Config.Tallied.shed [Holder σ] [Rule σ] {allowed : Effect → Prop}
    (tallied : Config.Tallied ⟨h, g⟩ id lost) (none : g.taken id = [])
    (lead : Leads allowed ⟨h, g⟩ ⟨h', g⟩) (sheds : h.Sheds h' id) :
    Config.Tallied ⟨h', g⟩ id ((h.gone h' id).map (fun b => b.span.served) ++ lost) where
  orderly := lead.orderly tallied.orderly
  chained := lead.induct tallied.orderly.sound (fun _ _ _ step => step.chained) tallied.chained
  old := Nat.lt_of_lt_of_le tallied.old (lead.since tallied.orderly.sound).instances.next
  takenUp := (sheds.tallies (lead.since tallied.orderly.sound) (tallied.tallies none)).takenUp
    (lead.orderly tallied.orderly).sound tallied.free none

/-- Where every block is there still, none is gone. -/
theorem Host.gone_of_same (same : ∀ j, h'.blocks.get? j = h.blocks.get? j) (id : Nat) :
    h.gone h' id = [] := by
  have all : h.blocks.lost h'.blocks = [] := by
    simp only [Pool.lost, List.map_eq_nil_iff, List.filter_eq_nil_iff, same]
    intro e member
    simp [(Table.get?_eq_some_iff h.blocks.table).2 member, Pool.get?]
  rw [gone, all, List.filter_nil]

end

end Embedder
