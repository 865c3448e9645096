import Mathlib.Data.List.Perm.Subperm
import Embedder.Proofs.Host.Reentrance

namespace Embedder

/-!
# Blocks that are forgotten

A block that is dropped while the store of its instance is away does not go back to the app heap. Its
span stays live, and apart from every block that there is or will be, for as long as the instance is
there.

* `Config.Orderly`: the invariants of blocks and heaps together.
* `Config.Orderly.locked`: an instance whose store is in hand is locked.
* `Config.Reserves`, `Leads.reserves`: a span that nobody owns stays live.
* `Leads.blocks_of_denied`, `Config.Orderly.reserves`: what has become of a block that was owned when
  nobody can have given it back.
* `Host.Forfeits`: what this means for a host between operations.
-/

variable {σ : Type}

/-! ### Fewer claims -/

theorem Backs.of_append {live more claims : List Span} (backs : Backs live (more ++ claims)) :
    Backs live claims := by
  induction more with
  | nil => exact backs
  | cons s more ih => exact ih backs.tail

/-- What backs claims backs fewer of them. -/
theorem Backs.of_subperm {live claims claims' : List Span} (backs : Backs live claims)
    (fewer : claims'.Subperm claims) : Backs live claims' := by
  obtain ⟨some, same, sub⟩ := fewer
  obtain ⟨rest, perm⟩ := sub.exists_perm_append
  exact (backs.perm ((List.perm_append_comm.trans perm.symm))).of_append.perm same.symm

/-- A host that has no blocks of an instance that another one has not, and has lost one of them. -/
theorem Host.owned_subperm {h h' : Host σ} {id j : Nat} {b : Block}
    (older : ∀ k c, h'.blocks.get? k = some c → c.inst = id → h.blocks.get? k = some c)
    (present : h.blocks.get? j = some b) (inst : b.inst = id) (gone : h'.blocks.get? j = none) :
    (b.span :: h'.owned id).Subperm (h.owned id) := by
  -- Numbers tell blocks with the same span apart.
  have entries : ((j, b) :: h'.blocks.table.entries.filter fun e => e.2.inst = id).Subperm
      (h.blocks.table.entries.filter fun e => e.2.inst = id) := by
    refine List.Nodup.subperm ?_ fun e he => ?_
    · refine List.nodup_cons.2 ⟨fun there => ?_, ?_⟩
      · have found := (Table.get?_eq_some_iff h'.blocks.table).2 (List.mem_filter.1 there).1
        cases gone.symm.trans found
      · exact (List.Nodup.of_map _ h'.blocks.table.nodup).filter _
    · refine List.mem_filter.2 ?_
      rcases List.mem_cons.1 he with rfl | he
      · exact ⟨(Table.get?_eq_some_iff h.blocks.table).1 present, by simpa using inst⟩
      · obtain ⟨there, own⟩ := List.mem_filter.1 he
        have found := (Table.get?_eq_some_iff h'.blocks.table).2 there
        exact ⟨(Table.get?_eq_some_iff h.blocks.table).1 (older _ _ found (by simpa using own)), own⟩
  obtain ⟨some, same, sub⟩ := entries
  have owned : ∀ t : Host σ, t.owned id =
      (t.blocks.table.entries.filter fun e => e.2.inst = id).map fun e => e.2.span := by
    intro t
    rw [Host.owned, Pool.values, List.filter_map, List.map_map]
    rfl
  rw [owned, owned]
  exact ⟨some.map fun e => e.2.span, same.map _, sub.map _⟩

section

variable [Holder σ] [Rule σ] {allowed : Effect → Prop} {a b : Config σ} {h : Host σ} {g : Pending}

/-! ### Order -/

/-- Everything is counted, app heaps lie in memories, and blocks have live spans. -/
structure Config.Orderly (c : Config σ) : Prop where
  sound : c.Sound
  placed : ∀ id x, c.custody? id = some x → x.Placed
  backed : c.Backed

theorem Leads.orderly (lead : Leads allowed a b) (ha : a.Orderly) : b.Orderly := by
  obtain ⟨placed, backed⟩ := lead.induct
    (P := fun c => (∀ id x, c.custody? id = some x → x.Placed) ∧ c.Backed) ha.sound
    (fun _ _ sound step h => ⟨step.placed sound h.1, step.backed sound h.1 h.2⟩)
    ⟨ha.placed, ha.backed⟩
  exact ⟨lead.sound ha.sound, placed, backed⟩

/-- An instance whose store a call has in hand is locked. -/
theorem Config.Orderly.locked (ha : Config.Orderly ⟨h, g⟩) {id : Nat} {loan : Loan}
    (held : g.held id = some loan) (ready : loan.ready = true) : h.Locked id := by
  obtain ⟨c, hc⟩ := Option.isSome_iff_exists.1 (ha.sound.present id loan held)
  have there : h.instance? id = some c.value := by
    rw [Host.instance?, show h.instances.get? id = some c from hc]
    rfl
  have custody := Config.custody?_of_get? (c := ⟨h, g⟩) hc
  refine ⟨⟨c.value, there, ((ha.sound.custody _ _ custody).held loan held).1⟩, ?_⟩
  intro j b i block own there'
  cases there.symm.trans there'
  -- A block has a live span, which is in a heap, which is in the exported memory.
  obtain ⟨t, live, -⟩ := (ha.backed.backs _ _ custody).exists_live (Config.mem_claims block own)
  have store := Custody.store?_held (x := ⟨c.value, g.held id, g.taken id⟩) held
  rw [Custody.live, store, Option.map_some, Option.getD_some, Store.live] at live
  cases heap : loan.store.heap with
  | none =>
    rw [heap] at live
    cases live
  | some hp =>
    obtain ⟨memory, m, exported, -⟩ := (ha.placed _ _ custody).placed _ store hp heap
    have known : c.value.memory = _ := (ha.placed _ _ custody).held loan held ready
    rw [known, exported]
    rfl

omit [Rule σ] in
/-- An instance that has a block has another holder than its call. -/
theorem shared_of_block {j : Nat} {b : Block} (present : h.blocks.get? j = some b) :
    Config.Shared ⟨h, g⟩ b.inst := by
  have le := Pool.le_total present fun b' => b'.refs .inst b.inst
  have one : b.refs .inst b.inst = 1 := by simp [Block.refs, Holds.on]
  simp only [Config.Shared, Host.inner]
  omega

/-- An instance in a call that has another holder has two holders at least. -/
theorem Config.Sound.shared_of_held (ha : Config.Sound ⟨h, g⟩) {id : Nat} {loan : Loan}
    (held : g.held id = some loan) (shared : Config.Shared ⟨h, g⟩ id) :
    ∃ c, h.instances.get? id = some c ∧ 1 < c.holders := by
  obtain ⟨c, present⟩ : ∃ c, h.instances.get? id = some c :=
    Option.isSome_iff_exists.1 (ha.present id loan held)
  have others : 0 < Holder.holds h.app .inst id + g.pins .inst id + h.inner .inst id := shared
  have counted := ha.counted .inst id (by simp)
  simp only [Host.holders, Pending.loaned, held, Option.isSome_some, if_true,
    Pool.count_of_get? present] at counted
  exact ⟨c, present, by omega⟩

/-- **Drops.** A block that is dropped while a call has the store of its instance in hand is forgotten,
and its hold on the instance is given up. That is all: no value of it is released, and it is not freed. -/
theorem Config.Orderly.dropBlock (ha : Config.Orderly ⟨h, g⟩) {id j : Nat} {b : Block} {loan : Loan}
    (held : g.held id = some loan) (ready : loan.ready = true) (present : h.blocks.get? j = some b)
    (own : b.inst = id) :
    h.dropBlock j = { h with
      blocks := h.blocks.erase j
      instances := h.instances.modify id fun c => { c with holders := c.holders - 1 } } := by
  obtain ⟨c, there, shared⟩ := ha.sound.shared_of_held held (own ▸ shared_of_block present)
  rw [dropBlock_of_locked (ha.locked held ready) present own]
  exact Host.releaseInstance_of_shared { h with blocks := h.blocks.erase j } there shared

/-! ### Spans that nobody owns -/

/-- A span of an instance's heap is live, as are all that something counts on. -/
def Config.Reserves (c : Config σ) (id : Nat) (s : Span) : Prop :=
  ∀ x, c.custody? id = some x → Backs x.live (s :: c.claims id)

/-- **Reserved spans.** Whatever happens to a host, nothing gives a span back that nobody owns. -/
theorem Change.reserves (step : Change allowed a b) (ha : a.Orderly) {id : Nat} {s : Span}
    (old : id < a.host.instances.next) (reserved : a.Reserves id s) : b.Reserves id s := by
  intro y after
  -- The span counts as one more claim, which nobody can give up.
  cases step.tenure after with
  | still before live same =>
    rw [live]
    exact (reserved _ before).perm (same.cons s)
  | lost before live claims =>
    have backs := reserved _ before
    rw [claims] at backs
    rw [live]
    exact (backs.perm (List.Perm.swap ..)).tail
  | evolve before step owned =>
    have backs := reserved _ before
    have turn := step.turn (ha.sound.custody _ _ before) (ha.placed _ _ before)
    obtain ⟨c, -, rfl⟩ := Option.map_eq_some_iff.1 before
    obtain ⟨d, -, rfl⟩ := Option.map_eq_some_iff.1 after
    rw [Config.claims, owned]
    refine (turn.backs (backs.perm ?_)).perm List.perm_middle.symm
    exact List.perm_middle
  | made fresh => omega

theorem Leads.reserves (lead : Leads allowed a b) (ha : a.Orderly) {id : Nat} {s : Span}
    (old : id < a.host.instances.next) (reserved : a.Reserves id s) : b.Reserves id s := by
  refine (lead.induct (P := fun c => c.Orderly ∧ id < c.host.instances.next ∧ c.Reserves id s)
    ha.sound ?_ ⟨ha, old, reserved⟩).2.2
  rintro c d - step ⟨hc, old, reserved⟩
  exact ⟨(Leads.of_change step).orderly hc, Nat.lt_of_lt_of_le old step.since.instances.next,
    step.reserves hc old reserved⟩

/-! ### Blocks that are gone -/

/-- Where no block of an instance gets an owner, all its blocks are old ones. -/
theorem Leads.blocks_of_denied (lead : Leads allowed a b) (ha : a.Sound) {id : Nat}
    (denied : ¬ allowed (.keeps id)) : ∀ k c, b.host.blocks.get? k = some c → c.inst = id →
      a.host.blocks.get? k = some c := by
  refine lead.induct (P := fun d => ∀ k c, d.host.blocks.get? k = some c → c.inst = id →
    a.host.blocks.get? k = some c) ha ?_ fun _ _ there _ => there
  intro c d _ step ih k b there own
  cases step with
  | @blockMade h g made aligned permit =>
    rw [Pool.get?_insert] at there
    split at there
    · cases there
      exact absurd (own ▸ permit) denied
    · exact ih k b there own
  | blockGone =>
    rw [Pool.get?_erase] at there
    split at there
    · cases there
    · exact ih k b there own
  | _ => exact ih k b there own

/-- The span of a block stays reserved that has lost its owner when no block of the instance got one,
and the heap is as it was. -/
theorem Config.Orderly.reserves {h' : Host σ} (ha : Config.Orderly ⟨h, g⟩)
    (lead : Leads allowed ⟨h, g⟩ ⟨h', g⟩) {j : Nat} {b : Block} {i : Instance} {s s' : Store}
    (denied : ¬ allowed (.keeps b.inst)) (present : h.blocks.get? j = some b)
    (gone : h'.blocks.get? j = none) (there : h.instance? b.inst = some i) (idle : i.store = some s)
    (back : ∀ i', h'.instance? b.inst = some i' → i'.store = some s') (heap : s'.heap = s.heap) :
    Config.Reserves ⟨h', g⟩ b.inst b.span := by
  obtain ⟨c, hc, rfl⟩ := Option.map_eq_some_iff.1 there
  have free := ha.sound.free there idle
  have before := Config.custody?_of_get? (c := ⟨h, g⟩) hc
  -- No block has got an owner meanwhile, so the claims are those of before without this one.
  have older : ∀ k d, h'.blocks.get? k = some d → d.inst = b.inst → h.blocks.get? k = some d :=
    lead.blocks_of_denied ha.sound denied
  intro y custody
  obtain ⟨d, hd, rfl⟩ := Option.map_eq_some_iff.1 custody
  have after : d.value.store = some s' :=
    back d.value (by rw [Host.instance?, show h'.instances.get? b.inst = some d from hd]; rfl)
  have backs := ha.backed.backs b.inst _ before
  rw [Custody.live, Custody.store?_idle free idle, Option.map_some, ← Store.live_congr heap] at backs
  rw [Custody.live, Custody.store?_idle free after, Option.map_some]
  refine backs.of_subperm ?_
  have owned := Host.owned_subperm older present rfl gone
  exact List.perm_middle.symm.subperm.trans ((List.subperm_append_left (g.taken b.inst)).2 owned)

end

/-! ### Between operations -/

/-- The span of a block that is gone is live as long as its instance is there, and no block has any
part of it. -/
def Host.Forfeits (h : Host σ) (b : Block) : Prop :=
  ∀ i s, h.instance? b.inst = some i → i.store = some s →
    (∃ t ∈ s.live, b.span.Fits t) ∧
      ∀ k c, h.blocks.get? k = some c → c.inst = b.inst → b.span.Apart c.span

/-- A span that is reserved is forfeited. -/
theorem Config.Orderly.forfeits [Holder σ] [Rule σ] {h : Host σ} {g : Pending} {b : Block}
    (ha : Config.Orderly ⟨h, g⟩) (reserved : Config.Reserves ⟨h, g⟩ b.inst b.span) :
    h.Forfeits b := by
  intro i s there idle
  obtain ⟨c, hc, rfl⟩ := Option.map_eq_some_iff.1 there
  have custody := Config.custody?_of_get? (c := ⟨h, g⟩) hc
  have free := (ha.sound.custody _ _ custody).free idle
  have backs := reserved _ custody
  refine ⟨?_, fun k d block own => ?_⟩
  · obtain ⟨t, live, fits⟩ := backs.exists_live List.mem_cons_self
    rw [Custody.live, Custody.store?_idle free idle] at live
    exact ⟨t, live, fits⟩
  · have claimed := Config.mem_claims (g := g) block own
    obtain ⟨pre, post, claims⟩ := List.append_of_mem claimed
    rw [claims] at backs
    have both : Backs _ (b.span :: d.span :: (pre ++ post)) :=
      backs.perm (List.perm_middle.symm.cons b.span)
    exact both.apart (ha.placed _ _ custody).live_apart

end Embedder
