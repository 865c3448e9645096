import Embedder.Proofs.Host.Contents

namespace Embedder

open Wasm (addressBits)

/-!
# Contents that last

A block that is allocated is filled before anybody gets to see it, whatever was at its addresses
before. From then on its values are those that were stored in it last, whatever is stored in other
blocks and whatever other blocks are allocated, until a call gets at the memory.

* `Config.Orderly.housed`, `Config.Orderly.apart`: the blocks of instances at rest.
* `Host.Gains`, `Config.Orderly.gains`: what an allocation comes to.
* `Host.Tells`, `Config.Orderly.tells_array`, `Config.Orderly.tells_value`: what a new block holds.
* `Layout.Expects`, `Host.Tells.expects`: what a block holds later.
-/

-- Powers are those of the core library, whatever else is imported.
attribute [local instance (1100)] instPowNat

variable {σ α β : Type}

/-! ### Blocks of instances at rest -/

section

variable {h t : Host σ} {id : Nat} {b : Block} {m k : Wasm.Memory}

/-- The values of a block depend on the bytes that it spans. -/
theorem Layout.values_congr {l : Layout α} (suits : l.Suits b)
    (same : m.bytesFrom b.start (Host.blockBytes b) = k.bytesFrom b.start (Host.blockBytes b)) :
    l.values b m = l.values b k := by
  have bytes : b.length * l.size = Host.blockBytes b := by
    rw [suits.size]
    rfl
  rw [Layout.values, Layout.values, bytes, same]

variable [Holder σ] [Rule σ]

/-- A block that lies elsewhere stays where it is, with the same bytes. -/
theorem Host.Replaced.elsewhere {a : Nat} {bytes : Bytes} (replaced : h.Replaced id m a bytes t)
    (memory : h.memory? id = some m) (housed : b.Housed h k)
    (away : b.inst = id → a + bytes.length ≤ b.start ∨ b.span.stop ≤ a) :
    ∃ k', b.Housed t k' ∧
      k'.bytesFrom b.start (Host.blockBytes b) = k.bytesFrom b.start (Host.blockBytes b) := by
  obtain ⟨m', changed, memories⟩ := replaced.memory
  have after := memories b.inst
  by_cases own : b.inst = id
  · have same : k = m := by
      rw [← own] at memory
      exact Option.some.inj (housed.memory.symm.trans memory)
    subst same
    rw [if_pos own] at after
    refine ⟨m', ⟨after, changed.size.symm ▸ housed.inside, housed.addressable⟩, ?_⟩
    exact changed.beside _ _ housed.addressable (away own).symm
  · rw [if_neg own] at after
    exact ⟨k, ⟨after.trans housed.memory, housed.inside, housed.addressable⟩, rfl⟩

end

section

variable [Holder σ] [Rule σ] {h : Host σ} {g : Pending} {id j k : Nat} {b c : Block}

/-- The blocks of an instance at rest lie in its memory. -/
theorem Config.Orderly.housed (ha : Config.Orderly ⟨h, g⟩) (present : h.blocks.get? k = some b)
    (quiet : h.Quiet b.inst) : ∃ m, b.Housed h m := by
  obtain ⟨i, s, there, idle⟩ := quiet
  obtain ⟨m, memory, inside, range⟩ := ha.addressable there idle (Config.mem_claims present rfl)
  exact ⟨m, memory, inside, Nat.le_of_lt range⟩

/-- What is claimed of an instance is apart. -/
theorem Config.Orderly.apart (ha : Config.Orderly ⟨h, g⟩) (there : (h.instance? id).isSome)
    {s t : Span} {rest : List Span} (claims : (Config.claims ⟨h, g⟩ id).Perm (s :: t :: rest)) :
    s.Apart t := by
  obtain ⟨i, there⟩ := Option.isSome_iff_exists.1 there
  obtain ⟨c, hc, -⟩ := Option.map_eq_some_iff.1 there
  have custody := Config.custody?_of_get? (c := ⟨h, g⟩) hc
  exact ((ha.backed.backs _ _ custody).perm claims.symm).apart (ha.placed _ _ custody).live_apart

/-- Two blocks of an instance are apart. -/
theorem Config.Orderly.blocks_apart (ha : Config.Orderly ⟨h, g⟩) (ne : j ≠ k)
    (hj : h.blocks.get? j = some b) (hk : h.blocks.get? k = some c) (inst : c.inst = b.inst)
    (quiet : h.Quiet b.inst) : b.span.Apart c.span := by
  obtain ⟨i, -, there, -⟩ := quiet
  have first := Host.owned_erase hj b.inst
  rw [if_pos rfl] at first
  have still : ({ h with blocks := h.blocks.erase j } : Host σ).blocks.get? k = some c := by
    rw [Pool.get?_erase, if_neg (Ne.symm ne)]
    exact hk
  have second := Host.owned_erase still b.inst
  rw [if_pos inst] at second
  have owned := (first.trans (second.cons b.span)).append_left (g.taken b.inst)
  exact ha.apart (by rw [there]; rfl)
    (owned.trans (List.perm_middle.trans (List.perm_middle.cons b.span)))

/-- What has been taken is apart from the blocks that there are. -/
theorem Config.Orderly.taken_apart {s : Span} (ha : Config.Orderly ⟨h, g.take id s⟩)
    (present : h.blocks.get? k = some b) (inst : b.inst = id) (there : (h.instance? id).isSome) :
    s.Apart b.span := by
  have owned := Host.owned_erase present id
  rw [if_pos inst] at owned
  have claims := ((owned.append_left (g.taken id)).trans List.perm_middle).cons s
  have taken : Config.claims ⟨h, g.take id s⟩ id = s :: (g.taken id ++ h.owned id) := by
    simp [Config.claims]
  rw [← taken] at claims
  exact ha.apart there claims

/-! ### Allocations -/

omit [Holder σ] [Rule σ] in
/-- What an allocation comes to: there is a new block, with such bytes, and all others are as they
were. -/
structure Host.Gains (h : Host σ) (id : Nat) (type : GuestType) (count : Option Nat)
    (filled : Bytes → Prop) (j : Nat) (t : Host σ) : Prop where
  made : ∃ b m, t.blocks.get? j = some b ∧ b.inst = id ∧ b.type = type ∧ b.count = count ∧
    b.Housed t m ∧ filled (m.bytesFrom b.start (Host.blockBytes b))
  kept : ∀ k b m, h.blocks.get? k = some b → b.Housed h m → t.blocks.get? k = some b ∧
    ∃ m', b.Housed t m' ∧
      m'.bytesFrom b.start (Host.blockBytes b) = m.bytesFrom b.start (Host.blockBytes b)

/-- A computation that fills every stretch of so many bytes in the memory of an instance. -/
def Host.Fills (id bytes : Nat) (filled : Bytes → Prop) (write : Nat → HostM σ Unit) : Prop :=
  ∀ (t : Host σ) (m : Wasm.Memory) (address : Nat), t.memory? id = some m →
    address + bytes ≤ m.size → address + bytes ≤ 2 ^ addressBits →
    ∃ content u, exec (write address) t = (.ok (), u) ∧ content.length = bytes ∧
      t.Replaced id m address content u ∧ filled content

omit [Holder σ] [Rule σ] in
/-- Bytes are allocated in an app heap only if its store is at rest, and blocks and memories are as
they were. -/
theorem ends_allocBlock_quiet (h : Host σ) (id bytes : Nat) : Ends (HostM.allocBlock id bytes) h
    (fun _ t => h.Quiet id ∧ t.blocks = h.blocks ∧ t.Quiet id ∧ ∀ j, t.memory? j = h.memory? j)
    fun _ t => t = h := by
  unfold HostM.allocBlock
  split
  · exact rfl
  · simp only [ends_bind_iff, ends_pure, ends_store, ends_ofOption, ends_putStore, implies_true,
      and_true]
    intro i there s idle heap present cut fits
    refine ⟨⟨i, s, there, idle⟩, rfl, ?_, fun j => ?_⟩
    · refine ⟨{ i with store := some { s with heap := some cut.2 } }, _, ?_, rfl⟩
      rw [Host.instance?_modifyInstance, if_pos rfl, there]
      rfl
    · rw [Host.memory?, Host.memory?, Host.instance?_modifyInstance]
      split
      case isTrue own =>
        rw [own, there, Option.map_some, Option.bind_some, Option.bind_some, Instance.exported?,
          Instance.exported?, idle]
        rfl
      case isFalse => rfl

/-- What is taken, for a block to come. -/
theorem Config.Orderly.takesBlock (ha : Config.Orderly ⟨h, g⟩) (type : GuestType) (bytes : Nat) :
    Ends (HostM.takeBlock id type bytes) h
      (fun address t => type.isAligned = true ∧ t.blocks = h.blocks ∧ t.Quiet id ∧
        (∀ j, t.memory? j = h.memory? j) ∧ Config.Shared ⟨t, g⟩ id ∧
        Leads (fun _ => True) ⟨h, g⟩ ⟨t, g.take id ⟨address, bytes⟩⟩)
      fun _ t => t = h := by
  unfold HostM.takeBlock
  split
  case isFalse => exact rfl
  case isTrue aligned =>
    have plain := ends_allocBlock_quiet h id bytes
    by_cases quiet : h.Quiet id
    · obtain ⟨i, s, there, idle⟩ := quiet
      have lead : Ends (HostM.allocBlock id bytes) h
          (fun address t => Config.Shared ⟨t, g⟩ id ∧
            Leads (fun _ => True) ⟨h, g⟩ ⟨t, g.take id ⟨address, bytes⟩⟩)
          fun _ t => Leads (fun _ => True) ⟨h, g⟩ ⟨t, g⟩ :=
        ends_allocBlock id bytes (ha.shared (ha.sound.free there idle))
      refine (plain.and lead).mono ?_ fun _ _ failed => failed.1
      rintro address t ⟨⟨-, blocks, rests, memories⟩, shared, lead⟩
      exact ⟨aligned, blocks, rests, memories, shared, lead⟩
    · exact plain.mono (fun _ _ done => absurd done.1 quiet) fun _ _ same => same

omit [Holder σ] [Rule σ] in
/-- A block that has been taken is kept once it is filled. -/
theorem exec_keepBlock {write : HostM σ Unit} {t u : Host σ} (wrote : exec write t = (.ok (), u)) :
    exec (HostM.keepBlock b write) t =
      (.ok u.blocks.next, { u.retainInstance b.inst with blocks := (u.blocks.insert b).1 }) := by
  unfold HostM.keepBlock
  rw [exec_bind, exec_tryCatch, wrote]
  rfl

/-- **Allocations.** An allocation that fails leaves everything as it is. Otherwise there is a new
block, which has been filled, and nothing has happened to the others. -/
theorem Config.Orderly.gains (ha : Config.Orderly ⟨h, g⟩) (id : Nat) (type : GuestType)
    (count : Option Nat) {filled : Bytes → Prop} {write : Nat → HostM σ Unit}
    (fills : Host.Fills id (count.getD 1 * type.size) filled write) :
    Ends (do
        let address ← HostM.takeBlock id type (count.getD 1 * type.size)
        HostM.keepBlock ⟨id, type, count, ⟨address⟩⟩ (write address)) h
      (fun j t => h.Gains id type count filled j t ∧ ∃ g', Config.Orderly ⟨t, g'⟩)
      fun _ t => t = h := by
  refine ends_bind (ha.takesBlock type _) fun address t ⟨aligned, blocks, quiet, memories, shared, lead⟩ => ?_
  obtain ⟨i, s, there, idle⟩ := quiet
  let made : Block := ⟨id, type, count, ⟨address⟩⟩
  have orderly := lead.orderly ha
  have claimed : made.span ∈ Config.claims ⟨t, g.take id made.span⟩ id :=
    List.mem_append_left _ (by simp)
  obtain ⟨m, memory, inside, range⟩ := orderly.addressable there idle claimed
  obtain ⟨content, u, wrote, length, replaced, such⟩ :=
    fills t m address memory inside (Nat.le_of_lt range)
  have kept := exec_keepBlock (b := made) wrote
  have after : ∀ j, Host.memory? ({ u.retainInstance id with blocks := (u.blocks.insert made).1 } : Host σ) j =
      u.memory? j := by
    intro j
    show ((u.retainInstance id).instance? j).bind Instance.exported? = _
    rw [Host.instance?_retainInstance]
    rfl
  have leads : Ends (HostM.keepBlock made (write address)) t
      (fun j t => (t.blocks.get? j).isSome ∧ Leads (fun _ => True) ⟨h, g⟩ ⟨t, g.pin .block j⟩)
      fun _ t => Leads (fun _ => True) ⟨h, g⟩ ⟨t, g⟩ := by
    refine ends_keepBlock aligned trivial shared lead ?_
    unfold Ends
    rw [wrote]
    exact ⟨replaced.alike, replaced.leads⟩
  have ordered := (leads.of_ok kept).2.orderly ha
  unfold Ends
  rw [kept]
  obtain ⟨m', changed, changes⟩ := replaced.memory
  -- The new block is where the bytes were written, and every other one is apart from them.
  refine ⟨⟨?_, fun k b old present housed => ?_⟩, _, ordered⟩
  · have whole : Host.blockBytes made = content.length := length.symm
    refine ⟨made, m', Pool.get?_inserted _ _, rfl, rfl, rfl, ⟨?_, ?_, Nat.le_of_lt range⟩, ?_⟩
    · exact (after id).trans ((changes id).trans (if_pos rfl))
    · exact changed.size.symm ▸ inside
    · rw [whole]
      exact changed.here.symm ▸ such
  · have there' : t.blocks.get? k = some b := blocks ▸ present
    have housed' : b.Housed t old :=
      ⟨(memories b.inst).trans housed.memory, housed.inside, housed.addressable⟩
    have away : b.inst = id → address + content.length ≤ b.start ∨ b.span.stop ≤ address := by
      intro own
      rw [length]
      exact orderly.taken_apart there' own (by rw [there]; rfl)
    obtain ⟨m'', rests, same⟩ := replaced.elsewhere memory housed' away
    have older : k ≠ u.blocks.next := by
      rw [replaced.blocks]
      exact Nat.ne_of_lt (Pool.lt_next_of_get?_eq_some there')
    refine ⟨?_, m'', ⟨(after b.inst).trans rests.memory, rests.inside, rests.addressable⟩, same⟩
    show (u.blocks.insert made).1.get? k = some b
    rw [Pool.get?_insert, if_neg older, replaced.blocks]
    exact there'

/-! ### What a new block holds -/

/-- A block is there, in memory, with these values in its slots. -/
structure Host.Tells (t : Host σ) (k : Nat) (b : Block) (l : Layout α) (ws : List α) : Prop where
  orderly : ∃ g, Config.Orderly ⟨t, g⟩
  present : t.blocks.get? k = some b
  values : ∃ m, b.Housed t m ∧ ws = l.values b m

omit [Holder σ] [Rule σ] in
theorem slots_replicate (size count : Nat) :
    Bytes.slots size count (List.replicate (count * size) 0) =
      List.replicate count (List.replicate size 0) := by
  induction count with
  | zero => rfl
  | succ count ih =>
    rw [Nat.succ_mul, Nat.add_comm (count * size), List.replicate_add, Bytes.slots,
      List.take_left' List.length_replicate, List.drop_left' List.length_replicate, ih,
      List.replicate_succ]

theorem fills_zeroBytes (id bytes : Nat) : Host.Fills id bytes (fun content => content = List.replicate bytes 0)
    fun address => (HostM.zeroBytes id address bytes : HostM σ Unit) := by
  intro t m address memory inside fits
  obtain ⟨u, done, replaced⟩ := exec_zeroBytes_replaced memory inside fits
  exact ⟨_, u, done, List.length_replicate, replaced, rfl⟩

/-- A slot with a value stored in it, whatever was there before. -/
def Layout.Stores (l : Layout α) (v : α) (content : Bytes) : Prop :=
  ∃ slot : Bytes, slot.length = l.size ∧ content = l.store v slot

theorem fills_write (l : Layout α) (id : Nat) (v : α) :
    Host.Fills id l.size (l.Stores v) fun address => (l.write id address v : HostM σ Unit) := by
  intro t m address memory inside fits
  have old := m.length_bytesFrom address l.size
  have length := l.length_store v _ old
  obtain ⟨u, done, replaced⟩ := exec_writeBytes_replaced memory address
    (l.store v (m.bytesFrom address l.size)) (by rwa [length]) (by rwa [length])
  refine ⟨_, u, ?_, length, replaced, _, old, rfl⟩
  simp only [Layout.write, exec_bind, exec_readBytes memory inside]
  exact done

/-- What comes of allocating an array. -/
theorem Config.Orderly.gains_array (ha : Config.Orderly ⟨h, g⟩) (id : Nat) (type : GuestType)
    (count : Nat) :
    Ends (HostM.allocateArray id type count) h
      (fun j t => h.Gains id type (some (HostM.keptCount count))
        (fun content => content = List.replicate (count * type.size) 0) j t ∧
          ∃ g', Config.Orderly ⟨t, g'⟩)
      fun _ t => t = h := by
  unfold HostM.allocateArray
  dsimp only
  split
  · exact rfl
  · rename_i large
    have gains := ha.gains id type (some (HostM.keptCount count))
      (fills_zeroBytes id (HostM.keptCount count * type.size))
    rw [Option.getD_some, keptCount_mul (Nat.lt_of_not_le large)] at gains
    exact gains

/-- What comes of allocating a value. -/
theorem Config.Orderly.gains_value (ha : Config.Orderly ⟨h, g⟩) (l : Layout α) (id : Nat)
    {type : GuestType} (same : l.size = type.size) (v : α) :
    Ends (l.allocate id type v) h
      (fun j t => h.Gains id type none (l.Stores v) j t ∧ ∃ g', Config.Orderly ⟨t, g'⟩)
      fun _ t => t = h := by
  have size : l.size = (none : Option Nat).getD 1 * type.size := by
    rw [Option.getD_none, Nat.one_mul, same]
  have fills : Host.Fills id ((none : Option Nat).getD 1 * type.size) (l.Stores v)
      fun address => (l.write id address v : HostM σ Unit) := size ▸ fills_write l id v
  have gains := ha.gains id type none fills
  rw [← size] at gains
  exact gains

/-- **New arrays.** All values of a new array are loaded from zero bytes, whatever was there before. -/
theorem Config.Orderly.tells_array (ha : Config.Orderly ⟨h, g⟩) {type : GuestType} {count : Nat}
    {t : Host σ} (done : exec (HostM.allocateArray id type count) h = (.ok j, t)) :
    ∃ b, t.blocks.get? j = some b ∧ b.inst = id ∧ b.type = type ∧
      (0 < type.size → b.count = some count) ∧ ∀ {α : Type} (l : Layout α), l.Suits b →
        t.Tells j b l (List.replicate count (l.load (List.replicate l.size 0))) := by
  obtain ⟨⟨⟨b, m, present, inst, own, counted, housed, zeros⟩, -⟩, orderly⟩ :=
    (ha.gains_array id type count).of_ok done
  have kept : 0 < type.size → b.count = some count := fun pos => by
    rw [counted, keptCount_of_pos pos (fits_of_allocateArray done)]
  refine ⟨b, present, inst, own, kept, fun l suits => ?_⟩
  have length : b.length = count := by
    rw [Block.length, kept (own ▸ suits.size ▸ suits.pos), Option.getD_some]
  have values : l.values b m = List.replicate count (l.load (List.replicate l.size 0)) := by
    have whole : b.length * l.size = Host.blockBytes b := by
      rw [suits.size]
      rfl
    rw [Layout.values, whole, zeros, ← own, ← suits.size, length, slots_replicate,
      List.map_replicate]
  exact ⟨orderly, present, m, housed, values.symm⟩

/-- **New values.** A new value is loaded as it was stored. -/
theorem Config.Orderly.tells_value (ha : Config.Orderly ⟨h, g⟩) {type : GuestType} {l : Layout α}
    (same : l.size = type.size) (pos : 0 < l.size) {v : α} (undone : l.Undoes v) {t : Host σ}
    (done : exec (l.allocate id type v) h = (.ok j, t)) :
    ∃ b, t.blocks.get? j = some b ∧ b.inst = id ∧ b.type = type ∧ b.count = none ∧
      t.Tells j b l [v] := by
  obtain ⟨⟨⟨b, m, present, inst, own, counted, housed, slot, length, stored⟩, -⟩, orderly⟩ :=
    (ha.gains_value l id same v).of_ok done
  have suits : l.Suits b := ⟨own.symm ▸ same, pos⟩
  refine ⟨b, present, inst, own, counted, ?_⟩
  have one : b.length = 1 := by rw [Block.length, counted, Option.getD_none]
  have whole : Host.blockBytes b = l.size := by
    rw [suits.size, ← Nat.one_mul b.type.size, ← one]
    rfl
  have values : l.values b m = [v] := by
    rw [whole] at stored
    rw [Layout.values_eq, one, List.range_one, List.map_singleton, Nat.zero_mul, Nat.add_zero,
      stored, undone slot length]
  exact ⟨orderly, present, m, housed, values.symm⟩

/-! ### What a block holds later -/

omit [Holder σ] [Rule σ] in
/-- What a block is expected to hold after any edits, of it and of others, and any allocations. -/
inductive Layout.Expects (l : Layout α) (k : Nat) (b : Block) (h : Host σ) (vs : List α) :
    Host σ → List α → Prop
  | here : Expects l k b h vs h vs
  /-- The block is edited; an edit that does not fit changes nothing. -/
  | edit {t : Host σ} {ws : List α} (e : Edit α) (undone : e.Undone l)
      (before : Expects l k b h vs t ws) : Expects l k b h vs (exec (e.run l b) t).2 (e.apply ws)
  /-- Another block is edited, through whatever layout. -/
  | other {t : Host σ} {ws : List α} {β : Type} (l' : Layout β) (e : Edit β) {j : Nat} {c : Block}
      (ne : j ≠ k) (present : t.blocks.get? j = some c) (suits : l'.Suits c)
      (before : Expects l k b h vs t ws) : Expects l k b h vs (exec (e.run l' c) t).2 ws
  /-- An array is allocated, or it fails. -/
  | array {t : Host σ} {ws : List α} (id : Nat) (type : GuestType) (count : Nat)
      (before : Expects l k b h vs t ws) :
      Expects l k b h vs (exec (HostM.allocateArray id type count) t).2 ws
  /-- A value is allocated, or it fails. -/
  | value {t : Host σ} {ws : List α} {β : Type} (l' : Layout β) (id : Nat) {type : GuestType}
      (same : l'.size = type.size) (v : β) (before : Expects l k b h vs t ws) :
      Expects l k b h vs (exec (l'.allocate id type v) t).2 ws

namespace Host.Tells

variable {t : Host σ} {l : Layout α} {ws : List α} (tells : t.Tells k b l ws) (suits : l.Suits b)
include tells suits

theorem holds : l.Holds b t ws := by
  obtain ⟨m, housed, rfl⟩ := tells.values
  exact Layout.holds_values suits housed

/-- Its values after an edit are those that the edit makes of them. -/
theorem edit (e : Edit α) (undone : e.Undone l) : Host.Tells (exec (e.run l b) t).2 k b l (e.apply ws) := by
  obtain ⟨m, housed, rfl⟩ := tells.values
  by_cases fits : e.Fits b.length
  · obtain ⟨a, bytes, u, done, replaced, low, high, values⟩ := Edit.exec_run suits housed fits
    obtain ⟨g, orderly⟩ := tells.orderly
    obtain ⟨m', changed, memories⟩ := replaced.memory
    rw [done]
    refine ⟨⟨g, (replaced.leads g).orderly orderly⟩, replaced.blocks ▸ tells.present, m', ?_,
      (values m' changed undone).symm⟩
    exact ⟨(memories b.inst).trans (if_pos rfl), changed.size.symm ▸ housed.inside, housed.addressable⟩
  · have misfit : ¬ e.Fits (l.values b m).length := by rwa [Layout.length_values]
    rw [Edit.exec_run_of_misfit l fits, Edit.apply_of_misfit misfit]
    exact tells

/-- They are the same after an edit of another block. -/
theorem other {l' : Layout β} (e : Edit β) (ne : j ≠ k) (present : t.blocks.get? j = some c)
    (suits' : l'.Suits c) : Host.Tells (exec (e.run l' c) t).2 k b l ws := by
  by_cases fits : e.Fits c.length
  case neg =>
    rw [Edit.exec_run_of_misfit l' fits]
    exact tells
  by_cases quiet : t.Quiet c.inst
  case neg =>
    rw [Edit.run_of_not_quiet l' e quiet]
    exact tells
  obtain ⟨m, housed, rfl⟩ := tells.values
  obtain ⟨g, orderly⟩ := tells.orderly
  obtain ⟨m', housed'⟩ := orderly.housed present quiet
  obtain ⟨a, bytes, u, done, replaced, low, high, -⟩ := Edit.exec_run suits' housed' fits
  have away : b.inst = c.inst → a + bytes.length ≤ b.start ∨ b.span.stop ≤ a := by
    intro own
    have apart := orderly.blocks_apart ne present tells.present own quiet
    simp only [Span.Apart, Block.span, Span.stop] at *
    omega
  obtain ⟨k', stays, same⟩ := replaced.elsewhere housed'.memory housed away
  rw [done]
  exact ⟨⟨g, (replaced.leads g).orderly orderly⟩, replaced.blocks ▸ tells.present, k', stays,
    (Layout.values_congr suits same).symm⟩

/-- And so they are after an allocation. -/
theorem gain {x : HostM σ Nat} {id : Nat} {type : GuestType} {count : Option Nat}
    {filled : Bytes → Prop} (gains : ∀ g, Config.Orderly ⟨t, g⟩ →
      Ends x t (fun j u => t.Gains id type count filled j u ∧ ∃ g', Config.Orderly ⟨u, g'⟩)
        fun _ u => u = t) : Host.Tells (exec x t).2 k b l ws := by
  obtain ⟨m, housed, rfl⟩ := tells.values
  obtain ⟨g, orderly⟩ := tells.orderly
  refine Ends.state (P := fun u => u.Tells k b l (l.values b m)) ((gains g orderly).mono ?_ ?_)
  · rintro _ u ⟨gains, orderly⟩
    obtain ⟨present, m', stays, same⟩ := gains.kept k b m tells.present housed
    exact ⟨orderly, present, m', stays, (Layout.values_congr suits same).symm⟩
  · rintro _ u rfl
    exact tells

/-- **Contents last.** A block holds what it is expected to hold. -/
theorem expects {u : Host σ} {us : List α} (expects : l.Expects k b t ws u us) :
    u.Tells k b l us := by
  induction expects with
  | here => exact tells
  | edit e undone _ ih => exact ih.edit suits e undone
  | other l' e ne present suits' _ ih => exact ih.other suits e ne present suits'
  | array id type count _ ih => exact ih.gain suits fun g orderly => orderly.gains_array id type count
  | value l' id same v _ ih => exact ih.gain suits fun g orderly => orderly.gains_value l' id same v

end Host.Tells

end

end Embedder
