import Embedder.Proofs.Session.Elements
import Mathlib.Tactic.IntervalCases

namespace Embedder

open Session (Passes Step empty hookedPrinter passes_runWith runWith stepWith traced_of_any)

/-!
# Guest types that blocks can have

A type of plain data comes with a size and an alignment. An alignment that the app heap cannot give is
refused before anything is taken, and so are more elements than there are addresses. What is allocated
is aligned, and as long as a type's slots are not empty, every later operation on a block finds as many
slots as the block has elements, or else that a call is in flight. That slots are not empty is nowhere
checked: a block for values of no bytes is allocated, and then it panics.

* `GuestType.Placeable`, `GuestType.placeable_iff`: the alignments that there are.
* `exec_takeBlock_of_not_placeable`, `exec_allocateArray_of_large`: what is refused.
* `Block.Serves`, `Block.TurnsAway`, `Block.Panics`: the operations on a block, while its instance is
  at rest and while it is not, and those on a block with empty slots.
* `Session.Shapes`, `shapes_of_passes`: what holds between any two operations of a session.
-/

-- Powers are those of the core library, whatever else is imported.
attribute [local instance (1100)] instPowNat

/-! ### Alignments -/

/-- An alignment that blocks can have: a power of two up to the unit of the heap. -/
def GuestType.Placeable (t : GuestType) : Prop :=
  t.align.isPowerOfTwo ∧ t.align ≤ blockAlign

/-- A type can be placed just if its alignment is one that heaps serve; its size is not asked
for. -/
theorem GuestType.placeable_iff {t : GuestType} : t.Placeable ↔ t.isAligned := by
  simp only [Placeable, isAligned, Bool.or_eq_true, decide_eq_true_eq]
  constructor
  · rintro ⟨⟨k, power⟩, le⟩
    -- The bound leaves four powers, and these are the alignments that are checked for.
    have small : k ≤ 3 :=
      (Nat.pow_le_pow_iff_right (show 1 < 2 by decide)).1 (power ▸ le : 2 ^ k ≤ 2 ^ (3 : Nat))
    rw [power]
    interval_cases k <;> decide
  · rintro (((e | e) | e) | e) <;> rw [e]
    · exact ⟨⟨0, rfl⟩, by decide⟩
    · exact ⟨⟨1, rfl⟩, by decide⟩
    · exact ⟨⟨2, rfl⟩, by decide⟩
    · exact ⟨⟨3, rfl⟩, by decide⟩

/-! ### What is refused -/

/-- An error that tells why no block was allocated. -/
def Error.IsAllocation (e : Error) : Prop :=
  ∃ requested reason, e = .allocation requested reason

section

variable {σ α : Type} {t : GuestType} (id count : Nat) (h : Host σ)

/-- A type of another alignment is refused, and nothing changes. -/
theorem exec_takeBlock_of_not_placeable (unplaceable : ¬ t.Placeable) (bytes : Nat) :
    exec (HostM.takeBlock id t bytes) h = (.error (.allocation bytes (.badAlignment t.align)), h) := by
  have crooked : ¬ t.isAligned := fun aligned => unplaceable (GuestType.placeable_iff.2 aligned)
  rw [HostM.takeBlock, if_neg crooked]
  rfl

/-- No value is allocated with an alignment that blocks cannot have. -/
theorem Layout.exec_allocate_of_not_placeable (unplaceable : ¬ t.Placeable) (l : Layout α) (v : α) :
    exec (l.allocate id t v) h = (.error (.allocation l.size (.badAlignment t.align)), h) := by
  simp only [Layout.allocate, exec_bind, exec_takeBlock_of_not_placeable id h unplaceable]

/-- No array is allocated with an alignment that blocks cannot have. -/
theorem exec_allocateArray_of_not_placeable (unplaceable : ¬ t.Placeable) :
    ∃ e : Error, e.IsAllocation ∧ exec (HostM.allocateArray id t count) h = (.error e, h) := by
  by_cases large : addressRange ≤ count * t.size
  · exact ⟨_, ⟨_, _, rfl⟩, exec_allocateArray_of_large large⟩
  · refine ⟨_, ⟨count * t.size, .badAlignment t.align, rfl⟩, ?_⟩
    unfold HostM.allocateArray
    dsimp only
    rw [if_neg large]
    simp only [exec_bind, exec_takeBlock_of_not_placeable id h unplaceable]

end

/-! ### Operations on a block -/

section

variable {σ α : Type}

/-- What a block does while its instance is at rest, seen through a layout: it is read as so many
values, overwritten by as many and by no other number, and disposed of slot by slot. Nothing
panics. -/
structure Block.Serves (b : Block) (k : Nat) (h : Host σ) (l : Layout α) : Prop where
  reads : ∃ vs, exec (l.toList b) h = (.ok (.returns vs), h) ∧ vs.length = b.length
  writes : ∀ vs, vs.length = b.length → (exec (l.copyFrom b vs) h).1 = .ok (.returns ())
  misfits : ∀ vs, vs.length ≠ b.length →
    exec (l.copyFrom b vs) h = (.error (.sizeMismatch b.length vs.length), h)
  drops : h.dropPanics k = false ∧
    ∃ i store, h.instance? b.inst = some i ∧ i.store = some store ∧ h.Disposes k b store

/-- What a block does while a call is in flight on its instance: it turns everything away, and is
forgotten when it is dropped. -/
structure Block.TurnsAway (b : Block) (k : Nat) (h : Host σ) (l : Layout α) : Prop where
  reads : exec (l.toList b) h = (.error .busy, h)
  writes : ∀ vs, vs.length = b.length → exec (l.copyFrom b vs) h = (.error .busy, h)
  misfits : ∀ vs, vs.length ≠ b.length →
    exec (l.copyFrom b vs) h = (.error (.sizeMismatch b.length vs.length), h)
  drops : h.dropPanics k = false ∧
    h.dropBlock k = ({ h with blocks := h.blocks.erase k } : Host σ).releaseInstance b.inst

/-- What an array with empty slots does while its instance is at rest: it panics, and leaves the host
as it was. -/
structure Block.Panics (b : Block) (k : Nat) (h : Host σ) (l : Layout α) : Prop where
  reads : exec (l.toList b) h = (.ok (.panics Bytes.emptySlots), h)
  writes : ∀ vs, vs.length = b.length →
    exec (l.copyFrom b vs) h = (.ok (.panics Bytes.emptySlots), h)
  drops : h.dropPanics k = true

variable [Holder σ] [Rule σ] {h : Host σ} {g : Pending} {k : Nat} {b : Block}

/-- A block whose instance is at rest serves every access. -/
theorem Config.Orderly.serves (ha : Config.Orderly ⟨h, g⟩) (present : h.blocks.get? k = some b)
    (quiet : h.Quiet b.inst) {l : Layout α} (suits : l.Suits b) : b.Serves k h l := by
  obtain ⟨m, housed⟩ := ha.housed present quiet
  have holds := Layout.holds_values suits housed
  refine ⟨⟨_, holds.list, holds.length⟩, fun vs same => ?_, fun vs other => ?_, ?_⟩
  · obtain ⟨a, bytes, t, done, -⟩ := Edit.exec_run (e := .copyFrom vs) suits housed same
    exact congrArg Prod.fst done
  · exact Edit.exec_run_of_misfit (e := .copyFrom vs) l other h
  · obtain ⟨i, store, there, idle⟩ := quiet
    have pos : 0 < b.type.size := suits.size ▸ suits.pos
    exact ⟨ha.dropPanics_of_pos present there idle pos, i, store, there, idle,
      ha.disposes present there idle pos⟩

omit [Holder σ] [Rule σ] in
/-- A block whose instance is in a call turns every access away. -/
theorem Host.Locked.turnsAway (locked : h.Locked b.inst) (present : h.blocks.get? k = some b)
    {l : Layout α} (suits : l.Suits b) : b.TurnsAway k h l := by
  refine ⟨?_, fun vs same => ?_, fun vs other => ?_, dropPanics_of_locked locked present rfl,
    dropBlock_of_locked locked present rfl⟩
  · simp only [Layout.toList, exec_bind, exec_readBytes_of_locked locked present rfl]
  · rw [Layout.copyFrom, if_neg (not_not_intro same), Layout.row_of_pos suits.pos]
    simp only [Attempt.andThen, exec_bind, exec_writeBytes_of_locked locked present rfl]
  · exact Edit.exec_run_of_misfit (e := .copyFrom vs) l other h

/-- Nothing is found where slots are empty: cutting the array panics before it is looked at, or
right after. -/
theorem Config.Orderly.panics (ha : Config.Orderly ⟨h, g⟩) (present : h.blocks.get? k = some b)
    (quiet : h.Quiet b.inst) {count : Nat} (counted : b.count = some count)
    (empty : b.type.size = 0) {l : Layout α} (size : l.size = 0) : b.Panics k h l := by
  obtain ⟨i, store, there, idle⟩ := quiet
  have claimed := Config.mem_claims (g := g) present rfl
  obtain ⟨start, -⟩ := ha.finds there idle claimed
  obtain ⟨m, memory, within⟩ := ha.inside there idle claimed
  refine ⟨?_, fun vs same => ?_, ?_⟩
  · have inside : b.start + b.length * l.size ≤ m.size := by
      rw [size, ← empty]
      exact within
    simp only [Layout.toList, exec_bind, exec_readBytes memory inside]
    rw [size, Bytes.chunks_zero]
    rfl
  · rw [Layout.copyFrom, if_neg (not_not_intro same), Layout.row, size, Bytes.chunks_zero]
    rfl
  -- A drop reads the bytes first, which are inside the memory, and then cuts them.
  · have read := exec_readBytes (n := Host.blockBytes b) memory within
    change (HostM.readBytes b.inst b.address.value (Host.blockBytes b)).run h = _ at read
    have own : b.address.isNull = false := decide_eq_false (Nat.ne_of_gt start)
    rw [Host.dropPanics, present, Option.any_some, own, Host.releasedSlots, read]
    simp only [Host.blockSlots, counted, empty, Bytes.chunks_zero]
    rfl

/-- The instance of a block is at rest, or its store is in hand. -/
theorem Config.Orderly.quiet_or_held (ha : Config.Orderly ⟨h, g⟩)
    (present : h.blocks.get? k = some b) :
    h.Quiet b.inst ∨ ∃ loan, g.held b.inst = some loan := by
  have refs : 0 < h.refs .block k .inst b.inst := by
    simp [Host.refs, present, Block.refs, Holds.on]
  obtain ⟨c, there⟩ := Option.isSome_iff_exists.1 (ha.sound.has_of_refs refs)
  cases held : g.held b.inst with
  | some loan => exact .inr ⟨loan, rfl⟩
  | none =>
    have custody := Config.custody?_of_get? (c := ⟨h, g⟩) there
    obtain ⟨s, idle⟩ := Option.isSome_iff_exists.1 ((ha.sound.custody _ _ custody).idle held)
    exact .inl ⟨c.value, s, by simp [Host.instance?, there], idle⟩

end

/-! ### The shapes of a session -/

/-- What holds of guest types and of blocks, whatever their sizes, alignments and layouts. -/
structure Session.Shapes (s : Session) : Prop where
  /-- An alignment that is no power of two up to the unit is refused, and nothing changes. -/
  crooked : ∀ t : GuestType, ¬ t.Placeable → ∀ id,
    (∀ {α : Type} (l : Layout α) v,
      exec (l.allocate id t v) s = (.error (.allocation l.size (.badAlignment t.align)), s)) ∧
    ∀ count, ∃ e : Error, e.IsAllocation ∧ exec (HostM.allocateArray id t count) s = (.error e, s)
  /-- So are more bytes than there are addresses, also if they are more than a machine word. -/
  large : ∀ (t : GuestType) id count, addressRange ≤ count * t.size →
    exec (HostM.allocateArray id t count) s = (.error (.allocation (min (count * t.size)
      (2 ^ (64 : Nat) - 1)) (.tooManyElements count t.size)), s)
  /-- A value that is allocated has a block of its type, aligned as that asks. -/
  values : ∀ {α : Type} (l : Layout α) (t : GuestType) id v k s', l.size = t.size →
    exec (l.allocate id t v) s = (.ok k, s') → ∃ b, s'.blocks.get? k = some b ∧
      b.inst = id ∧ b.type = t ∧ b.count = none ∧ t.Placeable ∧ t.align ∣ b.start
  /-- So has an array, which has as many elements as were asked for, if these are not empty. -/
  arrays : ∀ (t : GuestType) id count k s', exec (HostM.allocateArray id t count) s = (.ok k, s') →
    ∃ b, s'.blocks.get? k = some b ∧ b.inst = id ∧ b.type = t ∧
      b.count = some (HostM.keptCount count) ∧ (0 < t.size → b.length = count) ∧
      t.Placeable ∧ t.align ∣ b.start
  /-- Every block that there is, is aligned. -/
  aligned : ∀ k b, s.blocks.get? k = some b → b.type.align ∣ b.start
  /-- It does what is asked of it while its instance is at rest, if its slots are not empty. -/
  rests : ∀ k b, s.blocks.get? k = some b → s.Quiet b.inst → ∀ {α : Type} (l : Layout α),
    l.Suits b → b.Serves k s l
  /-- Otherwise a call is in flight, and it turns everything away. -/
  busy : ∀ k b, s.blocks.get? k = some b → ¬ s.Quiet b.inst → ∀ {α : Type} (l : Layout α),
    l.Suits b → b.TurnsAway k s l
  /-- An array whose slots are empty panics while its instance is at rest. -/
  hollow : ∀ k b count, s.blocks.get? k = some b → s.Quiet b.inst → b.count = some count →
    b.type.size = 0 → ∀ {α : Type} (l : Layout α), l.size = 0 → b.Panics k s l

/-- This puts together what is known of blocks at rest, of blocks in a call, and of blocks of no
size. -/
theorem shapes_of_orderly [HookRule] {s : Session} {g : Pending} (ha : Config.Orderly ⟨s, g⟩)
    (complete : ∀ id loan, g.held id = some loan → loan.ready = true)
    (aligned : s.blocks.All fun b => b.type.isAligned) : s.Shapes where
  -- What is refused has nothing to do with the session.
  crooked t unplaceable id := ⟨fun l v => l.exec_allocate_of_not_placeable id s unplaceable v,
    fun count => exec_allocateArray_of_not_placeable id count s unplaceable⟩
  large t id count large := exec_allocateArray_of_large large
  values := by
    intro α l t id v k s' same done
    obtain ⟨⟨⟨b, m, present, inst, own, counted, -⟩, -⟩, g', orderly⟩ :=
      (ha.gains_value l id same v).of_ok done
    have placeable : t.Placeable := by
      by_contra unplaceable
      cases (l.exec_allocate_of_not_placeable id s unplaceable v).symm.trans done
    refine ⟨b, present, inst, own, counted, placeable, ?_⟩
    rw [← own] at placeable ⊢
    exact orderly.align_dvd_start present (GuestType.placeable_iff.1 placeable)
  arrays := by
    intro t id count k s' done
    obtain ⟨⟨⟨b, m, present, inst, own, counted, -⟩, -⟩, g', orderly⟩ :=
      (ha.gains_array id t count).of_ok done
    have placeable : t.Placeable := by
      by_contra unplaceable
      obtain ⟨e, -, failed⟩ := exec_allocateArray_of_not_placeable id count s unplaceable
      cases failed.symm.trans done
    have kept : 0 < t.size → b.length = count := fun pos => by
      rw [Block.length, counted, Option.getD_some, keptCount_of_pos pos (fits_of_allocateArray done)]
    refine ⟨b, present, inst, own, counted, kept, placeable, ?_⟩
    rw [← own] at placeable ⊢
    exact orderly.align_dvd_start present (GuestType.placeable_iff.1 placeable)
  aligned k b present := ha.align_dvd_start present (aligned k b present)
  rests _ _ present quiet _ _ suits := ha.serves present quiet suits
  -- Blocks whose instance is not at rest are those of a call.
  busy := by
    intro k b present away α l suits
    obtain ⟨loan, held⟩ := (ha.quiet_or_held present).resolve_left away
    exact (ha.locked held (complete b.inst loan held)).turnsAway present suits
  hollow _ _ _ present quiet counted empty _ _ size := ha.panics present quiet counted empty size

/-- **Shapes.** Between any two operations of a session that starts with nothing, and while a guest
runs: whatever the size and the alignment of a guest type, what cannot be placed is refused and
changes nothing; what is allocated is aligned; and every later operation on a block whose slots are
not empty finds all its elements, or that a call is in flight. Where they are empty, an array that
was allocated panics. -/
theorem shapes_of_passes [Engine] {s : Session} (passes : Passes hookedPrinter empty s) : s.Shapes ∧
    ∀ (v : Invoker) name args results (entry : Entry s v.environment name args results) w,
      entry.Meanwhile w → Session.Shapes w := by
  let rule : HookRule := .any
  have any : ∀ hook, HookRule.admits hook := fun _ => trivial
  obtain ⟨g, held, -, lead⟩ := passes.leads any (g := .none) (traced_of_any any)
  have start := Session.orderly_empty rfl
  have aligned : ∀ {c : Config Session.Slots}, Leads (fun _ => True) ⟨empty, .none⟩ c →
      c.host.blocks.All fun b => b.type.isAligned := fun lead =>
    lead.induct (P := fun c => c.host.blocks.All fun b => b.type.isAligned) start.sound
      (fun _ _ _ step => step.aligned) fun _ _ h => (nomatch h)
  refine ⟨shapes_of_orderly (lead.orderly start) ?_ (aligned lead), ?_⟩
  · -- Between operations no store is in hand; while a guest runs, only its own is.
    intro id loan taken
    rw [held] at taken
    cases taken
  · intro v name args results entry w meanwhile
    obtain ⟨g', loan, lent, ready, lead'⟩ := entry.leads_lent any (g := g) meanwhile
    have both := lead.trans lead'
    refine shapes_of_orderly (both.orderly start) ?_ (aligned both)
    intro id loan' taken
    rw [lent, held, Function.update_apply] at taken
    split at taken
    · exact Option.some.inj taken ▸ ready
    · cases taken

namespace Session

/-- A program that exports a memory, and a function `go` that starts a benchmark, and so prints. -/
def reporting : Bytes :=
  [0x00, 0x61, 0x73, 0x6d, 0x01, 0x00, 0x00, 0x00,
    -- one type: nothing in, nothing out
    0x01, 0x04, 0x01, 0x60, 0x00, 0x00,
    -- one function of that type is imported
    0x02, 0x1f, 0x01, 0x03] ++ Bytes.ofText nativeSpace ++
    [0x17] ++ Bytes.ofText "sandbox_start_benchmark" ++ [0x00, 0x00,
    -- there is another one, and a memory of one page
    0x03, 0x02, 0x01, 0x00,
    0x05, 0x03, 0x01, 0x00, 0x01,
    -- both are exported
    0x07, 0x0f, 0x02, 0x02, 0x67, 0x6f, 0x00, 0x01, 0x06] ++ Bytes.ofText memoryExport ++ [0x02, 0x00,
    -- the code of `go`
    0x0a, 0x06, 0x01, 0x04, 0x00, 0x10, 0x00, 0x0b]

/-- An array of two numbers, and a hook that reads it whenever a guest prints. -/
def occupied : List Step :=
  [.createRuntime "rt" {} [.all] [.ok 5] none [.block "a" .read],
    .runtime "rt" (.load "m" reporting),
    .module "m" (.instantiate "i" 1 64),
    .inst "i" (.allocateArray "a" (.signed 4) 2),
    .inst "i" (.createEnvironment "e" 1)]

theorem shapes_of_occupied : Passes hookedPrinter empty (runWith hookedPrinter occupied empty).2 ∧
    (runWith hookedPrinter occupied empty).2.Shapes :=
  ⟨passes_runWith _ .here occupied, (shapes_of_passes (passes_runWith _ .here occupied)).1⟩

-- Before the call, the array is read as two numbers. The hook that reads it while the guest runs is
-- told that the instance is busy.
example : ((stepWith hookedPrinter (.block "a" .read) (runWith hookedPrinter occupied empty).2).1
      matches .result (.ok (.data _ [.int 0, .int 0]))) = true ∧
    ((stepWith hookedPrinter (.environment "e" (.call ⟨"go", [], []⟩))
      (runWith hookedPrinter occupied empty).2).2.app.heard matches [[.result (.error .busy)]]) =
        true := by
  decide +kernel

/-- An array of three values of no bytes. -/
def hollow : List Step :=
  [.createRuntime "rt" {} [.all] [] none [],
    .runtime "rt" (.load "m" reporting),
    .module "m" (.instantiate "i" 1 64),
    .inst "i" (.allocateArray "z" (.raw 0 1) 3)]

/-- The array is allocated, at an aligned address and with three elements. But it panics when its
elements are read, when they are overwritten by three others, and when it is dropped. -/
theorem hollow_array_panics :
    ((runWith hookedPrinter hollow empty).1 matches [_, _, _, .result (.ok (.array _ 3 0))]) = true ∧
    ((runWith hookedPrinter hollow empty).2.blocks.get? 0).any (fun b =>
      ((exec (HostM.readAll b) (runWith hookedPrinter hollow empty).2).1
        matches .ok (.panics _)) &&
      ((exec (HostM.writeAll b [.raw [], .raw [], .raw []]) (runWith hookedPrinter hollow empty).2).1
        matches .ok (.panics _))) = true ∧
    (runWith hookedPrinter hollow empty).2.dropPanics 0 = true := by
  decide +kernel

end Session

end Embedder
