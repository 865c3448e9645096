import Embedder.Proofs.Host.Provision
import Embedder.Proofs.Session.Exclusion

namespace Embedder

open Session (Step empty hookedPrinter runWith stepWith)

/-!
# What is stored is what is read

Between any two operations of a session, what the host reads of a block is what it has stored there
last, or zero bytes if nothing has been stored yet, until a call gets at the memory. This is so for
any type of plain data, be it one of the guest types or not.

* `Layout.Keeps`: what a block holds from now on, and that it can be edited.
* `GuestType.Lossless`, `GuestType.lossless`: the layouts of guest types.
* `Session.Faithful`, `faithful_of_passes`: what is read in a session, and that this is always so.
-/

/-! ### What a block holds from now on -/

/-- A block holds values now and later, whatever is stored in it and elsewhere, and every edit that fits
is done. -/
def Layout.Keeps {α σ : Type} (l : Layout α) (k : Nat) (b : Block) (h : Host σ) (vs : List α) : Prop :=
  ∀ t ws, l.Expects k b h vs t ws →
    l.Holds b t ws ∧ ∀ e : Edit α, e.Fits b.length → (exec (e.run l b) t).1 = .ok (.returns ())

theorem Host.Tells.keeps {α σ : Type} [Holder σ] [Rule σ] {h : Host σ} {k : Nat} {b : Block}
    {l : Layout α} {vs : List α} (tells : h.Tells k b l vs) (suits : l.Suits b) :
    l.Keeps k b h vs := by
  intro t ws expects
  have later := tells.expects suits expects
  obtain ⟨m, housed, -⟩ := later.values
  refine ⟨later.holds suits, fun e fits => ?_⟩
  obtain ⟨a, bytes, u, done, -⟩ := Edit.exec_run suits housed fits
  rw [done]

/-- A value on its own is the first one of its block. -/
theorem Layout.pointer {α : Type} (σ : Type) (l : Layout α) {b : Block} (one : b.count = none) :
    (l.read b.inst b.start : HostM σ α) = l.get b 0 ∧
      ∀ v, (l.write b.inst b.start v : HostM σ Unit) = l.set b 0 v := by
  have first : l.slotAddress b 0 = .ok b.start := by
    rw [Layout.slotAddress, if_pos (by simp [Block.length, one]), Nat.zero_mul, Nat.add_zero]
  constructor
  · rw [Layout.get, first]
    rfl
  · intro v
    rw [Layout.set, first]
    rfl

/-! ### Guest types -/

/-- Nothing is lost in slots of a guest type, which may be longer than its values: a value is loaded as
it was stored, bytes past it are left alone, and what is loaded is stored as it was. -/
structure GuestType.Lossless (t : GuestType) : Prop where
  load_stored : ∀ d slot, t.accepts d → t.size ≤ slot.length → t.load (t.layout.store d slot) = d
  rest : ∀ d slot, (t.layout.store d slot).drop t.size = slot.drop t.size
  accepts : ∀ slot, t.size ≤ slot.length → t.accepts (t.load slot) = true
  store_loaded : ∀ slot, t.size ≤ slot.length → t.layout.store (t.load slot) slot = slot

theorem GuestType.lossless (t : GuestType) : t.Lossless where
  load_stored d slot accepts _ := load_store accepts (slot.drop t.size)
  rest d slot := List.drop_left' (t.length_store d)
  accepts slot enough := (store_load enough).1
  store_loaded slot enough := by
    show t.store (t.load slot) ++ slot.drop t.size = slot
    rw [(store_load enough).2, List.take_append_drop]

/-! ### Sessions -/

/-- What is read of a session's blocks is what was stored. -/
structure Session.Faithful (s : Session) : Prop where
  /-- A block of an instance at rest holds some values, and keeps them. -/
  blocks : ∀ k b, s.blocks.get? k = some b → s.Quiet b.inst →
    ∀ {α : Type} (l : Layout α), l.Suits b → ∃ vs, l.Holds b s vs ∧ l.Keeps k b s vs
  /-- All values of a new array are loaded from zero bytes. -/
  arrays : ∀ id type count k t, exec (HostM.allocateArray id type count) s = (.ok k, t) →
    ∃ b, t.blocks.get? k = some b ∧ b.inst = id ∧ b.type = type ∧
      (0 < type.size → b.count = some count) ∧ ∀ {α : Type} (l : Layout α), l.Suits b →
        l.Keeps k b t (List.replicate count (l.load (List.replicate l.size 0)))
  /-- A new value is loaded as it was stored. -/
  values : ∀ {α : Type} (l : Layout α) id (type : GuestType) v k t, l.size = type.size → 0 < l.size →
    l.Undoes v → exec (l.allocate id type v) s = (.ok k, t) →
      ∃ b, t.blocks.get? k = some b ∧ b.inst = id ∧ b.type = type ∧ b.count = none ∧
        l.Keeps k b t [v]
  /-- Nothing is read at an index that there is not. -/
  bounds : ∀ {α : Type} (l : Layout α) (b : Block) i, b.length ≤ i →
    exec (l.get b i) s = (.error (.outOfBounds i b.length), s)
  /-- Nothing is stored at an index that there is not, or if there are not as many values as in the
  block. -/
  misfits : ∀ {α : Type} (l : Layout α) (b : Block) (e : Edit α), ¬ e.Fits b.length →
    exec (e.run l b) s = (.error (e.misfit b.length), s)

namespace Session

theorem faithful_of_orderly [HookRule] {s : Session} {g : Pending} (ha : Config.Orderly ⟨s, g⟩) :
    s.Faithful where
  blocks := by
    intro k b present quiet α l suits
    obtain ⟨m, housed⟩ := ha.housed present quiet
    have tells : Host.Tells s k b l (l.values b m) := ⟨⟨g, ha⟩, present, m, housed, rfl⟩
    exact ⟨l.values b m, tells.holds suits, tells.keeps suits⟩
  arrays := by
    intro id type count k t done
    obtain ⟨b, present, inst, own, counted, tells⟩ := ha.tells_array done
    exact ⟨b, present, inst, own, counted, fun l suits => (tells l suits).keeps suits⟩
  values := by
    intro α l id type v k t same pos undone done
    obtain ⟨b, present, inst, own, counted, tells⟩ := ha.tells_value same pos undone done
    exact ⟨b, present, inst, own, counted, tells.keeps ⟨own.symm ▸ same, pos⟩⟩
  bounds l b i out := l.exec_get_of_le out s
  misfits l b e misfit := Edit.exec_run_of_misfit l misfit s

/-- **Contents.** Between any two operations of a session that starts with nothing, in hooks, too: what
is read of blocks is what was stored. The host's own access to a block is that through the layout of
the block's type, and these layouts lose nothing. -/
theorem faithful_of_passes [Engine] {s : Session} (passes : Passes hookedPrinter empty s) :
    s.Faithful ∧
      (∀ (v : Invoker) name args results (entry : Entry s v.environment name args results) w,
        entry.Meanwhile w → Session.Faithful w) ∧
      (∀ b : Block, b.Own Slots) ∧
      (∀ (b : Block) {α : Type} (l : Layout α), b.count = none →
        (l.read b.inst b.start : HostM Slots α) = l.get b 0 ∧
          ∀ v, (l.write b.inst b.start v : HostM Slots Unit) = l.set b 0 v) ∧
      ∀ t : GuestType, t.Lossless ∧ ∀ id d,
        (HostM.allocate id t d : HostM Slots Nat) = t.layout.allocate id t d := by
  let rule : HookRule := .any
  have any : ∀ hook, HookRule.admits hook := fun _ => trivial
  obtain ⟨g, -, -, lead⟩ := passes.leads any (g := .none) (traced_of_any any)
  have orderly := lead.orderly (orderly_empty rfl)
  refine ⟨faithful_of_orderly orderly, ?_, fun b => b.own, fun b _ l one => l.pointer Slots one,
    fun t => ⟨t.lossless, t.allocate_layout⟩⟩
  intro v name args results entry w meanwhile
  obtain ⟨g', -, -, -, lead'⟩ := entry.leads_meanwhile any (g := g) meanwhile
  exact faithful_of_orderly (lead'.orderly orderly)

/-- A program that exports a memory of one page. -/
def remembering : Bytes :=
  [0x00, 0x61, 0x73, 0x6d, 0x01, 0x00, 0x00, 0x00,
    -- one memory, of one page
    0x05, 0x03, 0x01, 0x00, 0x01,
    -- it is exported
    0x07, 0x0a, 0x01, 0x06] ++ Bytes.ofText memoryExport ++ [0x02, 0x00]

/-- An array of two numbers, whose block was another array's before. -/
def recycled : List Step :=
  [.createRuntime "rt" {} [] [.ok 5] none [],
    .runtime "rt" (.load "m" remembering),
    .module "m" (.instantiate "i" 1 64),
    .inst "i" (.allocateArray "a" (.signed 2) 4),
    .block "a" (.write (.all [.number (-1), .number (-1), .number (-1), .number (-1)])),
    .drop ⟨.block, "a"⟩,
    .inst "i" (.allocateArray "b" (.signed 4) 2)]

theorem faithful_of_recycled :
    Passes hookedPrinter empty (runWith hookedPrinter recycled empty).2 ∧
      (runWith hookedPrinter recycled empty).2.Faithful :=
  ⟨passes_runWith _ .here recycled, (faithful_of_passes (passes_runWith _ .here recycled)).1⟩

/-- The bytes of the first array are gone; what is stored in the second one is read again. -/
example : ((runWith hookedPrinter (recycled ++ [.block "b" .read, .block "b" (.set 1 (.number (-7))),
      .block "b" .read, .block "b" (.get 2)]) empty).1.drop recycled.length).map (fun
    | .result (.ok (.data _ values)) => some values
    | .result (.error (.outOfBounds i n)) => some [.int i, .int n]
    | _ => none) = [some [.int 0, .int 0], none, some [.int 0, .int (-7)], some [.int 2, .int 2]] := by
  decide +kernel

end Session

end Embedder
