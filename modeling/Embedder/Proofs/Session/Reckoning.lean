import Embedder.Proofs.Host.Disposal
import Embedder.Proofs.Session.Blocks
import Embedder.Proofs.Session.Forgetting

namespace Embedder

open Session (Slots Step empty hookedPrinter runWith stepWith)

/-!
# What a session knows of an app heap

The app heap of an instance counts the blocks of the instance, and those that were dropped while a
call was in flight on it. A block that is dropped at any other time is released, slot by slot, and
goes back to the heap.

* `Session.forgotten`: the blocks that an app heap forgets over some steps.
* `tallied_runWith`: what the app heap holds after them: guests are called through environments and
  runners of this instance and of other ones, and hooks do as they like.
* `Session.Reckons`, `reckons_of_passes`: statistics, drops and failed allocations.
-/

namespace Session

/-- The blocks of an instance that are dropped while calls of the steps are in flight on it. -/
def forgotten [Engine] (id : Nat) : List Step → Session → List Block
  | [], _ => []
  | st :: steps, s =>
    forgotten id steps (stepWith hookedPrinter st s).2 ++ st.forgets hookedPrinter s id

/-- **App heaps.** Whatever is done, but new instances, an app heap holds the blocks of its instance
and those that were dropped while a call was in flight on it, by induction on the steps. -/
theorem tallied_runWith [Engine] [HookRule] (any : ∀ hook, HookRule.admits hook) {s : Session}
    {g : Pending} {id : Nat} {lost : List Span} (tallied : Config.Tallied ⟨s, g⟩ id lost)
    (none : g.taken id = []) {steps : List Step} (settled : ∀ st ∈ steps, ¬ st.BringsUp) :
    Config.Tallied ⟨(runWith hookedPrinter steps s).2, g⟩ id
      ((forgotten id steps s).map (fun b => b.span.served) ++ lost) := by
  induction steps generalizing s lost with
  | nil => exact tallied
  | cons st steps ih =>
    have after := ih (tallied_stepWith (mindful_hookedPrinter any) any tallied none
      (settled st List.mem_cons_self)) fun st member => settled st (List.mem_cons_of_mem _ member)
    rw [forgotten, List.map_append, List.append_assoc]
    exact after

/-- A new instance has an empty app heap, and no blocks. -/
theorem tallies_of_appended [HookRule] {s : Session} {g : Pending} {id : Nat}
    (free : ∀ id, g.held id = none) (none : ∀ id, g.taken id = []) {bytes before : Nat}
    (ha : Config.Orderly ⟨s, g⟩) (appended : s.Appended id bytes before) : s.Tallies id [] := by
  intro i store there idle
  have heap := appended.1
  simp only [Host.heap?, there, Option.bind_some, idle] at heap
  have live : store.live = [] := by
    rw [Store.live, heap]
    rfl
  obtain ⟨c, hc, rfl⟩ := Option.map_eq_some_iff.1 there
  -- Claims lie in live blocks, of which there are none.
  obtain ⟨spans, sub, fits⟩ := ha.backed.backs _ _ (Config.custody?_of_get? hc)
  rw [Custody.live, Custody.store?_idle (free id) idle, Option.map_some, Option.getD_some,
    live] at sub
  rw [List.subperm_nil.1 sub] at fits
  have owned : s.owned id = [] := by
    have claims := List.forall₂_nil_right_iff.1 fits
    rw [Config.claims, none] at claims
    exact claims
  rw [live, ← Host.owned_eq, owned]
  exact .refl _

/-- What a session knows of its blocks and of the app heaps that they are in. -/
structure Reckons [Engine] (s : Session) : Prop where
  /-- From the instantiation on, the statistics of an app heap count the blocks that are there, and
  those that were dropped while a call was in flight. -/
  counts : ∀ module stack bytes id (t : Session) into steps u, 0 < bytes →
    exec (HostM.instantiate hookedPrinter module stack bytes) s = (.ok id, t) →
      (∀ st ∈ steps, ¬ st.BringsUp) →
        (runWith hookedPrinter steps (t.put ⟨.inst, into⟩ id)).2 = u → (u.instance? id).isSome →
          ∃ stats, exec (HostM.heapStats id) u = (.ok (some stats), u) ∧
            stats.live = (u.blocksOf id).length +
              (forgotten id steps (t.put ⟨.inst, into⟩ id)).length ∧
            stats.used = ((u.blocksOf id).map fun b => b.span.served.size).sum +
              ((forgotten id steps (t.put ⟨.inst, into⟩ id)).map fun b => b.span.served.size).sum
  /-- A block that is dropped while its instance is at rest is released, slot by slot, and then the
  app heap takes it back, where it is found. -/
  drops : ∀ j b i store, s.blocks.get? j = some b → s.instance? b.inst = some i →
    i.store = some store → 0 < b.type.size → s.Disposes j b store
  /-- That happens once: a block that is gone stays gone, and there is nothing more to drop. -/
  once : ∀ j t, j < s.blocks.next → s.blocks.get? j = none → Passes hookedPrinter s t →
    t.blocks.get? j = none ∧ t.dropBlock j = t
  /-- An allocation that fails releases nothing, and leaves the app heap as it was, and all else. -/
  fails : ∀ id x error t, Allocates id x → exec x s = (.error error, t) → t = s

theorem reckons_of_orderly [Engine] [HookRule] (any : ∀ hook, HookRule.admits hook) {s : Session}
    {g : Pending} (free : ∀ id, g.held id = none) (none : ∀ id, g.taken id = [])
    (ha : Config.Orderly ⟨s, g⟩) (chained : Config.Chained ⟨s, g⟩) : s.Reckons where
  counts := by
    intro module stack bytes id t into steps u pos made settled ran there
    obtain ⟨before, appended, region⟩ := appended_of_sound any free ha.sound pos made
    obtain ⟨heap, present, -⟩ := Option.map_eq_some_iff.1 (region into steps u ran there)
    obtain ⟨-, lead⟩ := (ends_instantiate (traced_of_any any) module stack bytes ha.sound).of_ok made
    have orderly := lead.orderly ha
    obtain ⟨c, hc⟩ := Pool.get?_of_count_pos (orderly.sound.holders_pos .inst (by decide))
    have start : Config.Tallied ⟨t, g.pin .inst id⟩ id [] :=
      { orderly
        chained := lead.induct ha.sound (fun _ _ _ step => step.chained) chained
        old := Pool.lt_next_of_get?_eq_some hc
        takenUp := (tallies_of_appended (g := g.pin .inst id) free none orderly appended).takenUp
          orderly.sound (free id) (none id) }
    -- The new instance has its name.
    have named : Config.Tallied ⟨t.put ⟨.inst, into⟩ id, g⟩ id [] :=
      start.leads (leads_put ⟨.inst, into⟩ id nofun)
    have tallies := (tallied_runWith any named (none id) settled).tallies (none id)
    rw [ran, List.append_nil] at tallies
    have stats := tallies.stats present
    rw [List.length_map, List.map_map] at stats
    exact ⟨heap.stats, exec_heapStats present, stats⟩
  drops _ _ _ _ present there idle pos := ha.disposes present there idle pos
  once := by
    intro j t old gone passes
    obtain ⟨g', -, -, lead⟩ := passes.leads any (g := g) (traced_of_any any)
    have absent : t.blocks.get? j = .none := by
      cases present : t.blocks.get? j with
      | none => rfl
      | some b =>
        obtain ⟨c, before, -⟩ := (lead.since ha.sound).blocks.old j b old present
        cases gone.symm.trans before
    refine ⟨absent, ?_⟩
    unfold Host.dropBlock
    rw [absent]
  fails _ _ _ _ allocates failed := (ha.allocates (free _) allocates).of_error failed

/-- **Blocks.** Between any two operations of a session that starts with nothing, app heaps hold the
blocks that have an owner and those that were forgotten, and drops release and free. -/
theorem reckons_of_passes [Engine] {s : Session} (passes : Passes hookedPrinter empty s) :
    s.Reckons := by
  let rule : HookRule := .any
  have any : ∀ hook, HookRule.admits hook := fun _ => trivial
  obtain ⟨g, held, taken, lead⟩ := passes.leads any (g := .none) (traced_of_any any)
  exact reckons_of_orderly any (fun id => congrFun held id) (fun id => congrFun taken id)
    (lead.orderly (orderly_empty rfl))
    (lead.induct (orderly_empty rfl).sound (fun _ _ _ step => step.chained) chained_empty)

/-- A program whose function `go` starts a benchmark, and so prints, and which has a memory. -/
def heaping : Bytes :=
  [0x00, 0x61, 0x73, 0x6d, 0x01, 0x00, 0x00, 0x00,
    -- one type: nothing in, nothing out
    0x01, 0x04, 0x01, 0x60, 0x00, 0x00,
    -- one function of that type is imported
    0x02, 0x1f, 0x01, 0x03] ++ Bytes.ofText nativeSpace ++
    [0x17] ++ Bytes.ofText "sandbox_start_benchmark" ++ [0x00, 0x00,
    -- there is another one
    0x03, 0x02, 0x01, 0x00,
    -- and a memory of a page
    0x05, 0x03, 0x01, 0x00, 0x01,
    -- they are exported as `memory` and `go`
    0x07, 0x0f, 0x02, 0x06] ++ Bytes.ofText "memory" ++ [0x02, 0x00, 0x02, 0x67, 0x6f, 0x00, 0x01,
    -- its code
    0x0a, 0x06, 0x01, 0x04, 0x00, 0x10, 0x00, 0x0b]

/-- A module of that program, and a hook that drops a block. -/
def unmindful : List Step :=
  [.createRuntime "rt" {} [.all] [.ok 5] none [.drop ⟨.block, "b"⟩],
    .runtime "rt" (.load "m" heaping)]

/-- Two blocks of an instance, of which one is dropped while the instance is in a call. -/
def dealt : List Step :=
  [.module "m" (.instantiate "i" 1 1),
    .inst "i" (.createEnvironment "e" 1),
    .inst "i" (.allocate "a" ⟨.unsigned, 8, 8, true⟩ (.number 7)),
    .inst "i" (.allocateArray "b" ⟨.unsigned, 1, 1, true⟩ 9),
    .environment "e" (.call ⟨"go", [], []⟩),
    .inst "i" .heapStats]

theorem reckons_of_unmindful : Passes hookedPrinter empty (runWith hookedPrinter unmindful empty).2 ∧
    (runWith hookedPrinter unmindful empty).2.Reckons :=
  ⟨passes_runWith _ .here unmindful, reckons_of_passes (passes_runWith _ .here unmindful)⟩

/-- The nine bytes of the block that is gone still count, rounded up to sixteen. -/
example : ((runWith hookedPrinter (unmindful ++ dealt) empty).1.getLast?.map fun
    | .result (.ok (.heap stats)) => stats.map fun s => (s.live, s.used)
    | _ => none) = some (some (2, 24)) := by
  decide +kernel

end Session

end Embedder
