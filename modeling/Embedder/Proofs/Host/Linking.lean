import Embedder.Proofs.Host.Liveness
import Embedder.Proofs.Host.Placement
import Embedder.Proofs.Host.Unwinding

namespace Embedder

/-!
# What guests are linked with

The functions of a guest and its exports are the same from its instantiation on. Those of the host's
that it imports are callbacks of its runtime.

* `Leads.program`: the functions and the exports stay.
* `Config.Linked`, `Change.linked`: what guests import.
* `Host.Sandboxed`: runtimes that have the guest interface alone, and what guests import there.
-/

variable {allowed : Effect → Prop} {σ : Type}

/-! ### Programs -/

/-- A store of the same program as another one, so with the same functions and exports. -/
structure Store.SameProgram (s s' : Store) : Prop where
  module : s'.guest.module = s.guest.module
  funcs : s'.guest.funcs = s.guest.funcs

theorem Store.SameProgram.refl (s : Store) : s.SameProgram s :=
  ⟨rfl, rfl⟩

theorem Store.SameProgram.trans {s s' s'' : Store} (h : s.SameProgram s')
    (h' : s'.SameProgram s'') : s.SameProgram s'' :=
  ⟨h'.module.trans h.module, h'.funcs.trans h.funcs⟩

/-- Whatever happens to an instance, its program stays. -/
theorem Evolves.program {id paid : Nat} {x y : Custody} (step : Evolves allowed id x paid y)
    (sound : x.Sound) {s' : Store} (there : y.store? = some s') :
    ∃ s, x.store? = some s ∧ s.SameProgram s' := by
  -- A store that is at rest stays so, unless a call enters.
  have at_rest : ∀ {s s₁ taken}, x.record.store = some s →
      Custody.store? ⟨{ x.record with store := some s₁ }, x.held, taken⟩ = some s' →
        x.store? = some s ∧ s₁ = s' := by
    intro s s₁ taken idle there
    have here := Custody.store?_idle (x := ⟨{ x.record with store := some s₁ }, x.held, taken⟩)
      (sound.free idle) rfl
    cases here.symm.trans there
    exact ⟨Custody.store?_idle (sound.free idle) idle, rfl⟩
  cases step with
  | edit idle guest =>
    obtain ⟨before, rfl⟩ := at_rest idle there
    exact ⟨_, before, guest.module, guest.funcs⟩
  | latch idle =>
    obtain ⟨before, rfl⟩ := at_rest idle there
    exact ⟨_, before, rfl, rfl⟩
  | alloc idle =>
    obtain ⟨before, rfl⟩ := at_rest idle there
    exact ⟨_, before, rfl, rfl⟩
  | free idle =>
    obtain ⟨before, rfl⟩ := at_rest idle there
    exact ⟨_, before, rfl, rfl⟩
  | enter idle =>
    cases there
    exact ⟨_, Custody.store?_idle (sound.free idle) idle, rfl, rfl⟩
  | leave held =>
    cases there
    exact ⟨_, Custody.store?_held held, rfl, rfl⟩
  | run held guest =>
    cases there
    exact ⟨_, Custody.store?_held held, guest.module, guest.funcs⟩
  | grow held =>
    cases there
    exact ⟨_, Custody.store?_held held, rfl, rfl⟩
  | manage held =>
    cases there
    exact ⟨_, Custody.store?_held held, rfl, rfl⟩
  | complete held =>
    cases there
    exact ⟨_, Custody.store?_held held, rfl, rfl⟩

variable [Holder σ] [Rule σ] {a b : Config σ}

/-- The program of an instance is the one that it had before a change, unless the instance is new. -/
theorem Change.program (step : Change allowed a b) (sound : a.Sound) {id : Nat} {y : Custody}
    {s' : Store} (after : b.custody? id = some y) (there : y.store? = some s') :
    (∃ x s, a.custody? id = some x ∧ x.record.module = y.record.module ∧ x.store? = some s ∧
      s.SameProgram s') ∨ Fate allowed a.host id none (some y) := by
  have fate := step.fate sound id
  rw [after] at fate
  generalize before : a.custody? id = x at fate
  cases fate with
  | same => exact .inl ⟨y, s', rfl, rfl, there, .refl s'⟩
  | @blocks x => exact .inl ⟨x, s', rfl, rfl, there, .refl s'⟩
  | @evolve x y _ step =>
    obtain ⟨s, first, program⟩ := step.program (sound.custody id x before) there
    exact .inl ⟨x, s, rfl, step.static.1.symm, first, program⟩
  | made module runtime commons linked limiter store memory next =>
    exact .inr (.made module runtime commons linked limiter store memory next)

/-- The program of an instance stays as long as the instance does. -/
theorem Leads.program {id : Nat} {x y : Custody} (lead : Leads allowed a b) (ha : a.Sound)
    (before : a.custody? id = some x) (after : b.custody? id = some y) {s' : Store}
    (there : y.store? = some s') : ∃ s, x.store? = some s ∧ s.SameProgram s' := by
  refine lead.instance_induct (P := fun z => ∀ s', z.store? = some s' →
    ∃ s, x.store? = some s ∧ s.SameProgram s') ha (fun _ _ ih => ih) ?_ before ?_ after s' there
  · intro y paid z sound step ih s'' there
    obtain ⟨s', before, later⟩ := step.program sound there
    obtain ⟨s, first, earlier⟩ := ih s' before
    exact ⟨s, first, earlier.trans later⟩
  · exact fun s there => ⟨s, there, .refl s⟩

/-! ### Imports -/

/-- Guests import callbacks of their runtimes only. -/
def Config.Linked (c : Config σ) : Prop :=
  ∀ id x m r, c.custody? id = some x → c.host.module? x.record.module = some m →
    c.host.runtime? m.runtime = some r →
      ∀ s n, x.store? = some s → s.guest.Imports n → n ∈ r.natives

/-- A new guest imports what it is linked with. -/
theorem mem_of_imports_bare {m : Wasm.Module} {natives : List Callback}
    {imported : List (Wasm.Func Callback)}
    (linked : ∀ f ∈ imported, ∃ n ∈ natives, f = .native n n.type) {n : Callback}
    (imports : (Wasm.Guest.bare m imported).Imports n) : n ∈ natives := by
  obtain ⟨type, there⟩ := imports
  simp only [Wasm.Guest.bare, definedFuncs, List.mem_toArray, List.mem_append,
    List.mem_map] at there
  rcases there with linked' | ⟨_, -, e⟩
  · obtain ⟨n', member, e⟩ := linked _ linked'
    cases e
    exact member
  · cases e

/-- **Linking.** No change makes a guest import anything else. -/
theorem Change.linked (step : Change allowed a b) (sound : a.Sound) (chained : a.Chained)
    (linked : a.Linked) : b.Linked := by
  intro id y m r after module runtime s' n there imports
  have since := step.since
  rcases step.program sound after there with ⟨x, s, before, same, first, program⟩ | fate
  · -- The module and the runtime of an instance that was there before were there, too.
    obtain ⟨c, present, rfl⟩ := Option.map_eq_some_iff.1 before
    have present : a.host.instance? id = some c.value := by simp [Host.instance?, present]
    have lt := (chained.instances id _ present).1
    dsimp only at same
    rw [← same] at module
    have module := since.module? lt module
    have runtime := since.runtime? (chained.modules _ m module).1 runtime
    refine linked id _ m r before module runtime s n first ?_
    obtain ⟨type, member⟩ := imports
    exact ⟨type, program.funcs ▸ member⟩
  · cases fate with
    -- A new guest imports what is linked when it is made.
    | made module' runtime' commons linked =>
      obtain ⟨c, present, -⟩ := Option.map_eq_some_iff.1 module'
      cases module'.symm.trans (since.module? (Pool.lt_next_of_get?_eq_some present) module)
      obtain ⟨d, present, -⟩ := Option.map_eq_some_iff.1 runtime'
      cases runtime'.symm.trans (since.runtime? (Pool.lt_next_of_get?_eq_some present) runtime)
      cases there
      exact mem_of_imports_bare linked imports

/-! ### Instances of the guest interface -/

/-- The runtime of an instance offers callbacks of the guest interface, and no others. -/
def Host.Sandboxed (h : Host σ) (id : Nat) : Prop :=
  ∀ i m r, h.instance? id = some i → h.module? i.module = some m →
    h.runtime? m.runtime = some r → ∀ f ∈ r.natives, ∃ n, f = .native n

omit [Holder σ] [Rule σ] in
/-- An instance keeps its runtime, and that its callbacks. -/
theorem Host.Sandboxed.since {h h' : Host σ} {g : Pending} {id : Nat} (sandboxed : h.Sandboxed id)
    (since : h.Since h') (chained : Config.Chained ⟨h, g⟩) (old : id < h.instances.next) :
    h'.Sandboxed id := by
  intro i m r there module runtime
  obtain ⟨j, before, same, -⟩ := since.instance? old there
  have older := (chained.instances id j before).1
  rw [same] at older
  have loaded := since.module? older module
  have made := since.runtime? (chained.modules _ m loaded).1 runtime
  exact sandboxed j m r before (same ▸ loaded) made

/-- Where the runtime offers no others, guests import none. -/
theorem Config.Linked.sandboxed {h : Host σ} {g : Pending} (linked : Config.Linked ⟨h, g⟩)
    (sound : Config.Sound ⟨h, g⟩) {id : Nat} {i : Instance} {s : Store}
    (present : h.instance? id = some i) (idle : i.store = some s) (sandboxed : h.Sandboxed id) :
    s.guest.Sandboxed := by
  have refs : 0 < h.refs .inst id .module i.module := by
    simp [Host.refs, present, Instance.refs, Holds.on]
  obtain ⟨c, hc⟩ := Option.isSome_iff_exists.1 (sound.has_of_refs refs)
  have module : h.module? i.module = some c.value := by simp [Host.module?, hc]
  have refs : 0 < h.refs .module i.module .runtime c.value.runtime := by
    simp [Host.refs, module, LoadedModule.refs, Holds.on]
  obtain ⟨d, hd⟩ := Option.isSome_iff_exists.1 (sound.has_of_refs refs)
  have runtime : h.runtime? c.value.runtime = some d.value := by simp [Host.runtime?, hd]
  intro f imports
  obtain ⟨c', hc', rfl⟩ := Option.map_eq_some_iff.1 present
  have custody := Config.custody?_of_get? (c := ⟨h, g⟩) hc'
  have free := (sound.custody id _ custody).free idle
  exact sandboxed _ _ _ present module runtime f
    (linked id _ _ _ custody module runtime s _ (Custody.store?_idle free idle) imports)

end Embedder
