import Embedder.Host.Blocks
import Embedder.Host.Loading
import Embedder.Proofs.Host.Ownership

namespace Embedder

open Session (Kind)

/-!
# Creating objects

Operations that create an object leave a hold on it to the caller. When they fail, nothing is left:
what had been charged and held so far is given up again.

* `Takes`: what an operation leaves in hand, done or failed.
* `Keeps`: operations that leave in hand what was.
* `ends_load`, `ends_createEnvironment`, `ends_allocate`: the operations that run no code.
-/

variable {σ α β : Type} [Holder σ] [Rule σ] {allowed : Effect → Prop} {h : Host σ} {g g' : Pending}

/-! ### What an operation leaves in hand -/

/-- An operation makes nothing but changes. Done, it leaves in hand what `gain` says, and failed,
what `back` says. -/
def Takes (allowed : Effect → Prop) (x : HostM σ α) (c : Config σ) (gain : α → Pending)
    (back : Pending) : Prop :=
  Ends x c.host (fun a h => Leads allowed c ⟨h, gain a⟩) fun _ h => Leads allowed c ⟨h, back⟩

/-- An operation leaves in hand what was, however it ends. -/
def Keeps (allowed : Effect → Prop) (x : HostM σ α) (c : Config σ) : Prop :=
  Takes allowed x c (fun _ => c.pending) c.pending

section

variable {x : HostM σ α} {f : α → HostM σ β} {c : Config σ} {mid : α → Pending}
  {gain : β → Pending} {back : Pending}

/-- To return what is in hand. -/
theorem takes_pure {a : α} (lead : Leads allowed c ⟨c.host, mid a⟩) :
    Takes allowed (pure a) c mid back := lead

/-- To fail with what was in hand before. -/
theorem takes_throw {e : Error} (lead : Leads allowed c ⟨c.host, back⟩) :
    Takes allowed (throw e) c mid back := lead

/-- One part after another: the second one has in hand what the first one took. -/
theorem takes_bind (first : Takes allowed x c mid back)
    (rest : ∀ a h, Takes allowed (f a) ⟨h, mid a⟩ gain back) : Takes allowed (x >>= f) c gain back := by
  refine ends_bind first fun a h lead => ?_
  exact (rest a h).mono (fun _ _ => lead.trans) (fun _ _ => lead.trans)

end

/-! ### Charges -/

omit [Holder σ] [Rule σ] in
/-- A charge is taken, or nothing is. -/
theorem ends_lease {commons n : Nat} {resource : Resource} {Q : Unit → Host σ → Prop}
    {E : Error → Host σ → Prop}
    (charged : ∀ c budget, h.commons? commons = some c → c.budget.reserve? n = some budget →
      Q () (h.modifyBudget commons fun _ => budget))
    (refused : ∀ e, E e h) : Ends (HostM.lease commons n resource) h Q E := by
  simp only [HostM.lease, ends_bind_iff, ends_get, ends_ofOption, ends_ofExcept, ends_modify]
  refine ⟨fun c present => ⟨fun budget lease => ?_, fun e _ => refused e⟩, fun _ => refused _⟩
  unfold Budget.lease at lease
  split at lease
  case h_1 fits =>
    cases lease
    exact charged c _ present fits
  case h_2 => cases lease

/-! ### Runtimes and modules -/

/-- A new runtime is in hand, or nothing is. -/
theorem takes_createRuntime (config : RuntimeConfig) (groups : List NativeGroup) (output : Output)
    (clock : Clock) :
    Takes allowed (HostM.createRuntime config groups output clock) ⟨h, g⟩
      (fun made => g.pin .runtime made.1) g := by
  simp only [Takes, HostM.createRuntime, ends_bind_iff, ends_ofExcept]
  refine ⟨fun budget made => ?_, fun e refused => .refl⟩
  have empty : budget.inUse = 0 := by
    unfold Budget.ofCapacity at made
    split at made <;> cases made
    rfl
  split
  · exact Leads.refl
  · simp only [ends_bind_iff, ends_pure, ends_ofExcept, ends_get, ends_set]
    exact ⟨fun natives _ => .of_change (.runtimeMade empty rfl), fun _ _ => .refl⟩

/-- The charge for bytecode becomes a module's, or is given back. -/
theorem ends_keepModule {runtime : Nat} {r : Runtime} (present : h.runtime? runtime = some r)
    (bytecode : Bytes) {decoded : Option Wasm.Module}
    (valid : ∀ wasm, decoded = some wasm → wasm.isValid = true) :
    Ends (HostM.keepModule runtime r bytecode decoded) h
      (fun id h' => (h'.module? id).isSome ∧ Leads allowed ⟨h, g⟩ ⟨h', g.pin .module id⟩)
      fun _ h' => Leads allowed ⟨h, g⟩ ⟨h', g⟩ := by
  unfold HostM.keepModule
  rw [ends_bind_iff]
  refine ends_lease (fun c budget hc fits => ?_) fun _ => .refl
  generalize hh : (h.modifyBudget r.commons fun _ => budget) = h₁
  have there : h₁.runtime? runtime = some r := hh ▸ present
  -- From here on the charge is owed, until a module takes it over or it goes back.
  have charged : Leads allowed ⟨h, g⟩ ⟨h₁, g.owe (.of r.commons bytecode.length)⟩ :=
    hh ▸ .of_change (.lease hc fits)
  refine ends_tryCatch
    (F := fun _ h' => Leads allowed ⟨h, g⟩ ⟨h', g.owe (.of r.commons bytecode.length)⟩) ?_ ?_
  · simp only [ends_bind_iff, ends_ofOption, ends_modify, ends_get, ends_set, ends_pure]
    refine ⟨fun wasm found => ⟨?_, ?_⟩, fun _ => charged⟩
    · simp [Host.module?, Pool.get?_insert]
    · have kept : (h₁.retainRuntime runtime).runtime? runtime = some r := by simpa using there
      refine charged.trans ((leads_retainRuntime there).trans (.of_change ?_))
      exact @Change.moduleMade _ _ _ _ _ g ⟨runtime, r.commons, bytecode, wasm⟩ r kept rfl
        (valid wasm found)
  · intro e h' lead
    simp only [ends_bind_iff, ends_modify, ends_throw]
    exact lead.trans (.of_change .giveBack)

/-- A loaded module is there and in hand, or nothing is. -/
theorem ends_load [Engine] (runtime : Nat) (bytecode : Bytes) :
    Ends (HostM.load runtime bytecode) h
      (fun id h' => (h'.module? id).isSome ∧ Leads allowed ⟨h, g⟩ ⟨h', g.pin .module id⟩)
      fun _ h' => Leads allowed ⟨h, g⟩ ⟨h', g⟩ := by
  simp only [HostM.load, ends_bind_iff, ends_runtime]
  refine ⟨fun r present => ?_, fun _ => .refl⟩
  unfold HostM.checkSize
  split
  · exact Leads.refl
  · unfold HostM.checkHeader
    split
    · exact Leads.refl
    · split
      · exact Leads.refl
      · exact ends_keepModule present bytecode fun _ => Engine.isValid_of_decode?

/-- So is a module that is loaded from a text. -/
theorem ends_loadText [Engine] (runtime : Nat) (text : String) :
    Ends (HostM.loadText runtime text) h
      (fun id h' => (h'.module? id).isSome ∧ Leads allowed ⟨h, g⟩ ⟨h', g.pin .module id⟩)
      fun _ h' => Leads allowed ⟨h, g⟩ ⟨h', g⟩ := by
  simp only [HostM.loadText, ends_bind_iff, ends_runtime]
  refine ⟨fun r present => ?_, fun _ => .refl⟩
  unfold HostM.checkSize
  split
  · exact Leads.refl
  · exact ends_keepModule present _ fun _ => Engine.isValid_of_ofText?

/-! ### Environments -/

/-- A new environment is the instance's. -/
theorem ends_createEnvironment {id : Nat} (stack : Nat)
    (shared : (h.instance? id).isSome → Config.Shared ⟨h, g⟩ id) :
    Ends (HostM.createEnvironment id stack) h
      (fun e h' => e = h.environments.next ∧
        (∃ e', h'.environments.get? e = some e' ∧ e'.inst = id) ∧
        Leads allowed ⟨h, g⟩ ⟨h', g.pin .environment e⟩)
      fun _ h' => Leads allowed ⟨h, g⟩ ⟨h', g⟩ := by
  simp only [HostM.createEnvironment, ends_bind_iff, ends_inst, ends_module, ends_runtime]
  refine ⟨fun i present => ⟨fun m _ => ⟨fun r _ => ?_, fun _ => .refl⟩, fun _ => .refl⟩,
    fun _ => .refl⟩
  split
  · exact Leads.refl
  · simp only [ends_bind_iff, ends_pure]
    refine ends_lease (fun c budget hc fits => ?_) fun _ => .refl
    generalize hh : (h.modifyBudget i.commons fun _ => budget) = h₁
    have there : h₁.instance? id = some i := hh ▸ present
    -- The charge is owed until the environment takes it over.
    have charged : Leads allowed ⟨h, g⟩ ⟨h₁, g.owe (.of i.commons stack)⟩ :=
      hh ▸ .of_change (.lease hc fits)
    have shared : Config.Shared ⟨h₁, g.owe (.of i.commons stack)⟩ id :=
      hh ▸ shared (by rw [present]; rfl)
    simp only [ends_modify, ends_get, ends_set]
    have kept : (h₁.retainInstance id).instance? id = some i := by simpa using there
    refine ⟨hh ▸ rfl, ⟨_, Pool.get?_inserted _ _, rfl⟩, ?_⟩
    refine charged.trans ((leads_retainInstance shared).trans (.of_change ?_))
    exact @Change.environmentMade _ _ _ _ _ g ⟨id, i.commons, stack, .empty⟩ i kept rfl

/-! ### Blocks -/

omit [Rule σ] in
/-- What holds an instance does so whatever is in its store. -/
theorem Config.Shared.putStore {id j : Nat} {s : Option Store} (shared : Config.Shared ⟨h, g⟩ id) :
    Config.Shared ⟨h.modifyInstance j fun i => { i with store := s }, g⟩ id := by
  have same : (h.modifyInstance j fun i => { i with store := s }).inner .inst id =
      h.inner .inst id := by
    have inner := h.inner_instances .inst id
      (h.instances.modify j fun c => { c with value := { c.value with store := s } })
    rw [Pool.total_modify_of_eq] at inner
    · exact Nat.add_right_cancel inner
    · intro c
      rfl
  show 0 < Holder.holds h.app .inst id + g.pins .inst id + Host.inner _ .inst id
  rw [same]
  exact shared

/-- What has another holder on the one host has one on the other one. -/
def SharesAlike (h h' : Host σ) : Prop :=
  ∀ g id, Config.Shared ⟨h, g⟩ id → Config.Shared ⟨h', g⟩ id

/-- Between calls the host changes contents of a guest. -/
theorem leads_edit {id : Nat} {i : Instance} {s s' : Store} (present : h.instance? id = some i)
    (idle : i.store = some s) (guest : s.guest.Extends s'.guest) (heap : s'.heap = s.heap)
    (latch : s'.latch = s.latch) (active : s'.active = s.active) :
    Leads allowed ⟨h, g⟩ ⟨h.modifyInstance id fun i => { i with store := some s' }, g⟩ := by
  obtain ⟨c, hc, rfl⟩ := Option.map_eq_some_iff.1 present
  rw [Host.modifyInstance_congr hc (fun _ => { c.value with store := some s' }) rfl]
  exact leads_modifyInstance hc (.edit idle guest heap latch active)

/-- A block that is taken waits for its owner. -/
theorem ends_allocBlock (id bytes : Nat)
    (shared : (h.instance? id).isSome → Config.Shared ⟨h, g⟩ id) :
    Ends (HostM.allocBlock id bytes) h
      (fun address h' => Config.Shared ⟨h', g⟩ id ∧
        Leads allowed ⟨h, g⟩ ⟨h', g.take id ⟨address, bytes⟩⟩)
      fun _ h' => Leads allowed ⟨h, g⟩ ⟨h', g⟩ := by
  unfold HostM.allocBlock
  split
  · exact Leads.refl
  · simp only [ends_bind_iff, ends_pure, ends_store, ends_ofOption, ends_putStore]
    refine ⟨fun i present s idle => ⟨fun heap hheap => ⟨?_, fun _ => .refl⟩, fun _ => .refl⟩,
      fun _ _ _ => .refl, fun _ => .refl⟩
    rintro ⟨address, heap'⟩ fits
    refine ⟨(shared (by rw [present]; rfl)).putStore, ?_⟩
    obtain ⟨c, hc, rfl⟩ := Option.map_eq_some_iff.1 present
    -- The span is live in the heap, and in hand.
    have step : Evolves allowed id ⟨c.value, g.held id, g.taken id⟩ 0
        ⟨{ c.value with store := some { s with heap := some heap' } }, g.held id,
          ⟨address, bytes⟩ :: g.taken id⟩ := .alloc idle hheap fits
    have lead := leads_evolve hc step rfl
    rw [Host.modifyInstance_congr hc (fun _ =>
      { c.value with store := some { s with heap := some heap' } }) rfl]
    simp only [Function.update_eq_self] at lead
    exact lead

/-- What happens when the host changes a stretch of an instance's memory. -/
theorem ends_changeMemory (id : Nat) (e : Wasm.Memory → Error)
    (change : Wasm.Memory → Option Wasm.Memory)
    (shape : ∀ m m', change m = some m' → m'.size = m.size ∧ m'.maximum = m.maximum) :
    Ends (do
        let (s, i, m) ← HostM.exportedMemory id
        let m ← HostM.ofOption (e m) (change m)
        HostM.putStore id { s with guest := s.guest.setMemory i m }) h
      (fun _ h' => SharesAlike h h' ∧ ∀ g, Leads allowed ⟨h, g⟩ ⟨h', g⟩) fun _ h' => h' = h := by
  simp only [HostM.exportedMemory, ends_bind_iff, ends_pure, ends_inst, ends_store, ends_ofOption,
    ends_putStore, implies_true, and_true]
  intro i present memory exported i' present' s idle m hm m' changed
  obtain ⟨size, maximum⟩ := shape m m' changed
  refine ⟨fun g id' shared => shared.putStore, fun g => ?_⟩
  exact leads_edit present' idle (Wasm.Guest.extends_setMemory hm size maximum) rfl rfl rfl

/-- To write bytes changes the memory of one instance, or nothing. -/
theorem ends_writeBytes (id address : Nat) (bytes : Bytes) :
    Ends (HostM.writeBytes id address bytes) h
      (fun _ h' => SharesAlike h h' ∧ ∀ g, Leads allowed ⟨h, g⟩ ⟨h', g⟩) fun _ h' => h' = h :=
  ends_changeMemory id (fun m => outside address bytes.length m.size) (·.write? address bytes)
    fun _ _ => Wasm.Guest.write?_shape

/-- So does to zero bytes. -/
theorem ends_zeroBytes (id address count : Nat) :
    Ends (HostM.zeroBytes id address count) h
      (fun _ h' => SharesAlike h h' ∧ ∀ g, Leads allowed ⟨h, g⟩ ⟨h', g⟩) fun _ h' => h' = h :=
  ends_changeMemory id (fun m => outside address count m.size) (·.fill? address count 0)
    fun _ _ => Wasm.Guest.fill?_shape

/-- A block in hand gets its owner once it is written, or goes back. -/
theorem ends_keepBlock {h₀ : Host σ} {b : Block} {write : HostM σ Unit}
    (aligned : b.type.isAligned) (keeps : allowed (.keeps b.inst))
    (shared : Config.Shared ⟨h, g⟩ b.inst)
    (taken : Leads allowed ⟨h₀, g⟩ ⟨h, g.take b.inst ⟨b.start, Host.blockBytes b⟩⟩)
    (wrote : Ends write h
      (fun _ h' => SharesAlike h h' ∧ ∀ g, Leads allowed ⟨h, g⟩ ⟨h', g⟩) fun _ h' => h' = h) :
    Ends (HostM.keepBlock b write) h
      (fun id h' => (h'.blocks.get? id).isSome ∧ Leads allowed ⟨h₀, g⟩ ⟨h', g.pin .block id⟩)
      fun _ h' => Leads allowed ⟨h₀, g⟩ ⟨h', g⟩ := by
  unfold HostM.keepBlock
  rw [ends_bind_iff]
  refine ends_tryCatch (F := fun _ h' => h' = h) ?_ ?_
  · refine wrote.mono (fun _ h' done => ?_) fun _ _ => id
    obtain ⟨alike, lead⟩ := done
    have shared' : Config.Shared ⟨h', g.take b.inst ⟨b.start, Host.blockBytes b⟩⟩ b.inst :=
      alike _ _ shared
    simp only [ends_bind_iff, ends_modify, ends_get, ends_set, ends_pure]
    -- What was written concerns the contents only, so the span in hand becomes the block's.
    refine ⟨by simp [Pool.get?_insert], ?_⟩
    refine taken.trans ((lead _).trans ((leads_retainInstance shared').trans (.of_change ?_)))
    exact @Change.blockMade _ _ _ _ _ g b aligned keeps
  · intro e h' same
    simp only [ends_bind_iff, ends_modify, ends_throw]
    exact taken.trans (same ▸ leads_freeBlock b.inst ⟨b.start, Host.blockBytes b⟩)

/-- An allocated block is there and in hand, or nothing is. -/
theorem ends_allocate {id : Nat} (t : GuestType) (value : Datum) (keeps : allowed (.keeps id))
    (shared : (h.instance? id).isSome → Config.Shared ⟨h, g⟩ id) :
    Ends (HostM.allocate id t value) h
      (fun block h' => (h'.blocks.get? block).isSome ∧
        Leads allowed ⟨h, g⟩ ⟨h', g.pin .block block⟩) fun _ h' => Leads allowed ⟨h, g⟩ ⟨h', g⟩ := by
  unfold HostM.allocate HostM.takeBlock
  split
  case isTrue aligned =>
    refine ends_bind (ends_allocBlock id t.size shared) fun address h₁ ⟨shared, lead⟩ => ?_
    refine ends_keepBlock aligned keeps shared (lead.cast ?_) (ends_writeBytes id address _)
    simp only [Block.start, Host.blockBytes, Option.getD_none, Nat.one_mul]
  case isFalse => exact Leads.refl

/-- An array that fits into the addresses keeps as many elements as make up its bytes. -/
theorem keptCount_mul {count size : Nat} (fits : count * size < addressRange) :
    HostM.keptCount count * size = count * size := by
  rcases Nat.eq_zero_or_pos size with rfl | pos
  · rfl
  · have le : count ≤ count * size := Nat.le_mul_of_pos_right count pos
    rw [HostM.keptCount, Nat.min_eq_left (by omega)]

/-- Nothing is lost of how many elements there are, unless they are of no bytes. -/
theorem keptCount_of_pos {count size : Nat} (pos : 0 < size) (fits : count * size < addressRange) :
    HostM.keptCount count = count :=
  Nat.eq_of_mul_eq_mul_right pos (keptCount_mul fits)

/-- So is an allocated array. -/
theorem ends_allocateArray {id : Nat} (t : GuestType) (count : Nat) (keeps : allowed (.keeps id))
    (shared : (h.instance? id).isSome → Config.Shared ⟨h, g⟩ id) :
    Ends (HostM.allocateArray id t count) h
      (fun block h' => (h'.blocks.get? block).isSome ∧
        Leads allowed ⟨h, g⟩ ⟨h', g.pin .block block⟩) fun _ h' => Leads allowed ⟨h, g⟩ ⟨h', g⟩ := by
  unfold HostM.allocateArray HostM.takeBlock
  dsimp only
  split
  · exact Leads.refl
  · rename_i fits
    split
    case isTrue aligned =>
      refine ends_bind (ends_allocBlock id _ shared) fun address h₁ ⟨shared, lead⟩ => ?_
      refine ends_keepBlock aligned keeps shared (lead.cast ?_) (ends_zeroBytes id address _)
      simp only [Block.start, Host.blockBytes, Option.getD_some,
        keptCount_mul (Nat.lt_of_not_le fits)]
    case isFalse => exact Leads.refl

end Embedder
