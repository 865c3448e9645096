import Embedder.Proofs.Host.Liveness
import Embedder.Proofs.Session.Steps

namespace Embedder

open Session (Kind Step Slot Slots hookedPrinter runWith empty)

/-!
# Budgets over a session

Whatever a session is asked, and in whatever order its objects are dropped, each budget is charged
for the modules, instances and environments that can still be reached, and for nothing else.

* `Host.moduleBytes`, `Host.instanceBytes`, `Host.environmentBytes`: what there is to charge for.
* `Creation`: the operations that create an object.
* `Session.Conserved`, `run_conserves_budgets`: the books, and that they are always in order.
-/

variable [Engine] {σ α : Type}

/-! ### What there is to charge for -/

/-- The bytes of all memories of an instance at rest. -/
def Instance.memoryBytes (i : Instance) : Nat :=
  (i.store.map fun s => s.guest.memoryBytes).getD 0

namespace Host

/-- The bytecode of all modules of a budget. -/
def moduleBytes (h : Host σ) (budget : Nat) : Nat :=
  h.modules.total fun m => if m.value.commons = budget then m.value.bytecode.length else 0

/-- The stacks and memories of all instances of a budget. -/
def instanceBytes (h : Host σ) (budget : Nat) : Nat :=
  h.instances.total fun i =>
    if i.value.commons = budget then i.value.stackSize + i.value.memoryBytes else 0

/-- The stacks of all environments of a budget. -/
def environmentBytes (h : Host σ) (budget : Nat) : Nat :=
  h.environments.total fun e => if e.commons = budget then e.stackSize else 0

end Host

/-! ### What creates an object -/

/-- The operations that create an object, where what is printed goes to the output only. -/
inductive Creation : HostM σ Nat → Prop
  | load (runtime : Nat) (bytecode : Bytes) : Creation (HostM.load runtime bytecode)
  | loadText (runtime : Nat) (text : String) : Creation (HostM.loadText runtime text)
  | instantiate (module stack heap : Nat) :
      Creation (HostM.instantiate Host.emit module stack heap)
  | createEnvironment (inst stack : Nat) : Creation (HostM.createEnvironment inst stack)
  | allocate (inst : Nat) (type : GuestType) (value : Datum) :
      Creation (HostM.allocate inst type value)
  | allocateArray (inst : Nat) (type : GuestType) (count : Nat) :
      Creation (HostM.allocateArray inst type count)
  | createRunner (runtime : Nat) (bytecode eventId payload : Bytes) (config : ModuleConfig)
      (execStack : Nat) :
      Creation (HostM.createRunner Host.emit runtime bytecode eventId payload config execStack)

section

variable [Holder σ] [Rule σ] {h : Host σ}

omit [Engine] in
/-- Between operations, an instance that is there has another holder than a call. -/
theorem Config.Sound.shared {id : Nat} (ha : Config.Sound ⟨h, .none⟩)
    (present : (h.instance? id).isSome) : Config.Shared ⟨h, .none⟩ id := by
  have has : h.has .inst id := by simpa [Host.has, Host.instance?] using present
  have pos := (ha.has_iff (by decide)).1 has
  rw [ha.holders_eq (by decide)] at pos
  show 0 < Holder.holds h.app .inst id + 0 + h.inner .inst id
  omega

/-- Nothing is allowed but to set user data and to give blocks an owner. -/
def Effect.Furnishes (e : Effect) : Prop :=
  (∃ environment, e = .lends environment) ∨ ∃ id, e = .keeps id

/-- A creation that fails leaves nothing in hand, renames nothing and enters no instance. -/
theorem Creation.fails {x : HostM σ Nat} (creation : Creation x) (ha : Config.Sound ⟨h, .none⟩)
    {e : Error} {t : Host σ} (failed : exec x h = (.error e, t)) :
    Leads Effect.Furnishes ⟨h, .none⟩ ⟨t, .none⟩ := by
  -- Every creation leads somewhere whether or not it succeeds; a failure has nothing in hand.
  suffices ends : Ends x h (fun _ _ => True)
      (fun _ t => Leads Effect.Furnishes ⟨h, .none⟩ ⟨t, .none⟩) from ends.of_error failed
  cases creation with
  | load runtime bytecode =>
    exact (ends_load runtime bytecode).mono (fun _ _ _ => trivial) fun _ _ lead => lead
  | loadText runtime text =>
    exact (ends_loadText runtime text).mono (fun _ _ _ => trivial) fun _ _ lead => lead
  | instantiate module stack heap =>
    exact (ends_instantiate traced_emit module stack heap ha).mono (fun _ _ _ => trivial)
      fun _ _ lead => lead
  | createEnvironment inst stack =>
    exact (ends_createEnvironment stack ha.shared).mono (fun _ _ _ => trivial) fun _ _ lead => lead
  | allocate inst type value =>
    exact (ends_allocate type value (.inr ⟨inst, rfl⟩) ha.shared).mono (fun _ _ _ => trivial)
      fun _ _ lead => lead
  | allocateArray inst type count =>
    exact (ends_allocateArray type count (.inr ⟨inst, rfl⟩) ha.shared).mono (fun _ _ _ => trivial)
      fun _ _ lead => lead
  | createRunner runtime bytecode eventId payload config execStack =>
    exact (ends_createRunner traced_emit (fun e _ => .inl ⟨e, rfl⟩) runtime bytecode eventId payload
      config execStack ha).mono (fun _ _ _ => trivial) fun _ _ lead => lead

end

/-! ### The books -/

/-- The books of a session are in order. -/
structure Session.Conserved (s : Session) : Prop where
  /-- There is what some name reaches, and nothing else. -/
  live : ∀ k id, k ≠ .commons → (s.has k id ↔ s.Live k id)
  /-- A module is charged to the budget of its runtime. -/
  module : ∀ id m, s.module? id = some m →
    ∃ r, s.runtime? m.runtime = some r ∧ m.commons = r.commons
  /-- An instance is at rest, and charged to the budget of its module. -/
  inst : ∀ id i, s.instance? id = some i →
    i.store.isSome ∧ ∃ m, s.module? i.module = some m ∧ i.commons = m.commons
  /-- An environment is charged to the budget of its instance. -/
  environment : ∀ id e, s.environments.get? id = some e →
    ∃ i, s.instance? e.inst = some i ∧ e.commons = i.commons
  /-- A budget is charged for all that there is of it. -/
  charged : ∀ id c, s.commons? id = some c →
    c.budget.inUse = s.moduleBytes id + s.instanceBytes id + s.environmentBytes id
  /-- No budget is overdrawn. -/
  within : ∀ id c, s.commons? id = some c → c.budget.inUse ≤ c.budget.capacity
  /-- What could not be created is not charged. -/
  failed : ∀ x, Creation x → ∀ e t, exec x s = (.error e, t) → t.inUse = s.inUse
  /-- When all names are given up, nothing is charged. -/
  dropped : (∀ slot id, s.app.names.get? slot = some id → slot.kind = .commons) →
    ∀ id c, s.commons? id = some c → c.budget.inUse = 0

namespace Session

/-! ### A session with nothing in it -/

omit [Engine] in
theorem balanced_empty : Config.Balanced ⟨empty, .none⟩ :=
  ⟨fun _ => rfl, fun _ => Nat.le_refl 0⟩

/-! ### A session at any time -/

variable [HookRule] {s : Session}

omit [Engine] in
/-- What the objects of a budget are charged with is what they amount to. -/
theorem charged_eq (sound : Config.Sound ⟨s, .none⟩)
    (metered : ∀ id x, Config.custody? ⟨s, .none⟩ id = some x → x.Metered) (budget : Nat) :
    s.charged budget =
      s.moduleBytes budget + s.instanceBytes budget + s.environmentBytes budget := by
  have modules : (s.modules.total fun c => c.value.charge budget) = s.moduleBytes budget :=
    Pool.total_congr _ fun _ _ _ => by simp only [LoadedModule.charge, Charges.of, eq_comm]
  have instances : (s.instances.total fun c => c.value.charge budget) = s.instanceBytes budget := by
    refine Pool.total_congr _ fun id c hc => ?_
    have custody := Config.custody?_of_get? (c := ⟨s, .none⟩) hc
    obtain ⟨store, idle⟩ := Option.isSome_iff_exists.1 ((sound.custody id _ custody).idle rfl)
    have meter := (metered id _ custody).idle store idle
    dsimp only at idle meter
    simp only [Instance.charge, Charges.of, Instance.memoryBytes, idle, meter, Option.map_some,
      Option.getD_some, eq_comm]
  have environments : (s.environments.total fun e => e.charge budget) = s.environmentBytes budget :=
    Pool.total_congr _ fun _ _ _ => by simp only [Environment.charge, Charges.of, eq_comm]
  simp only [Host.charged, modules, instances, environments]

omit [Engine] [HookRule] in
/-- Where there is nothing that can be charged for, nothing is charged. -/
theorem charged_eq_zero (gone : ∀ k id, k ≠ .commons → s.has k id = false) (budget : Nat) :
    s.charged budget = 0 := by
  have modules : (s.modules.total fun c => c.value.charge budget) = 0 := by
    refine (Pool.total_eq_zero_iff _ _).2 fun id m there => ?_
    simpa [Host.has, there] using gone .module id (by decide)
  have instances : (s.instances.total fun c => c.value.charge budget) = 0 := by
    refine (Pool.total_eq_zero_iff _ _).2 fun id i there => ?_
    simpa [Host.has, there] using gone .inst id (by decide)
  have environments : (s.environments.total fun e => e.charge budget) = 0 := by
    refine (Pool.total_eq_zero_iff _ _).2 fun id e there => ?_
    simpa [Host.has, there] using gone .environment id (by decide)
  simp only [Host.charged, modules, instances, environments]

/-- The books of a session are in order if its host is sound and balanced. -/
theorem conserved_of_sound (sound : Config.Sound ⟨s, .none⟩)
    (balanced : Config.Balanced ⟨s, .none⟩) (chained : Config.Chained ⟨s, .none⟩)
    (metered : ∀ id x, Config.custody? ⟨s, .none⟩ id = some x → x.Metered) : s.Conserved where
  live _ _ hk := sound.has_iff_live hk
  -- What an object refers to is there, and both are charged to the same budget.
  module := by
    intro id m present
    have refs : 0 < s.refs .module id .runtime m.runtime := by
      simp [Host.refs, present, LoadedModule.refs, Holds.on]
    obtain ⟨c, hc⟩ := Option.isSome_iff_exists.1 (sound.has_of_refs refs)
    have runtime : s.runtime? m.runtime = some c.value := by simp [Host.runtime?, hc]
    exact ⟨c.value, runtime, (chained.modules id m present).2 _ runtime⟩
  inst := by
    intro id i present
    obtain ⟨d, hd, rfl⟩ := Option.map_eq_some_iff.1 present
    refine ⟨(sound.custody id _ (Config.custody?_of_get? hd)).idle rfl, ?_⟩
    have refs : 0 < s.refs .inst id .module d.value.module := by
      simp [Host.refs, present, Instance.refs, Holds.on]
    obtain ⟨c, hc⟩ := Option.isSome_iff_exists.1 (sound.has_of_refs refs)
    have module : s.module? d.value.module = some c.value := by simp [Host.module?, hc]
    exact ⟨c.value, module, (chained.instances id d.value present).2 _ module⟩
  environment := by
    intro id e present
    have refs : 0 < s.refs .environment id .inst e.inst := by
      simp [Host.refs, present, Environment.refs, Holds.on]
    obtain ⟨c, hc⟩ := Option.isSome_iff_exists.1 (sound.has_of_refs refs)
    have inst : s.instance? e.inst = some c.value := by simp [Host.instance?, hc]
    exact ⟨c.value, inst, (chained.environments id e present).2 _ inst⟩
  charged := by
    intro id c present
    have inUse : s.inUse id = c.budget.inUse := by simp [Host.inUse, present]
    have charged : s.inUse id = s.charged id := balanced.charged id
    rw [← inUse, charged, charged_eq sound metered]
  within := by
    intro id c present
    have within := balanced.within id
    simpa [Host.inUse, Host.capacity, present] using within
  failed := fun x creation e t failed =>
    inUse_of_denied (creation.fails sound failed) nofun (fun _ => nofun) sound balanced
  dropped := by
    intro commons id c present
    have inUse : s.inUse id = c.budget.inUse := by simp [Host.inUse, present]
    have charged : s.inUse id = s.charged id := balanced.charged id
    have none : ∀ k id, k ≠ .commons → Holder.holds s.app k id = 0 := by
      intro k id hk
      refine (Table.tally_eq_zero_iff _ _).2 fun slot j named => if_neg ?_
      rintro ⟨rfl, -⟩
      exact hk (commons slot j named)
    rw [← inUse, charged, charged_eq_zero fun k j hk => sound.gone none hk]

omit [HookRule] in
/-- **Budgets are conserved.** After any steps, whatever hooks have done meanwhile, the books of a
session are in order; and memory that is refused changes nothing. -/
theorem run_conserves_budgets (steps : List Step) :
    (runWith hookedPrinter steps empty).2.Conserved ∧
      ∀ (s : Flight Slots) (c : Caller) (memory pages : Nat),
        s.growMemory? c memory pages = none →
          exec (FlightM.growMemory c memory pages) s = (.ok (.i32 (-1)), s) := by
  let rule : HookRule := .any
  refine ⟨?_, fun s c memory pages refused => ?_⟩
  · have lead := leads_run (fun _ => trivial) steps
    have start := sound_empty rfl
    refine conserved_of_sound (lead.sound start) ?_ ?_ ?_
    · exact lead.induct start (fun _ _ _ step => step.balanced) balanced_empty
    · exact lead.induct start (fun _ _ _ step => step.chained) chained_empty
    · refine lead.induct (P := fun c => ∀ id x, c.custody? id = some x → x.Metered) start
        (fun _ _ sound step => step.metered sound) ?_
      exact fun _ _ h => (nomatch h)
  · have look : exec (get : FlightM Slots (Flight Slots)) s = (.ok s, s) := rfl
    simp only [FlightM.growMemory, exec_bind, look, refused]
    rfl

end Session

end Embedder
