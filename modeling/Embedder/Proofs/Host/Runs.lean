import Embedder.Host.Benchmark
import Embedder.Proofs.Host.Calls
import Embedder.Proofs.Host.Cells
import Embedder.Proofs.Host.Lineage

namespace Embedder

/-!
# Inspection, runners and benchmarks

What is made of calls and of access to an instance at rest leaves in hand what was, too.

* `keeps_setGlobal`, `keeps_clearException` and the like: access to an instance at rest.
* `ends_createRunner`: a runner takes over the holds on all that it was made of.
* `Settling`: what a runner's run may clear.
* `keeps_runPlain`, `keeps_runInstrumented`, `keeps_resetRunner`, `keeps_benchmark`: its runs.
-/

variable {σ α β : Type} [Holder σ] [Rule σ] {allowed : Effect → Prop} {printer : Printer σ} {h : Host σ}
  {g : Pending}

/-! ### Composition -/

section

variable {x : HostM σ α} {c : Config σ}

/-- What an operation does may be shown of a sound host. -/
theorem takes_of_sound {gain : α → Pending} {back : Pending}
    (takes : c.Sound → Takes allowed x c gain back) : Takes allowed x c gain back := by
  unfold Takes Ends at *
  generalize exec x c.host = r at *
  obtain ⟨e | a, t⟩ := r
  · exact .of_sound takes
  · exact .of_sound takes

/-- One operation after another leaves in hand what was. -/
theorem keeps_bind {f : α → HostM σ β} (first : Keeps allowed x ⟨h, g⟩)
    (rest : ∀ a h, Keeps allowed (f a) ⟨h, g⟩) : Keeps allowed (x >>= f) ⟨h, g⟩ :=
  takes_bind first rest

/-- One operation after another, the second one on a host that comes from the first one's. -/
theorem keeps_bind_since {f : α → HostM σ β} (first : Keeps allowed x ⟨h, g⟩)
    (rest : ∀ a h', h.Since h' → Keeps allowed (f a) ⟨h', g⟩) :
    Keeps allowed (x >>= f) ⟨h, g⟩ :=
  takes_of_sound fun ha => ends_bind first fun a h' lead =>
    (rest a h' (lead.since ha)).mono (fun _ _ => lead.trans) fun _ _ => lead.trans

/-- So does one whose error is handled. -/
theorem keeps_tryCatch {handler : Error → HostM σ α} (first : Keeps allowed x ⟨h, g⟩)
    (handled : ∀ e h, Keeps allowed (handler e) ⟨h, g⟩) :
    Keeps allowed (tryCatch x handler) ⟨h, g⟩ :=
  ends_tryCatch first fun e h' lead =>
    (handled e h').mono (fun _ _ => lead.trans) fun _ _ => lead.trans

/-- An operation that only looks. -/
theorem keeps_of_same (same : Ends x h (fun _ h' => h' = h) fun _ h' => h' = h) :
    Keeps allowed x ⟨h, g⟩ :=
  same.mono (fun _ _ eq => eq ▸ .refl) fun _ _ eq => eq ▸ .refl

/-- To return something changes nothing. -/
theorem keeps_pure (a : α) : Keeps allowed (pure a) ⟨h, g⟩ :=
  takes_pure .refl

/-- To fail changes nothing. -/
theorem keeps_throw (e : Error) : Keeps allowed (throw e : HostM σ α) ⟨h, g⟩ :=
  takes_throw .refl

/-- A change that leads on with the same in hand. -/
theorem keeps_modify {f : Host σ → Host σ} (lead : Leads allowed ⟨h, g⟩ ⟨f h, g⟩) :
    Keeps allowed (modify f : HostM σ PUnit) ⟨h, g⟩ := by
  simp only [Keeps, Takes, ends_modify]
  exact lead

/-- To look up a runtime changes nothing. -/
theorem keeps_runtime (id : Nat) : Keeps allowed (HostM.runtime id) ⟨h, g⟩ :=
  keeps_of_same (by simp)

/-- To look up an environment changes nothing. -/
theorem keeps_environment (id : Nat) : Keeps allowed (HostM.environment id) ⟨h, g⟩ :=
  keeps_of_same (by simp)

/-- To look up a runner changes nothing. -/
theorem keeps_runner (id : Nat) : Keeps allowed (HostM.runner id) ⟨h, g⟩ :=
  keeps_of_same (by simp)

omit [Holder σ] [Rule σ] in
/-- An attempt ends as the operation does, but does not fail. -/
theorem ends_attempt {Q : Except Error α → Host σ → Prop}
    (act : Ends x h (fun a => Q (.ok a)) fun e => Q (.error e)) :
    Ends (HostM.attempt x) h Q fun _ _ => False :=
  ends_tryCatch (ends_bind act fun _ _ done => done) fun _ _ failed => failed

/-- An error may be handed on as a result. -/
theorem keeps_attempt (act : Keeps allowed x ⟨h, g⟩) :
    Keeps allowed (HostM.attempt x) ⟨h, g⟩ :=
  (ends_attempt (Q := fun _ h' => Leads allowed ⟨h, g⟩ ⟨h', g⟩) act).mono (fun _ _ lead => lead)
    fun _ _ => False.elim

end

/-! ### An instance at rest -/

omit [Holder σ] [Rule σ] in
/-- An exported global is found in the store of an instance at rest, and nothing changes. -/
theorem ends_exportedGlobal {id : Nat} {name : String} :
    Ends (HostM.exportedGlobal id name) h
      (fun found h' => h' = h ∧ found.1.guest.exportedGlobal? name = some found.2 ∧
        ∃ i, h.instance? id = some i ∧ i.store = some found.1)
      fun _ h' => h' = h := by
  simp only [HostM.exportedGlobal, ends_bind_iff, ends_store, ends_ofOption, ends_pure,
    implies_true, and_true, true_and]
  exact fun i present s idle _ exported => ⟨exported, i, present, idle⟩

/-- To read a global changes nothing. -/
theorem keeps_getGlobal (id : Nat) (name : String) (type : HostType) :
    Keeps allowed (HostM.getGlobal id name type) ⟨h, g⟩ := by
  refine keeps_of_same (ends_bind ends_exportedGlobal fun found h' same => ?_)
  obtain ⟨same, -⟩ := same
  simp only [ends_bind_iff, ends_ofExcept, ends_ofOption]
  simp [same]

/-- To write a global changes the store of one instance. -/
theorem keeps_setGlobal (id : Nat) (name : String) (value : HostValue) :
    Keeps allowed (HostM.setGlobal id name value) ⟨h, g⟩ := by
  refine ends_bind (ends_exportedGlobal.mono (fun _ _ h => h) fun _ _ same => same ▸ Leads.refl) ?_
  rintro ⟨s, i, declared⟩ h' ⟨rfl, exported, record, present, idle⟩
  simp only [ends_bind_iff, ends_ofExcept]
  refine ⟨fun _ fits => ?_, fun _ _ => .refl⟩
  split
  · exact Leads.refl
  · simp only [ends_putStore]
    exact leads_edit present idle (Wasm.Guest.extends_store exported fits) rfl rfl rfl

/-- The host sets or clears the fault of an instance at rest. -/
theorem leads_latch {id : Nat} {i : Instance} {s : Store} (present : h.instance? id = some i)
    (idle : i.store = some s) (latch : Option Fault) (permit : allowed (.latches id)) :
    Leads allowed ⟨h, g⟩
      ⟨h.modifyInstance id fun i => { i with store := some { s with latch } }, g⟩ := by
  obtain ⟨c, hc, rfl⟩ := Option.map_eq_some_iff.1 present
  rw [Host.modifyInstance_congr hc (fun _ => { c.value with store := some { s with latch } }) rfl]
  exact leads_modifyInstance hc (.latch idle permit)

/-- To ask for the exception changes nothing. -/
theorem keeps_exception? (id : Nat) : Keeps allowed (HostM.exception? id) ⟨h, g⟩ :=
  keeps_of_same (by simp [HostM.exception?])

/-- To set an exception changes the fault of one instance, so that must be allowed. -/
theorem keeps_setException {id : Nat} (fault : Fault) (permit : allowed (.latches id)) :
    Keeps allowed (HostM.setException id fault) ⟨h, g⟩ := by
  simp only [Keeps, Takes, HostM.setException, ends_bind_iff, ends_store, ends_putStore]
  exact ⟨fun i present s idle => leads_latch present idle _ permit, fun _ _ _ => .refl,
    fun _ => .refl⟩

/-- So it is with taking the exception away. -/
theorem keeps_clearException {id : Nat} (permit : allowed (.latches id)) :
    Keeps allowed (HostM.clearException id) ⟨h, g⟩ := by
  simp only [Keeps, Takes, HostM.clearException, ends_bind_iff, ends_store, ends_putStore,
    ends_pure]
  exact ⟨fun i present s idle => leads_latch present idle _ permit, fun _ _ _ => .refl,
    fun _ => .refl⟩

/-- To read a counter changes nothing. -/
theorem keeps_getUInt64 (id : Nat) (name : String) :
    Keeps allowed (HostM.getUInt64 id name) ⟨h, g⟩ :=
  keeps_bind (keeps_getGlobal id name .u64) fun v _ => by
    split
    · exact keeps_pure _
    · exact keeps_throw _

/-- To read counter and threshold changes nothing. -/
theorem keeps_readCounters (id : Nat) : Keeps allowed (HostM.readCounters id) ⟨h, g⟩ := by
  refine keeps_bind (keeps_getUInt64 id _) fun counter h => ?_
  refine keeps_tryCatch (keeps_bind (keeps_getUInt64 id _) fun _ _ => keeps_pure _) fun e h => ?_
  split
  · exact keeps_pure _
  · exact keeps_throw _

/-- To reset the counters writes globals. -/
theorem keeps_resetCounters (id : Nat) : Keeps allowed (HostM.resetCounters id) ⟨h, g⟩ := by
  refine keeps_bind (keeps_setGlobal id _ _) fun _ h => ?_
  refine keeps_tryCatch (keeps_setGlobal id _ _) fun e h => ?_
  split
  · exact keeps_pure _
  · exact keeps_throw _

/-! ### Making a runner -/

omit [Rule σ] in
/-- A hold in hand is another holder than a call. -/
theorem shared_of_pin (id : Nat) : Config.Shared ⟨h, g.pin .inst id⟩ id := by
  simp only [Config.Shared, Pending.pin_pins, Holds.on, and_self, if_true]
  omega

/-- An environment for an event is new, belongs to its instance, and holds the texts of the
event. -/
theorem ends_createEventEnvironment {id : Nat} (stack : Nat) (eventId payload : Bytes)
    (shared : Config.Shared ⟨h, g⟩ id) (fresh : allowed (.lends h.environments.next)) :
    Ends (HostM.createEventEnvironment id stack eventId payload) h
      (fun e h' => e = h.environments.next ∧
        (∃ e', h'.environments.get? e = some e' ∧ e'.inst = id ∧
          UserData.withEvent (terminated eventId) (terminated payload) = .ok e'.userData) ∧
        Leads allowed ⟨h, g⟩ ⟨h', g.pin .environment e⟩)
      fun _ h' => Leads allowed ⟨h, g⟩ ⟨h', g⟩ := by
  refine ends_bind (ends_createEnvironment stack fun _ => shared) fun e h' made => ?_
  obtain ⟨rfl, ⟨e', present, inst⟩, lead⟩ := made
  refine ends_tryCatch (F := fun _ h'' => h'' = h') ?_ ?_
  · simp only [ends_bind_iff, ends_ofExcept, ends_modify, ends_pure]
    refine ⟨fun userData event => ⟨trivial, ⟨{ e' with userData }, ?_, inst, event⟩, ?_⟩,
      fun _ _ => trivial⟩
    · rw [Host.modifyEnvironment, Pool.get?_modify, if_pos rfl, present]
      rfl
    · refine lead.trans (.of_change (.userData fresh (.inl ?_)))
      simp only [Pending.pin_pins, Holds.on, and_self, if_true]
      omega
  -- The texts did not fit: the new environment is dropped again.
  · rintro _ _ rfl
    simp only [ends_bind_iff, ends_modify, ends_throw]
    exact lead.trans (leads_dropEnvironment _)

/-- **Runners.** A new runner runs an instance and has an environment that were not there before, and
this has the event in its user data, each part with a zero byte after it. -/
theorem ends_createRunner [Engine] (traced : Traced allowed printer)
    (fresh : ∀ e, h.environments.next ≤ e → allowed (.lends e)) (runtime : Nat)
    (bytecode eventId payload : Bytes) (config : ModuleConfig) (execStack : Nat)
    (ha : Config.Sound ⟨h, g⟩) :
    Ends (HostM.createRunner printer runtime bytecode eventId payload config execStack) h
      (fun id h' => (∃ r e, h'.runners.get? id = some r ∧ h.instances.next ≤ r.inst ∧
          h.environments.next ≤ r.environment ∧ h'.environments.get? r.environment = some e ∧
          e.inst = r.inst ∧
          UserData.withEvent (terminated eventId) (terminated payload) = .ok e.userData) ∧
        Leads allowed ⟨h, g⟩ ⟨h', g.pin .runner id⟩)
      fun _ h' => Leads allowed ⟨h, g⟩ ⟨h', g⟩ := by
  simp only [HostM.createRunner, ends_bind_iff, ends_runtime]
  refine ⟨fun rt _ => ?_, fun _ => .refl⟩
  rw [← ends_bind_iff]
  refine ends_bind ((ends_load runtime bytecode).mono (fun _ _ made => made.2) fun _ _ => id)
    fun module h₁ loaded => ?_
  have sound := loaded.sound ha
  -- A failure from here on gives up the module, and one after that the instance, too.
  refine ends_tryCatch (F := fun _ h' => Leads allowed ⟨h, g⟩ ⟨h', g.pin .module module⟩) ?_ ?_
  swap
  · intro e h' lead
    simp only [ends_bind_iff, ends_modify, ends_throw]
    exact lead.trans (leads_releaseModule module)
  have instantiated := ends_instantiate traced module config.stackSize.toNat
    config.heapSize.toNat sound
  refine ends_bind (instantiated.mono (fun _ _ made => made) fun _ _ => loaded.trans) ?_
  rintro inst h₂ ⟨number, brought⟩
  have lead := loaded.trans brought
  have next : h.instances.next ≤ inst := number ▸ (loaded.since ha).instances.next
  have newer : h.environments.next ≤ h₂.environments.next := (lead.since ha).environments.next
  refine ends_tryCatch (F := fun _ h' => Leads allowed ⟨h, g⟩
    ⟨h', (g.pin .module module).pin .inst inst⟩) ?_ ?_
  swap
  · intro e h' lead
    simp only [ends_bind_iff, ends_modify, ends_throw]
    exact lead.trans (leads_releaseInstance inst)
  refine ends_bind ((ends_createEventEnvironment execStack eventId payload
    (shared_of_pin inst) (fresh _ newer)).mono (fun _ _ made => made) fun _ _ => lead.trans) ?_
  rintro environment h₃ ⟨last, ⟨e, present, own, event⟩, bound⟩
  simp only [ends_bind_iff, ends_get, ends_set, ends_pure]
  refine ⟨⟨_, e, Pool.get?_inserted _ _, next, last ▸ newer, present, own, event⟩,
    lead.trans (bound.trans ?_)⟩
  -- The runner's holds are those on the environment, the instance and the module.
  have hand : (((g.pin .module module).pin .inst inst).pin .environment environment) =
      g.hold (Runner.refs ⟨environment, inst, module, rt.commons, 0, 0⟩) := by
    simp only [Pending.pin, Pending.hold, Runner.refs, Pending.mk.injEq, and_true]
    funext k i
    simp only [Pi.add_apply]
    omega
  rw [hand]
  exact .of_change (.runnerMade present own)

/-! ### Runs -/

/-- A text is printed as its bytes are. -/
theorem keeps_printText (traced : Traced allowed printer) (commons : Nat) (text : String) :
    Keeps allowed (HostM.printText printer commons text) ⟨h, g⟩ :=
  keeps_modify (traced commons _ h g)

/-- The instance that a runner runs may be entered and its fault cleared, and the user data of its
environment may be lent. -/
structure Settling (allowed : Effect → Prop) (h : Host σ) (id : Nat) : Prop where
  old : id < h.runners.next
  clears : ∀ r, h.runners.get? id = some r → allowed (.latches r.inst)
  lends : ∀ r, h.runners.get? id = some r → allowed (.lends r.environment)
  enters : ∀ r, h.runners.get? id = some r → r.environment < h.environments.next ∧
    ∀ e, h.environments.get? r.environment = some e → allowed (.enters e.inst)

omit [Holder σ] [Rule σ] in
/-- A runner keeps its instance and its environment, and that its instance. -/
theorem Settling.since {h' : Host σ} {id : Nat} (settling : Settling allowed h id)
    (since : h.Since h') : Settling allowed h' id where
  old := Nat.lt_of_lt_of_le settling.old since.runners.next
  clears := by
    -- A runner of now is the runner of before as far as what it holds goes.
    intro r present
    obtain ⟨r', before, same⟩ := since.runners.old id r settling.old present
    simp only [Prod.mk.injEq] at same
    rw [← same.2.1]
    exact settling.clears r' before
  lends := by
    intro r present
    obtain ⟨r', before, same⟩ := since.runners.old id r settling.old present
    simp only [Prod.mk.injEq] at same
    rw [← same.1]
    exact settling.lends r' before
  enters := by
    intro r present
    obtain ⟨r', before, same⟩ := since.runners.old id r settling.old present
    simp only [Prod.mk.injEq] at same
    obtain ⟨bound, reach⟩ := settling.enters r' before
    rw [← same.1]
    refine ⟨Nat.lt_of_lt_of_le bound since.environments.next, fun e there => ?_⟩
    obtain ⟨e', there', same'⟩ := since.environments.old _ e bound there
    simp only [Prod.mk.injEq] at same'
    rw [← same'.1]
    exact reach e' there'

/-- What is to be done with a runner, which is there. -/
theorem keeps_bind_runner {id : Nat} {f : Runner → HostM σ β}
    (rest : ∀ r, h.runners.get? id = some r → Keeps allowed (f r) ⟨h, g⟩) :
    Keeps allowed (HostM.runner id >>= f) ⟨h, g⟩ := by
  simp only [Keeps, Takes, ends_bind_iff, ends_runner]
  exact ⟨rest, fun _ => .refl⟩

variable [Engine]

section

variable (traced : Traced allowed printer) {id : Nat} (settling : Settling allowed h id)

omit [Engine] in
/-- Settling how a run ended may clear the fault of the runner's instance, and nothing else. -/
theorem keeps_settle (clears : ∀ r, h.runners.get? id = some r → allowed (.latches r.inst))
    (r : Except Error (List HostValue)) :
    Keeps allowed (HostM.settle id r) ⟨h, g⟩ := by
  unfold HostM.settle
  split
  · exact keeps_pure _
  · exact keeps_throw _
  · simp only [Keeps, Takes, ends_bind_iff, ends_runner, ends_environment]
    refine ⟨fun r present => ⟨fun e _ => ?_, fun _ => .refl⟩, fun _ => .refl⟩
    split
    · exact Leads.refl
    · exact keeps_bind (keeps_clearException (clears r present)) fun _ _ => keeps_pure _

include traced settling

/-- Calling the entry point, and settling how it ended. -/
theorem keeps_runEntry (name : String) (more : List HostValue) :
    Keeps allowed (HostM.runEntry printer id name more) ⟨h, g⟩ := by
  refine keeps_bind_runner fun r present => ?_
  have lengths : Keeps allowed (HostM.eventLengths r.environment) ⟨h, g⟩ :=
    keeps_bind (keeps_environment _) fun _ _ => keeps_pure _
  refine keeps_bind_since lengths fun lengths h₁ since₁ => ?_
  have lends := settling.lends r present
  have enters : ∀ e, h₁.environments.get? r.environment = some e → allowed (.enters e.inst) := by
    obtain ⟨bound, reach⟩ := settling.enters r present
    intro e there
    obtain ⟨e', there', same⟩ := since₁.environments.old _ e bound there
    simp only [Prod.mk.injEq] at same
    rw [← same.1]
    exact reach e' there'
  refine keeps_bind_since (keeps_attempt (keeps_call traced enters lends _ _ _))
    fun ended h₂ since₂ => ?_
  exact keeps_settle ((settling.since since₁).since since₂).clears ended

/-- A plain run. -/
theorem keeps_runPlain : Keeps allowed (HostM.runPlain printer id) ⟨h, g⟩ := by
  refine keeps_bind_since (keeps_runner id) fun r h₁ since₁ => ?_
  refine keeps_bind_since (keeps_printText traced _ _) fun _ h₂ since₂ => ?_
  exact keeps_runEntry traced ((settling.since since₁).since since₂) _ _

/-- An instrumented run, which notes down threshold and counter. -/
theorem keeps_runInstrumented (threshold : UInt64) :
    Keeps allowed (HostM.runInstrumented printer id threshold) ⟨h, g⟩ := by
  refine keeps_bind_since (keeps_modify (.of_change ?_)) fun _ h₁ since₁ => ?_
  · exact @Change.recorded _ _ _ _ _ g id (fun _ => threshold) Runner.counter
  refine keeps_bind_since (keeps_runner id) fun r h₂ since₂ => ?_
  refine keeps_bind_since (keeps_printText traced _ _) fun _ h₃ since₃ => ?_
  have settling := ((settling.since since₁).since since₂).since since₃
  refine keeps_bind (keeps_runEntry traced settling _ _) fun outcome h => ?_
  refine keeps_bind (keeps_getUInt64 _ _) fun counter h => ?_
  refine keeps_bind (keeps_modify (.of_change ?_)) fun _ h => ?_
  · exact @Change.recorded _ _ _ _ _ g id Runner.threshold fun _ => counter
  exact keeps_bind (keeps_printText traced _ _) fun _ _ => keeps_pure _

end

omit [Engine] in
/-- To reset a runner writes globals, the user data of its environment and what the runner notes
down. -/
theorem keeps_resetRunner {id : Nat}
    (lends : ∀ r, h.runners.get? id = some r → allowed (.lends r.environment)) :
    Keeps allowed (HostM.resetRunner id) ⟨h, g⟩ := by
  refine keeps_bind_runner fun r present => ?_
  refine keeps_bind (keeps_resetCounters _) fun _ h => ?_
  refine keeps_bind (keeps_modify (.of_change (.userData (lends r present)
    (.inr (.inr fun _ => rfl))))) fun _ h => ?_
  exact keeps_modify (.of_change (@Change.recorded _ _ _ _ _ g id (fun _ => 0) fun _ => 0))

/-! ### Benchmarks -/

section

variable (traced : Traced allowed printer)

/-- New instances may be entered and their faults cleared, and the user data of new environments may be
lent. -/
structure Fresh (allowed : Effect → Prop) (h : Host σ) : Prop where
  clears : ∀ id, h.instances.next ≤ id → allowed (.latches id)
  lends : ∀ e, h.environments.next ≤ e → allowed (.lends e)
  enters : ∀ id, h.instances.next ≤ id → allowed (.enters id)

omit [Engine] [Holder σ] [Rule σ] in
/-- What is new to a later host is new to an earlier one. -/
theorem Fresh.since {h' : Host σ} (fresh : Fresh allowed h) (since : h.Since h') :
    Fresh allowed h' where
  clears id le := fresh.clears id (Nat.le_trans since.instances.next le)
  lends e le := fresh.lends e (Nat.le_trans since.environments.next le)
  enters id le := fresh.enters id (Nat.le_trans since.instances.next le)

omit [Engine] in
/-- A run that is made again and again, by induction on how often. -/
theorem ends_repeatedly {id : Nat} {act : HostM σ α}
    (each : ∀ h, Settling allowed h id → Keeps allowed act ⟨h, g⟩) (count : Nat)
    (settling : Settling allowed h id) (ha : Config.Sound ⟨h, g⟩) :
    Ends (HostM.repeatedly act count) h (fun _ h' => Leads allowed ⟨h, g⟩ ⟨h', g⟩)
      fun _ _ => False := by
  induction count generalizing h with
  | zero => exact Leads.refl
  | succ count ih =>
    refine ends_bind (ends_attempt (Q := fun _ h' => Leads allowed ⟨h, g⟩ ⟨h', g⟩)
      (each h settling)) ?_
    intro ended h' lead
    split
    · exact lead
    · refine ends_bind (ih (settling.since (lead.since ha)) (lead.sound ha)) ?_
      exact fun _ _ rest => lead.trans rest

include traced in
/-- One part of a benchmark: its runner is in hand from its creation to its drop. -/
theorem keeps_benchmarkBuild (fresh : Fresh allowed h)
    (runtime : Nat) (run : RunConfig) (bytecode : Bytes) {once : Nat → HostM σ Outcome}
    (each : ∀ id h g, Settling allowed h id → Keeps allowed (once id) ⟨h, g⟩) :
    Keeps allowed (HostM.benchmarkBuild printer runtime run bytecode once) ⟨h, g⟩ := by
  refine takes_of_sound fun ha => ?_
  simp only [Takes, HostM.benchmarkBuild, ends_bind_iff, ends_runtime]
  refine ⟨fun r _ => ?_, fun _ => .refl⟩
  rw [← ends_bind_iff]
  -- Until it is dropped, the runner is in hand.
  have created := ends_attempt
    (Q := fun ended h' => match ended with
      | .ok id => Settling allowed h' id ∧ Leads allowed ⟨h, g⟩ ⟨h', g.pin .runner id⟩
      | .error _ => Leads allowed ⟨h, g⟩ ⟨h', g⟩)
    ((ends_createRunner (h := h) (g := g) traced fresh.lends runtime bytecode (Bytes.ofText run.eventId)
      (Bytes.ofText run.eventPayload) r.config.module r.config.execStackSize.toNat ha).mono
      (fun id h' made => ?_) fun _ _ => id)
  swap
  · obtain ⟨⟨r, e, present, next, newer, there, own, -⟩, lead⟩ := made
    refine ⟨⟨Pool.lt_next_of_get?_eq_some present, fun r' present' => ?_,
      fun r' present' => ?_, fun r' present' => ?_⟩, lead⟩ <;> cases present.symm.trans present'
    · exact fresh.clears r.inst next
    · exact fresh.lends r.environment newer
    · refine ⟨Pool.lt_next_of_get?_eq_some there, fun e' there' => ?_⟩
      cases there.symm.trans there'
      exact fresh.enters e.inst (own ▸ next)
  refine ends_bind (created.mono (fun _ _ made => made) fun _ _ => False.elim) fun ended h' made => ?_
  split
  case h_1 e => exact made
  case h_2 id =>
    obtain ⟨settling, lead⟩ := made
    have repeated := ends_repeatedly (fun h => each id h _) run.repetitions.toNat settling
      (lead.sound ha)
    refine ends_bind (repeated.mono (fun _ _ lead => lead) fun _ _ => False.elim) fun _ h'' rest => ?_
    simp only [ends_bind_iff, ends_modify, ends_pure]
    exact lead.trans (rest.trans (leads_dropRunner id))

include traced in
omit [Engine] in
/-- A run with a line before it and another one after it. -/
theorem keeps_announced (commons : Nat) (kind : String) {id : Nat} {act : HostM σ Outcome}
    (settling : Settling allowed h id)
    (each : ∀ h, Settling allowed h id → Keeps allowed act ⟨h, g⟩) :
    Keeps allowed (HostM.announced printer commons kind act) ⟨h, g⟩ := by
  refine keeps_bind_since (keeps_printText traced _ _) fun _ h' since => ?_
  refine keeps_bind (each h' (settling.since since)) fun outcome h => ?_
  exact keeps_bind (keeps_printText traced _ _) fun _ _ => keeps_pure _

include traced in
/-- **Benchmarks.** A benchmark brings up runners and drops them, and leaves in hand what was. It
enters no instance, and clears no fault, but those that it has brought up. -/
theorem keeps_benchmark (fresh : Fresh allowed h) (runtime : Nat)
    (run : RunConfig) (plain instrumented : Bytes) :
    Keeps allowed (HostM.benchmark printer runtime run plain instrumented) ⟨h, g⟩ := by
  refine keeps_bind_since (keeps_runtime runtime) fun r h₁ since₁ => ?_
  have fresh := fresh.since since₁
  refine keeps_bind_since (keeps_benchmarkBuild traced fresh runtime run plain
    fun id h g settling => ?_) fun first h₂ since₂ => ?_
  · exact keeps_announced traced _ _ settling fun h settling =>
      keeps_runPlain traced settling
  dsimp only
  split
  · exact keeps_pure _
  have fresh := fresh.since since₂
  refine keeps_bind (keeps_benchmarkBuild traced fresh runtime run instrumented
    fun id h g settling => ?_) fun second h => keeps_pure _
  refine keeps_announced traced _ _ settling fun h settling => ?_
  refine keeps_bind_since (keeps_runInstrumented traced settling _) fun outcome h since => ?_
  exact keeps_bind (keeps_resetRunner (settling.since since).lends) fun _ _ => keeps_pure _

end

end Embedder
