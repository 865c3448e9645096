import Embedder.Proofs.Host.Latch
import Embedder.Proofs.Host.Linking

namespace Embedder

/-!
# Pending faults

While a fault is latched on an instance, calls are refused with it, and it stays until the host sets
or clears it. A runner's run that is refused with a guest's exit clears it, too.

* `Leads.pending`: the fault stays as long as nothing sets or clears it.
* `call_pending`: calls that are refused.
* `Host.Settles`, `ends_runEntry_pending`: runs that are refused.
-/

variable {σ : Type} {printer : Printer σ} {h h' : Host σ} {id : Nat} {fault : Fault}

/-! ### The fault stays -/

/-- An instance at rest with a pending fault. -/
def Custody.Faulted (x : Custody) (fault : Fault) : Prop :=
  ∃ s, x.record.store = some s ∧ s.latch = some fault

/-- No call enters an instance with a pending fault, so nothing but the host changes the fault. -/
theorem Evolves.faulted {allowed : Effect → Prop} {paid : Nat} {x y : Custody}
    (step : Evolves allowed id x paid y) (denied : ¬ allowed (.latches id)) (sound : x.Sound)
    (faulted : x.Faulted fault) : y.Faulted fault := by
  obtain ⟨s, idle, latch⟩ := faulted
  have free := sound.free idle
  cases step with
  | edit idle' _ _ same =>
    cases idle.symm.trans idle'
    exact ⟨_, rfl, same.trans latch⟩
  | latch _ permit => exact absurd permit denied
  | alloc idle' =>
    cases idle.symm.trans idle'
    exact ⟨_, rfl, latch⟩
  | free idle' =>
    cases idle.symm.trans idle'
    exact ⟨_, rfl, latch⟩
  | enter idle' _ none =>
    cases idle.symm.trans idle'
    cases latch.symm.trans none
  | leave held => cases free.symm.trans held
  | run held => cases free.symm.trans held
  | grow held => cases free.symm.trans held
  | manage held => cases free.symm.trans held
  | complete held => cases free.symm.trans held

/-- An instance that is faulted has latched its fault. -/
theorem Host.latch?_of_faulted {c : Counted Instance} {held : Option Loan} {taken : List Span}
    (present : h.instances.get? id = some c)
    (faulted : Custody.Faulted ⟨c.value, held, taken⟩ fault) :
    h.latch? id = some (some fault) := by
  obtain ⟨s, idle, latch⟩ := faulted
  dsimp only at idle
  simp [latch?, instance?, present, idle, latch]

section

variable [Holder σ] [Rule σ] {allowed : Effect → Prop} {g g' : Pending}

/-- **The fault stays.** What is latched stays latched, unless it is set or cleared. -/
theorem Leads.pending (lead : Leads allowed ⟨h, g⟩ ⟨h', g'⟩) (ha : Config.Sound ⟨h, g⟩)
    (denied : ¬ allowed (.latches id)) (pending : h.latch? id = some (some fault)) :
    h'.Rests id (some fault) := by
  intro there
  obtain ⟨i, s, present, idle, latch⟩ := Host.latch?_eq_some pending
  obtain ⟨c, before, rfl⟩ := Option.map_eq_some_iff.1 present
  obtain ⟨d, after⟩ := Option.isSome_iff_exists.1 (Option.isSome_map ▸ there)
  refine Host.latch?_of_faulted after (lead.instance_induct (P := (Custody.Faulted · fault)) ha
    (fun _ _ faulted => faulted) (fun _ _ _ sound step => step.faulted denied sound)
    (Config.custody?_of_get? before) ⟨s, idle, latch⟩ (Config.custody?_of_get? after))

/-- The store of an instance at rest is of the same program as before. -/
theorem Leads.sameProgram (lead : Leads allowed ⟨h, g⟩ ⟨h', g'⟩) (ha : Config.Sound ⟨h, g⟩)
    {s s' : Store} (before : (h.instance? id).bind Instance.store = some s)
    (after : (h'.instance? id).bind Instance.store = some s') : s.SameProgram s' := by
  obtain ⟨i, present, idle⟩ := Option.bind_eq_some_iff.1 before
  obtain ⟨j, present', idle'⟩ := Option.bind_eq_some_iff.1 after
  obtain ⟨c, hc, rfl⟩ := Option.map_eq_some_iff.1 present
  obtain ⟨d, hd, rfl⟩ := Option.map_eq_some_iff.1 present'
  have first := Config.custody?_of_get? (c := ⟨h, g⟩) hc
  have last := Config.custody?_of_get? (c := ⟨h', g'⟩) hd
  have free := (ha.custody id _ first).free idle
  have free' := ((lead.sound ha).custody id _ last).free idle'
  obtain ⟨s₀, there, program⟩ := lead.program ha first last (Custody.store?_idle free' idle')
  cases there.symm.trans (Custody.store?_idle free idle)
  exact program

/-- What an instance exports stays. -/
theorem Leads.exportsFunc (lead : Leads allowed ⟨h, g⟩ ⟨h', g'⟩) (ha : Config.Sound ⟨h, g⟩)
    {latch latch' : Option Fault} (before : h.latch? id = some latch)
    (after : h'.latch? id = some latch') (name : String) :
    h'.exportsFunc id name = h.exportsFunc id name := by
  obtain ⟨s, there, -⟩ := Option.map_eq_some_iff.1 before
  obtain ⟨s', there', -⟩ := Option.map_eq_some_iff.1 after
  have program := lead.sameProgram ha there there'
  simp only [Host.exportsFunc, there, there', Option.any_some, Wasm.Guest.exportedFunc?,
    program.module, program.funcs]

end

/-! ### Calls that are refused -/

variable [Engine]

section

variable {v : Invoker} {e : Environment} {name : String} {args : List HostValue}
  {results : List HostType}

/-- A call that is refused changes nothing, and the invoker is ready again. -/
theorem Invoker.call_refused {error : Error} (bound : h.environments.get? v.environment = some e)
    (refused : h.callee e.inst name = .error error) :
    v.call printer name args results h = (.error error, v.ready, h) := by
  unfold call
  simp only [environment_ready, bound, refused]

/-- What a call is told while a fault is pending: the fault, or else that there is no function of
that name. -/
def Host.refusal (h : Host σ) (id : Nat) (name : String) (fault : Fault) : Error :=
  if h.exportsFunc id name then
    .guestTrap ⟨fault.kind, "pending exception: " ++ fault.message⟩
  else .notFound .function name

omit [Engine] in
/-- While a fault is pending, there is no function to enter. -/
theorem Host.callee_pending (pending : h.latch? id = some (some fault)) (name : String) :
    h.callee id name = .error (h.refusal id name fault) := by
  obtain ⟨i, s, present, idle, latch⟩ := latch?_eq_some pending
  simp only [callee, refusal, exportsFunc, present, idle, Option.bind_some, Option.any_some, latch]
  cases s.guest.exportedFunc? name <;> rfl

/-- **Pending faults.** While a fault is pending, a call of an exported function is refused with it,
whatever its arguments, and nothing happens. -/
theorem call_pending (bound : h.environments.get? v.environment = some e)
    (pending : h.latch? e.inst = some (some fault)) (exported : h.exportsFunc e.inst name) :
    v.call printer name args results h =
      (.error (.guestTrap ⟨fault.kind, "pending exception: " ++ fault.message⟩), v.ready, h) := by
  refine Invoker.call_refused bound ?_
  rw [Host.callee_pending pending, Host.refusal, if_pos exported]

omit [Engine] in
/-- While a fault is pending, no guest is entered. -/
theorem Host.isEmpty_entry_pending {environment : Nat} (pending : h.latch? id = some (some fault))
    (own : ∀ e, h.environments.get? environment = some e → e.inst = id) :
    IsEmpty (Entry h environment name args results) := by
  refine ⟨fun entry => ?_⟩
  have refused := callee_pending pending name
  rw [← own _ entry.bound, entry.found] at refused
  cases refused

end

/-! ### Runs that are refused -/

/-- A runner's run of an entry point would clear a pending fault: the guest was meant to end with
it, and the entry point is there. -/
def Host.Settles (h : Host σ) (id : Nat) (name : String) (fault : Fault) : Prop :=
  fault.kind.isHalt ∧ h.exportsFunc id name

/-- A call that a pending fault refuses fails as it is refused, and changes nothing. -/
theorem ends_call_pending {environment : Nat} {e : Environment} {name : String}
    {args : List HostValue} {results : List HostType}
    (bound : h.environments.get? environment = some e)
    (pending : h.latch? e.inst = some (some fault)) :
    Ends (HostM.call printer environment name args results) h (fun _ _ => False) fun error t =>
      t = h ∧ error = h.refusal e.inst name fault := by
  have refused : (Invoker.ofEnvironment environment).call printer name args results h = _ :=
    Invoker.call_refused bound (Host.callee_pending pending name)
  simp only [HostM.call, ends_bind_iff, ends_get, refused, ends_set, ends_ofExcept]
  exact ⟨by rintro _ ⟨⟩, fun error failed => ⟨trivial, (Except.error.inj failed).symm⟩⟩

omit [Engine] in
/-- The faults that halt a guest are those that make an outcome. -/
theorem Outcome.isSome_ofFault? (counter threshold : UInt64) (kind : FaultKind) :
    (ofFault? counter threshold kind).isSome = kind.isHalt := by
  cases kind <;> rfl

/-- A runner with its environment and its instance. -/
structure Host.Manned (h : Host σ) (id : Nat) (r : Runner) (e : Environment) (i : Instance) :
    Prop where
  present : h.runners.get? id = some r
  bound : h.environments.get? r.environment = some e
  own : e.inst = r.inst
  there : h.instance? r.inst = some i

/-- A runner whose instance has a pending fault, with all that a run looks at. -/
structure Host.Stuck (h : Host σ) (id : Nat) (r : Runner) (e : Environment) (fault : Fault) :
    Prop where
  present : h.runners.get? id = some r
  bound : h.environments.get? r.environment = some e
  own : e.inst = r.inst
  pending : h.latch? r.inst = some (some fault)

/-- **Refused runs.** While a fault is pending, a run does not enter the guest. Yet where the fault is
an exit, or the end at a threshold, the run has the outcome of such an end, and clears the fault. -/
theorem ends_runEntry_pending {r : Runner} {e : Environment} (stuck : h.Stuck id r e fault)
    (name : String) (more : List HostValue) :
    Ends (HostM.runEntry printer id name more) h
      (fun outcome t => h.Settles r.inst name fault ∧ t.latch? r.inst = some none ∧
        Outcome.ofFault? e.userData.instructionCount r.threshold fault.kind = some outcome)
      fun error t => ¬ h.Settles r.inst name fault ∧ t = h ∧
        error = h.refusal r.inst name fault := by
  obtain ⟨present, bound, own, pending⟩ := stuck
  obtain ⟨i, s, there, idle, -⟩ := Host.latch?_eq_some pending
  simp only [HostM.runEntry, HostM.eventLengths, ends_bind_iff, ends_runner, ends_environment,
    ends_pure, present, bound, Option.some.injEq, forall_eq', reduceCtorEq, false_implies, and_true]
  refine (ends_attempt ((ends_call_pending bound (own ▸ pending)).mono (fun _ _ => False.elim) ?_)).mono
    (fun _ _ settled => settled) fun _ _ => False.elim
  rintro error t ⟨rfl, rfl⟩
  simp only [HostM.settle, ends_bind_iff, ends_runner, ends_environment, present, bound,
    Option.some.injEq, forall_eq', reduceCtorEq, false_implies, and_true, own]
  -- The pending fault is met only where the entry point is exported; otherwise the call fails for
  -- that.
  by_cases exported : t.exportsFunc r.inst name
  · rw [Host.refusal, if_pos exported]
    dsimp only [Error.faultKind?, Option.bind_some]
    have halts := Outcome.isSome_ofFault? e.userData.instructionCount r.threshold fault.kind
    split
    case h_1 none =>
      rw [none] at halts
      exact ⟨fun settles => Bool.false_ne_true (halts.trans settles.1), rfl, rfl⟩
    case h_2 outcome some =>
      rw [some] at halts
      simp only [HostM.clearException, ends_bind_iff, ends_store, there, idle, ends_putStore,
        ends_pure, Option.some.injEq, forall_eq', reduceCtorEq, false_implies, and_true]
      refine ⟨⟨halts.symm, exported⟩, ?_, some⟩
      simp [Host.latch?, Host.instance?_modifyInstance, there]
  · rw [Host.refusal, if_neg exported]
    exact ⟨fun settles => exported settles.2, rfl, rfl⟩

section

variable [Holder σ] [Rule σ] {allowed : Effect → Prop} {g : Pending} {r : Runner} {e : Environment}

omit [Engine] in
/-- A runner that is there has its environment and its instance. -/
theorem Config.Sound.manned (ha : Config.Sound ⟨h, g⟩) (chained : Config.Chained ⟨h, g⟩)
    (present : h.runners.get? id = some r) : ∃ e i, h.Manned id r e i := by
  have holds : ∀ kind j, 0 < r.refs kind j → h.has kind j := by
    intro kind j pos
    have refs : 0 < h.refs .runner id kind j := by simpa [Host.refs, present] using pos
    exact ha.has_of_refs refs
  obtain ⟨e, bound⟩ := Option.isSome_iff_exists.1
    (holds .environment r.environment (Runner.refs_pos.2 (.inl ⟨rfl, rfl⟩)))
  obtain ⟨c, there⟩ := Option.isSome_iff_exists.1
    (holds .inst r.inst (Runner.refs_pos.2 (.inr (.inl ⟨rfl, rfl⟩))))
  refine ⟨e, c.value, present, bound, (chained.runners id r present).2 e bound, ?_⟩
  rw [Host.instance?, there, Option.map_some]

omit [Engine] in
/-- A runner whose instance rests with a fault is stuck. -/
theorem Config.Sound.stuck (ha : Config.Sound ⟨h, g⟩) (chained : Config.Chained ⟨h, g⟩)
    (present : h.runners.get? id = some r) (rests : h.Rests r.inst (some fault)) :
    ∃ e, h.Stuck id r e fault := by
  obtain ⟨e, i, -, bound, own, there⟩ := ha.manned chained present
  exact ⟨e, present, bound, own, rests (by rw [there]; rfl)⟩

omit [Engine] in
/-- A runner that is in hand stays stuck, unless the fault of its instance is set or cleared. -/
theorem Host.Stuck.leads {h' : Host σ} (stuck : h.Stuck id r e fault)
    (lead : Leads allowed ⟨h, g.pin .runner id⟩ ⟨h', g.pin .runner id⟩)
    (ha : Config.Sound ⟨h, g.pin .runner id⟩) (chained : Config.Chained ⟨h, g.pin .runner id⟩)
    (denied : ¬ allowed (.latches r.inst)) :
    ∃ r' e', h'.Stuck id r' e' fault ∧ r'.inst = r.inst ∧
      ∀ name, h'.exportsFunc r.inst name = h.exportsFunc r.inst name := by
  have sound := lead.sound ha
  have chained := lead.induct ha (fun _ _ _ step => step.chained) chained
  obtain ⟨r', present⟩ := Pool.get?_of_owned_pos (sound.holders_pos .runner (by simp))
  obtain ⟨r₀, before, same⟩ := (lead.since ha).runners.old id r'
    (Pool.lt_next_of_get?_eq_some stuck.present) present
  cases stuck.present.symm.trans before
  simp only [Prod.mk.injEq] at same
  have rests := lead.pending ha denied stuck.pending
  rw [same.2.1] at rests
  obtain ⟨e', stuck'⟩ := sound.stuck chained present rests
  refine ⟨r', e', stuck', same.2.1.symm, fun name => ?_⟩
  exact lead.exportsFunc ha stuck.pending (same.2.1 ▸ stuck'.pending) name

/-- A run that is refused, and that does not settle the fault, changes nothing after what leads to
it. -/
theorem keeps_runEntry_stuck {h' : Host σ} (stuck : h.Stuck id r e fault)
    (lead : Leads allowed ⟨h, g.pin .runner id⟩ ⟨h', g.pin .runner id⟩)
    (ha : Config.Sound ⟨h, g.pin .runner id⟩) (chained : Config.Chained ⟨h, g.pin .runner id⟩)
    (denied : ¬ allowed (.latches r.inst)) {name : String} (stands : ¬ h.Settles r.inst name fault)
    (more : List HostValue) :
    Ends (HostM.runEntry printer id name more) h' (fun _ _ => False)
      fun _ t => Leads allowed ⟨h, g.pin .runner id⟩ ⟨t, g.pin .runner id⟩ := by
  obtain ⟨r', e', stuck', same, exports⟩ := stuck.leads lead ha chained denied
  refine (ends_runEntry_pending stuck' name more).mono (fun _ _ settled => ?_) ?_
  · rw [same, Host.Settles, exports] at settled
    exact stands settled.1
  · rintro _ _ ⟨-, rfl, -⟩
    exact lead

variable (traced : Traced allowed printer) (ha : Config.Sound ⟨h, g.pin .runner id⟩)
  (chained : Config.Chained ⟨h, g.pin .runner id⟩) (denied : ¬ allowed (.latches r.inst))
  (stuck : h.Stuck id r e fault)

include traced ha chained denied stuck

/-- A plain run of a runner that is stuck leaves the latch alone, unless it settles the fault. -/
theorem keeps_runPlain_stuck (stands : ¬ h.Settles r.inst plainMain fault) :
    Keeps allowed (HostM.runPlain printer id) ⟨h, g.pin .runner id⟩ := by
  simp only [Keeps, Takes, HostM.runPlain, HostM.printText, ends_bind_iff, ends_runner,
    stuck.present, ends_modify, Option.some.injEq, forall_eq', reduceCtorEq, false_implies, and_true]
  exact (keeps_runEntry_stuck stuck (traced _ _ _ _) ha chained denied stands []).mono
    (fun _ _ => False.elim) fun _ _ lead => lead

/-- So does an instrumented one. -/
theorem keeps_runInstrumented_stuck (threshold : UInt64)
    (stands : ¬ h.Settles r.inst instrumentedMain fault) :
    Keeps allowed (HostM.runInstrumented printer id threshold) ⟨h, g.pin .runner id⟩ := by
  have recorded : Leads allowed ⟨h, g.pin .runner id⟩ ⟨{ h with
      runners := h.runners.modify id fun r => { r with threshold } }, g.pin .runner id⟩ :=
    .of_change (@Change.recorded _ _ _ _ _ _ id (fun _ => threshold) Runner.counter)
  simp only [Keeps, Takes, HostM.runInstrumented, HostM.modifyRunner, HostM.printText,
    ends_bind_iff, ends_runner, ends_modify, Pool.get?_modify, if_true, stuck.present,
    Option.map_some, Option.some.injEq, forall_eq', reduceCtorEq, false_implies, and_true]
  exact (keeps_runEntry_stuck stuck (recorded.trans (traced _ _ _ _)) ha chained denied stands
    _).mono (fun _ _ => False.elim) fun _ _ lead => lead

end

end Embedder
