import Embedder.Proofs.Host.Confinement
import Embedder.Proofs.Host.Lockstep
import Embedder.Proofs.Host.Outcomes

namespace Embedder

/-!
# Runners that are left alone

While what is printed leaves a runner alone, with its environment and the store of its instance, nothing
happens to these but what the runner itself does: a call that it makes gives the environment its user
data back, and puts the store back in its place.

* `Host.since_beginCall`, `Host.since_endCall`: calls leave what objects were made with.
* `Host.Stands`: a runner with all that it works with, at rest.
* `Discreet`: printing that leaves a runner alone.
* `Entry.stands_landed`: calls of a runner.
* `Store.reading`, `exec_getUInt64`: counters of an instance at rest.
* `Store.Recorded`, `Entry.recorded_of_raises`: what a counter past its threshold leaves behind.
-/

variable {σ : Type} {printer : Printer σ} {c : Caller} {h : Host σ}

/-! ### What objects were made with -/

namespace Host

variable (h : Host σ)

/-- A change of commons changes nothing that objects are made with. -/
theorem since_commons (commons : Pool Commons) : h.Since { h with commons } :=
  ⟨.refl _, .refl _, .refl _, .refl _, .refl _, .refl _⟩

/-- Nor does a change of an instance that keeps its module, its commons and its stack. -/
theorem since_modifyInstance (id : Nat) (f : Instance → Instance)
    (same : ∀ i, ((f i).module, (f i).commons, (f i).stackSize) =
      (i.module, i.commons, i.stackSize)) : h.Since (h.modifyInstance id f) :=
  { Since.refl h with instances := (Pool.Since.refl _).modify fun c _ _ => same c.value }

/-- Nor does a change of an environment that keeps its instance. -/
theorem since_modifyEnvironment (id : Nat) (f : Environment → Environment)
    (same : ∀ e, ((f e).inst, (f e).commons, (f e).stackSize) = (e.inst, e.commons, e.stackSize)) :
    h.Since (h.modifyEnvironment id f) :=
  { Since.refl h with environments := (Pool.Since.refl _).modify fun e _ _ => same e }

/-- Nor does a change of a runner that keeps its environment, its instance and its module. -/
theorem since_modifyRunner (id : Nat) (f : Runner → Runner)
    (same : ∀ r, ((f r).environment, (f r).inst, (f r).module, (f r).commons) =
      (r.environment, r.inst, r.module, r.commons)) :
    h.Since { h with runners := h.runners.modify id f } :=
  { Since.refl h with runners := (Pool.Since.refl _).modify fun r _ _ => same r }

/-- A runtime that goes away is the only thing that is missing, and its number is not handed out
again. -/
theorem since_releaseRuntime (id : Nat) : h.Since (h.releaseRuntime id) := by
  unfold releaseRuntime
  split
  · exact .refl h
  case h_2 c there =>
    split
    case h_1 c' left =>
      refine { Since.refl h with runtimes := (Pool.Since.refl _).modify fun d present _ => ?_ }
      cases there.symm.trans present
      exact Counted.value_release? left
    case h_2 => exact { Since.refl h with runtimes := (Pool.Since.refl _).erase _ }

/-- So it is with a module. -/
theorem since_releaseModule (id : Nat) : h.Since (h.releaseModule id) := by
  unfold releaseModule
  split
  · exact .refl h
  case h_2 c there =>
    split
    case h_1 c' left =>
      refine { Since.refl h with modules := (Pool.Since.refl _).modify fun d present _ => ?_ }
      cases there.symm.trans present
      exact Counted.value_release? left
    case h_2 =>
      have erased : h.Since { h with modules := h.modules.erase id } :=
        { Since.refl h with modules := (Pool.Since.refl _).erase _ }
      exact (erased.trans (since_commons _ _)).trans (since_releaseRuntime _ _)

/-- So it is with an instance. -/
theorem since_releaseInstance (id : Nat) : h.Since (h.releaseInstance id) := by
  unfold releaseInstance
  split
  · exact .refl h
  case h_2 c there =>
    split
    case h_1 c' left =>
      refine { Since.refl h with instances := (Pool.Since.refl _).modify fun d present _ => ?_ }
      cases there.symm.trans present
      rw [Counted.value_release? left]
    case h_2 =>
      have erased : h.Since { h with instances := h.instances.erase id } :=
        { Since.refl h with instances := (Pool.Since.refl _).erase _ }
      exact (erased.trans (since_commons _ _)).trans (since_releaseModule _ _)

/-- A call that begins takes the store and the user data out, and nothing else. -/
theorem since_beginCall (id environment : Nat) : h.Since (h.beginCall id environment) := by
  have retained : h.Since (h.retainInstance id) :=
    { Since.refl h with instances := (Pool.Since.refl _).modify fun _ _ _ => rfl }
  refine (retained.trans (since_modifyInstance _ _ _ ?_)).trans (since_modifyEnvironment _ _ _ ?_)
  · exact fun _ => rfl
  · exact fun _ => rfl

/-- A call that ends puts them back. -/
theorem since_endCall (id environment : Nat) (userData : Option UserData) (s : Store) :
    h.Since (h.endCall id environment userData s) := by
  refine ((since_modifyEnvironment _ _ _ ?_).trans (since_modifyInstance _ _ _ ?_)).trans
    (since_releaseInstance _ _)
  · exact fun _ => rfl
  · exact fun _ => rfl

end Host

/-! ### At rest -/

/-- The store of an instance at rest. -/
def Host.store? (h : Host σ) (id : Nat) : Option Store :=
  (h.instance? id).bind Instance.store

/-- The fault of an instance is kept in its store, which has to be at rest. -/
theorem Host.latch?_eq (h : Host σ) (id : Nat) : h.latch? id = (h.store? id).map Store.latch :=
  rfl

/-- A runner with its environment and the store of its instance, which is at rest. -/
structure Host.Stands (h : Host σ) (id : Nat) (r : Runner) (e : Environment) (s : Store) : Prop where
  present : h.runners.get? id = some r
  bound : h.environments.get? r.environment = some e
  own : e.inst = r.inst
  idle : h.store? r.inst = some s

namespace Host.Stands

variable {id : Nat} {r : Runner} {e : Environment} {s : Store} (stands : h.Stands id r e s)
include stands

/-- A runner that stands is manned, with its store at rest. -/
theorem manned : ∃ i, h.Manned id r e i ∧ i.store = some s := by
  obtain ⟨i, there, idle⟩ := Option.bind_eq_some_iff.1 stands.idle
  exact ⟨i, ⟨stands.present, stands.bound, stands.own, there⟩, idle⟩

/-- The fault of the instance is that of its store. -/
theorem latch? : h.latch? r.inst = some s.latch := by
  rw [Host.latch?_eq, stands.idle, Option.map_some]

/-- A runner that stands, but whose store has latched a fault, is stuck. -/
theorem stuck {fault : Fault} (latched : s.latch = some fault) : h.Stuck id r e fault :=
  ⟨stands.present, stands.bound, stands.own, by rw [stands.latch?, latched]⟩

/-- Another store is put in the place of the one at rest. -/
theorem putStore (s' : Store) :
    (h.modifyInstance r.inst fun i => { i with store := some s' }).Stands id r e s' := by
  obtain ⟨i, there, -⟩ := Option.bind_eq_some_iff.1 stands.idle
  refine ⟨stands.present, stands.bound, stands.own, ?_⟩
  rw [store?, instance?_modifyInstance, if_pos rfl, there]
  rfl

/-- What the runner was told, or has counted, is recorded. -/
theorem record (f : Runner → Runner) (environment : (f r).environment = r.environment)
    (inst : (f r).inst = r.inst) :
    ({ h with runners := h.runners.modify id f } : Host σ).Stands id (f r) e s where
  present := by
    show (h.runners.modify id f).get? id = _
    rw [Pool.get?_modify, if_pos rfl, stands.present, Option.map_some]
  bound := environment ▸ stands.bound
  own := inst ▸ stands.own
  idle := inst ▸ stands.idle

/-- The user data of the environment is replaced. -/
theorem modifyEnvironment (f : Environment → Environment) (inst : (f e).inst = e.inst) :
    (h.modifyEnvironment r.environment f).Stands id r (f e) s where
  present := stands.present
  bound := by
    rw [Host.modifyEnvironment, Pool.get?_modify, if_pos rfl, stands.bound, Option.map_some]
  own := inst.trans stands.own
  idle := stands.idle

end Host.Stands

/-! ### Printing -/

/-- As long as the host is quiet, what is printed leaves a runner alone, with its environment and the
store of its instance, and the host stays quiet. Whether it does so depends on the application, and on
what the objects were made with. -/
structure Discreet (printer : Printer σ) (quiet : Host σ → Prop) (id environment inst : Nat) :
    Prop where
  since : ∀ h h' : Host σ, h.Since h' → h'.app = h.app → quiet h → quiet h'
  stays : ∀ commons bytes h, quiet h → quiet (printer commons bytes h)
  runner : ∀ commons bytes h, quiet h →
    (printer commons bytes h).runners.get? id = h.runners.get? id
  environment : ∀ commons bytes h, quiet h →
    (printer commons bytes h).environments.get? environment = h.environments.get? environment
  store : ∀ commons bytes h, quiet h → (printer commons bytes h).store? inst = h.store? inst

/-- Printing that goes to the output, and does nothing else, is discreet. -/
theorem Silent.discreet {app : σ} (silent : Silent printer app) (id environment inst : Nat) :
    Discreet printer (·.app = app) id environment inst where
  since _ _ _ same quiet := same.trans quiet
  stays commons bytes h quiet := by
    rw [silent commons bytes h quiet]
    exact quiet
  runner commons bytes h quiet := by
    rw [silent commons bytes h quiet]
    rfl
  environment commons bytes h quiet := by
    rw [silent commons bytes h quiet]
    rfl
  store commons bytes h quiet := by
    rw [silent commons bytes h quiet]
    rfl

namespace Discreet

variable {quiet : Host σ → Prop} {id : Nat} {r : Runner} {e : Environment} {s : Store}

/-- A discreet print leaves a runner standing. -/
theorem stands (discreet : Discreet printer quiet id r.environment r.inst) (stands : h.Stands id r e s)
    (calm : quiet h) (commons : Nat) (bytes : Bytes) : (printer commons bytes h).Stands id r e s where
  present := (discreet.runner commons bytes h calm).trans stands.present
  bound := (discreet.environment commons bytes h calm).trans stands.bound
  own := stands.own
  idle := (discreet.store commons bytes h calm).trans stands.idle

section

variable {environment inst : Nat} (discreet : Discreet printer quiet id environment inst)
  (calm : quiet h)
include discreet calm

/-- The host stays quiet when a store is put in its place. -/
theorem putStore (j : Nat) (s : Store) :
    quiet (h.modifyInstance j fun i => { i with store := some s }) :=
  discreet.since h _ (h.since_modifyInstance j _ fun _ => rfl) rfl calm

/-- The host stays quiet when user data changes. -/
theorem putUserData (j : Nat) (f : Environment → UserData) :
    quiet (h.modifyEnvironment j fun e => { e with userData := f e }) :=
  discreet.since h _ (h.since_modifyEnvironment j _ fun _ => rfl) rfl calm

/-- The host stays quiet when the runner records something. -/
theorem record (f : Runner → Runner)
    (same : ∀ r, ((f r).environment, (f r).inst, (f r).module, (f r).commons) =
      (r.environment, r.inst, r.module, r.commons)) :
    quiet { h with runners := h.runners.modify id f } :=
  discreet.since h _ (h.since_modifyRunner id f same) rfl calm

end

/-- Whatever a call in flight does, the runner is left alone, and so is its environment. -/
theorem working {environment inst : Nat} (discreet : Discreet printer quiet id environment inst)
    (c : Caller) : Working printer c fun x y : Flight σ => quiet x.host → quiet y.host ∧
      y.host.runners.get? id = x.host.runners.get? id ∧
        y.host.environments.get? environment = x.host.environments.get? environment where
  refl _ calm := ⟨calm, rfl, rfl⟩
  trans first second calm := by
    obtain ⟨calm, runner, environment⟩ := first calm
    obtain ⟨calm, runner', environment'⟩ := second calm
    exact ⟨calm, runner'.trans runner, environment'.trans environment⟩
  store _ _ _ _ _ calm := ⟨calm, rfl, rfl⟩
  -- Printing runs hooks of the application, which are discreet; the rest is about the store
  -- alone.
  print x bytes calm := ⟨discreet.stays c.commons bytes x.host calm,
    discreet.runner c.commons bytes x.host calm, discreet.environment c.commons bytes x.host calm⟩
  clock x calm := by
    obtain ⟨p, eq⟩ := x.host.readClock_eq c.commons
    rw [eq]
    exact ⟨discreet.since x.host _ (x.host.since_commons p) rfl calm, rfl, rfl⟩
  mark _ _ _ calm := ⟨calm, rfl, rfl⟩
  grow x memory pages before y grown calm := by
    obtain ⟨_, _, _, _, -, -, -, -, -, -, -, host⟩ := Flight.growMemory?_eq_some grown
    rw [host]
    exact ⟨discreet.since x.host _ ((x.host.since_commons _).trans
      (Host.since_modifyInstance _ _ _ fun _ => rfl)) rfl calm, rfl, rfl⟩

end Discreet

/-! ### Calls -/

/-- The store that a call enters is the one at rest. -/
theorem Entry.store_of_idle {environment inst : Nat} {name : String} {args : List HostValue}
    {results : List HostType} {e : Environment} {s : Store}
    (entry : Entry h environment name args results)
    (bound : h.environments.get? environment = some e) (own : e.inst = inst)
    (idle : h.store? inst = some s) : entry.callee.store = s := by
  obtain ⟨i, there, free, -⟩ := Host.callee_eq_ok entry.found
  have env : entry.env = e := Option.some.inj (entry.bound.symm.trans bound)
  rw [env, own] at there
  rw [Host.store?, there, Option.bind_some, free] at idle
  exact Option.some.inj idle

/-- **Calls.** A call that a runner makes gives the environment the user data back that it had on
loan, and leaves the store that the guest has left. -/
theorem Entry.stands_landed [Engine] [Holder σ] [Rule σ] {g : Pending} {quiet : Host σ → Prop}
    {id : Nat} {r : Runner} {e : Environment} {s : Store}
    (discreet : Discreet printer quiet id r.environment r.inst) (stands : h.Stands id r e s)
    (calm : quiet h) {name : String} {args : List HostValue} {results : List HostType}
    (entry : Entry h r.environment name args results) (s' : Store)
    (sound : Config.Sound ⟨entry.landed (entry.run printer).2 s', g⟩)
    (chained : Config.Chained ⟨entry.landed (entry.run printer).2 s', g⟩) :
    ∃ userData, (entry.run printer).2.store.active = some ⟨r.environment, userData⟩ ∧
      (entry.landed (entry.run printer).2 s').Stands id r { e with userData } s' ∧
        quiet (entry.landed (entry.run printer).2 s') := by
  have env : entry.env = e := Option.some.inj (entry.bound.symm.trans stands.bound)
  have inst : entry.callee.caller.inst = r.inst := by rw [entry.caller_inst, env, stands.own]
  obtain ⟨w, lent, -⟩ := entry.returns printer
  have flown := (within_enter (discreet.working entry.callee.caller) entry.callee.room
    entry.callee.function entry.params).snd entry.flight
    (discreet.since h _ (h.since_beginCall _ _) rfl calm)
  change quiet (entry.run printer).2.host ∧ (entry.run printer).2.host.runners.get? id =
    h.runners.get? id ∧ (entry.run printer).2.host.environments.get? r.environment =
      (h.environments.modify r.environment _).get? r.environment at flown
  obtain ⟨calm, runner, environment⟩ := flown
  rw [Pool.get?_modify, if_pos rfl, stands.bound, Option.map_some] at environment
  refine ⟨w, lent, ?_, ?_⟩
  · unfold Entry.landed at sound chained ⊢
    rw [lent, Option.map_some, inst] at sound chained ⊢
    have present : ((entry.run printer).2.host.endCall r.inst r.environment (some w)
        s').runners.get? id = some r := by
      rw [Host.endCall, (Host.undisturbed_releaseInstance _ _).runners]
      exact runner.trans stands.present
    -- The runner holds the instance, so the end of the call was not the end of the instance.
    obtain ⟨_, i, manned⟩ := sound.manned chained present
    refine ⟨present, ?_, stands.own, ?_⟩
    · rw [Host.environments_endCall, Pool.get?_modify, if_pos rfl, environment]
      rfl
    · rw [Host.store?, manned.there, Option.bind_some, Host.store_endCall manned.there]
  · exact discreet.since _ _ (Host.since_endCall _ _ _ _ _) (Host.app_endCall _ _ _ _ _) calm

/-! ### Counters -/

/-- An exported counter as the host reads it, or why it does not. -/
def Store.reading (s : Store) (name : String) : Except Error UInt64 :=
  match s.guest.exportedGlobal? name with
  | none => .error (.notFound .global name)
  | some (i, declared) =>
    match checkGlobal .i64 declared.type with
    | .error e => .error e
    | .ok () =>
      match s.guest.globals[i]? with
      | none => .error (.notFound .global name)
      | some (.i64 bits) => .ok bits
      | some v =>
        match Wire.ofValue v with
        | .error e => .error e
        | .ok w => .error (.typeMismatch NumType.i64.name w.kind.name)

/-- A check that fails is not a fault of the guest. -/
theorem checkGlobal_error {kind : NumType} {declared : Wasm.ValType} {e : Error}
    (failed : checkGlobal kind declared = .error e) : e.faultKind? = none := by
  unfold checkGlobal at failed
  split at failed
  · split at failed
    · cases failed
    · cases failed
      rfl
  · cases failed
    rfl

/-- A value that can not be decoded is no fault of the guest. -/
theorem Wire.ofValue_error {v : Wasm.Value} {e : Error} (failed : ofValue v = .error e) :
    e.faultKind? = none := by
  unfold ofValue at failed
  split at failed <;> cases failed
  rfl

section

variable {s : Store} {name : String}

/-- What is read is what callbacks find. -/
theorem Store.reading_eq_ok {bits : UInt64} (read : s.reading name = .ok bits) {c : Caller}
    {counter : UInt64} (found : s.counter? c name = some counter) : counter = bits := by
  unfold counter? at found
  obtain ⟨⟨i, declared⟩, exported, found⟩ := Option.bind_eq_some_iff.1 found
  split at exported
  case isFalse => cases exported
  unfold reading at read
  rw [exported] at read
  dsimp only at read found
  split at read
  case h_1 => cases read
  generalize s.guest.globals[i]? = v at read found
  rcases v with _ | v
  · cases found
  · cases v <;> cases found
    cases read
    rfl

/-- A counter that cannot be read is not a fault of the guest. -/
theorem Store.reading_error {e : Error} (failed : s.reading name = .error e) :
    e.faultKind? = none := by
  unfold reading at failed
  split at failed
  · cases failed
    rfl
  · split at failed
    case h_1 checked =>
      cases failed
      exact checkGlobal_error checked
    case h_2 =>
      split at failed
      · cases failed
        rfl
      · cases failed
      · split at failed
        case h_1 refused =>
          cases failed
          exact Wire.ofValue_error refused
        case h_2 =>
          cases failed
          rfl

end

/-- A store at rest is in its place. -/
theorem exec_store {id : Nat} {s : Store} (idle : h.store? id = some s) :
    exec (HostM.store id) h = (.ok s, h) := by
  obtain ⟨i, there, idle⟩ := Option.bind_eq_some_iff.1 idle
  refine exec_eq_of_ends ?_
  rw [ends_store]
  simp only [there, idle, Option.some.injEq, forall_eq', reduceCtorEq, false_implies, and_true]

/-- An exported global of an instance at rest is found by its name, or missed. -/
theorem exec_exportedGlobal {id : Nat} {s : Store} (idle : h.store? id = some s) (name : String) :
    exec (HostM.exportedGlobal id name) h =
      match s.guest.exportedGlobal? name with
      | none => (.error (.notFound .global name), h)
      | some (i, declared) => (.ok (s, i, declared), h) := by
  unfold HostM.exportedGlobal
  rw [exec_bind, exec_store idle]
  dsimp only
  rw [exec_bind]
  rcases s.guest.exportedGlobal? name with _ | ⟨i, declared⟩ <;> rfl

/-- A result that is handed on decides what comes next. -/
theorem exec_ofExcept_bind {α β : Type} (a : Except Error α) (f : α → HostM σ β) :
    exec (HostM.ofExcept a >>= f) h =
      match a with
      | .error e => (.error e, h)
      | .ok a => exec (f a) h := by
  cases a <;> rfl

/-- Setting a global of an instance at rest changes the store, if it does anything, and nothing else. -/
theorem ends_setGlobal {id : Nat} {s : Store} (idle : h.store? id = some s) (name : String)
    (value : HostValue) : Ends (HostM.setGlobal id name value) h
      (fun _ t => ∃ s', s'.latch = s.latch ∧
        t = h.modifyInstance id fun i => { i with store := some s' })
      fun e t => t = h ∧ e.faultKind? = none := by
  unfold HostM.setGlobal
  unfold Ends
  rw [exec_bind, exec_exportedGlobal idle]
  rcases s.guest.exportedGlobal? name with _ | ⟨i, declared⟩
  · exact ⟨rfl, rfl⟩
  dsimp only
  rw [exec_ofExcept_bind]
  cases checked : checkGlobal value.type.kind declared.type with
  | error e => exact ⟨rfl, checkGlobal_error checked⟩
  | ok _ =>
    dsimp only
    -- Only a mutable global is set; any other is found and refused.
    by_cases settable : declared.isMutable
    · rw [settable]
      exact ⟨{ s with guest := s.guest.setGlobal i value.encode.toValue }, rfl, rfl⟩
    · rw [Bool.eq_false_iff.2 settable]
      exact ⟨rfl, rfl⟩

/-- **Reading counters.** What the host reads depends on the store alone, and nothing happens to it. -/
theorem exec_getUInt64 {id : Nat} {s : Store} (idle : h.store? id = some s) (name : String) :
    exec (HostM.getUInt64 id name) h = (s.reading name, h) := by
  unfold HostM.getUInt64 HostM.getGlobal Store.reading
  rw [bind_assoc, exec_bind, exec_exportedGlobal idle]
  rcases s.guest.exportedGlobal? name with _ | ⟨i, declared⟩
  · rfl
  dsimp only
  have kind : HostType.u64.kind = NumType.i64 := rfl
  rw [bind_assoc, exec_ofExcept_bind, kind]
  rcases checkGlobal .i64 declared.type with e | ⟨⟩
  · rfl
  dsimp only
  rcases s.guest.globals[i]? with _ | v
  · rfl
  · cases v <;> rfl

/-! ### Counters past their thresholds -/

variable [Engine]

/-- The user data that is lent to a call has recorded the counter of the guest. -/
def Store.Recorded (s : Store) : Prop :=
  ∃ environment userData c, s.active = some ⟨environment, userData⟩ ∧
    userData.thresholdExceeded = true ∧
      s.counter? c counterGlobal = some userData.instructionCount

/-- **Counters.** A guest that is ended because its counter is past the threshold has its counter
recorded: nothing happens any more after the callback that does so. -/
theorem Entry.recorded_of_raises {environment : Nat} {name : String} {args : List HostValue}
    {results : List HostType} (entry : Entry h environment name args results) {fault : Fault}
    (sandboxed : entry.callee.store.guest.Sandboxed) (raises : entry.Raises printer fault)
    (kind : fault.kind = .counterExceeded) : (entry.run printer).2.store.Recorded := by
  obtain ⟨n, given, -, may, c, u, ran⟩ := entry.calls_of_raises sandboxed raises
  rw [kind] at may
  cases Native.eq_of_mayRaise_counterExceeded may
  rcases ended : entry.run printer with ⟨cause | values, after⟩
  · have latch := (((entry.latched sandboxed).of_error ended).raised fault).1 raises
    have told : exec (Native.runCounterExceeded printer c) u = (.error cause, after) :=
      ran.symm.trans ended
    rcases (ends_counterExceeded u).of_error told with
      ⟨counter, threshold, a, count, -, -, store⟩ | ⟨-, store⟩
    · show after.store.Recorded
      rw [store]
      exact ⟨a.environment, a.userData.recordExceeded counter, c, rfl, rfl, count⟩
    · -- The callback could not do its work, and so it has latched another fault.
      rw [store] at latch
      cases latch
      cases kind
  · exact absurd raises (((entry.latched sandboxed).of_ok ended).2 fault)

end Embedder
