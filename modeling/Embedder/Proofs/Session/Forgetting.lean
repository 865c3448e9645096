import Embedder.Proofs.Host.Outcomes
import Embedder.Proofs.Host.Reckoning
import Embedder.Proofs.Session.Exclusion
import Embedder.Proofs.Session.Footprint

namespace Embedder

open Session (CallRequest EnvironmentStep RunnerStep Slots Step act callEach callWith
  environment_callWith hookedPrinter leads_stepWith runWith stepWith)

/-!
# What an app heap forgets

The app heap of an instance at rest holds the blocks of the instance. It goes on to hold those that are
dropped while a call is in flight on the instance, and no other ones: whatever is done with other
instances meanwhile, and whatever is printed, the heap is accounted for. The steps of hooks need no
account of their own, because what they print runs no hook, so that nothing is dropped while they make a
call.

* `Mindful`: printing that keeps account of app heaps.
* `Invoker.tallied_call_of_ne`, `Invoker.sheds_call`: calls on other instances, and on the instance.
* `tallied_run`: runs of a runner.
* `Step.forgets`, `tallied_stepWith`: the blocks that a step makes a heap forget, and that these are all.
* `mindful_hookedPrinter`: the account that is kept of what hooks do.
-/

/-! ### Environments that are given up -/

section

variable {σ : Type} {h h' : Host σ} {id : Nat}

/-- Where blocks and instances are the same, nothing is shed. -/
theorem Host.sheds_of_same (blocks : h'.blocks = h.blocks) (instances : h'.instances = h.instances) :
    h.Sheds h' id where
  older _ _ there _ := blocks ▸ there
  heap i s there idle := ⟨i, s, by rwa [Host.instance?, instances] at there, idle, rfl⟩

/-- To let go of an instance takes no block, and leaves app heaps as they are. -/
theorem Host.sheds_releaseInstance (h : Host σ) (id j : Nat) : h.Sheds (h.releaseInstance j) id where
  older k b there _ := by rwa [(h.undisturbed_releaseInstance j).blocks] at there
  heap := by
    intro i s there idle
    refine ⟨i, s, ?_, idle, rfl⟩
    obtain ⟨c', here, rfl⟩ := Option.map_eq_some_iff.1 there
    -- An instance that is still there has lost a holder at most; its store is what it was.
    by_cases own : id = j
    · subst own
      rw [h.get?_releaseInstance] at here
      obtain ⟨c, before, left⟩ := Option.bind_eq_some_iff.1 here
      rw [Host.instance?, before, Option.map_some, Counted.value_release? left]
    · rw [h.instances_releaseInstance_of_ne own] at here
      rw [Host.instance?, here, Option.map_some]

/-- So does to drop an environment, which lets go of its instance. -/
theorem Host.sheds_dropEnvironment (h : Host σ) (id j : Nat) :
    h.Sheds (h.dropEnvironment j) id := by
  unfold dropEnvironment
  split
  · exact .refl h id
  -- The environment goes first, which is in no block and in no store.
  · refine Host.Sheds.trans ?_ (Host.sheds_releaseInstance _ id _)
    exact Host.sheds_of_same rfl rfl

end

/-- A name that an environment gets may have stood for another one, which is dropped. -/
theorem Session.sheds_put (s : Session) (name : String) (j id : Nat) :
    s.Sheds (s.put ⟨.environment, name⟩ j) id := by
  have named : s.Sheds (s.modifyNames (·.set ⟨.environment, name⟩ j)) id := Host.sheds_of_same rfl rfl
  unfold put
  dsimp only
  -- The drop comes after the new name, as in any other put.
  split
  · exact named.trans (Host.sheds_dropEnvironment _ id _)
  · exact named

/-! ### Printing -/

variable [HookRule] {printer : Printer Slots} {s : Session} {g : Pending} {id : Nat} {lost : List Span}

/-- Printing that keeps account of app heaps: while an instance is in a call, no block of it gets an
owner, and while it is at rest, its blocks and what was forgotten before are all that is live. -/
structure Mindful (printer : Printer Slots) : Prop where
  traced : Traced (fun _ => True) printer
  withholds : Withholds printer
  counts : ∀ {s : Session} {g : Pending} {id : Nat} {lost : List Span},
    Config.Tallied ⟨s, g⟩ id lost → g.taken id = [] → ∀ commons bytes,
      Config.Tallied ⟨printer commons bytes s, g⟩ id lost

/-- Printing without a hook keeps account: it adds to the output, and that is all. -/
theorem mindful_emit : Mindful Host.emit where
  traced := traced_emit
  withholds := withholds_emit
  counts tallied _ _ _ := tallied.leads (traced_emit _ _ _ _)

/-! ### Calls -/

section

variable [Engine] (mindful : Mindful printer)
include mindful

/-- A call on another instance makes the app heap forget nothing. -/
theorem Invoker.tallied_call_of_ne (v : Invoker) (tallied : Config.Tallied ⟨s, g⟩ id lost)
    (none : g.taken id = [])
    (other : ∀ e, s.environments.get? v.environment = some e → e.inst ≠ id) (name : String)
    (args : List HostValue) (results : List HostType) :
    Config.Tallied ⟨(v.call printer name args results s).2.2, g⟩ id lost := by
  rcases v.exists_entry_or_same printer name args results s with ⟨⟨entry⟩⟩ | same
  · obtain ⟨i, there, idle, -, -⟩ := Host.callee_eq_ok entry.found
    have apart := other entry.env entry.bound
    -- The call is a run of changes and prints, all on another instance: each one leaves the
    -- account as it is.
    exact entry.call_induct (P := fun c => c.Tallied id lost)
      (tallied.orderly.sound.free there idle) (fun same => apart (Effect.enters.inj same)) nofun
      (fun lead tallied => tallied.leads lead)
      (fun _ _ commons bytes _ tallied => mindful.counts tallied none commons bytes) tallied
  · rw [same]
    exact tallied

/-- A call on the instance takes no block of it, and leaves its app heap as it is. -/
theorem Invoker.sheds_call (v : Invoker) (ha : Config.Orderly ⟨s, g⟩)
    (own : ∀ e, s.environments.get? v.environment = some e → e.inst = id) (name : String)
    (args : List HostValue) (results : List HostType) :
    s.Sheds (v.call printer name args results s).2.2 id := by
  rcases v.exists_entry_or_same printer name args results s with ⟨⟨entry⟩⟩ | same
  · have inst := own entry.env entry.bound
    obtain ⟨i, there, idle, -, -⟩ := Host.callee_eq_ok entry.found
    have lead := entry.leads_call_of_held mindful.withholds ha
    obtain ⟨store, heap, back⟩ := entry.heap_call printer
    rw [inst] at there lead back
    -- The store is away from the session while the guest runs, so no block is made here, and the
    -- heap comes back with it.
    refine ⟨lead.blocks_of_denied ha.sound fun keeps => keeps rfl, fun i' s' there' idle' => ?_⟩
    cases (back i' there').symm.trans idle'
    exact ⟨i, entry.callee.store, there, idle, heap⟩
  · rw [same]
    exact .refl s id

/-- Whichever instance a call is made on, the blocks that it makes the app heap forget are those of the
instance that are gone, if it is the one that is called. -/
theorem Invoker.tallied_call (v : Invoker) (tallied : Config.Tallied ⟨s, g⟩ id lost)
    (none : g.taken id = []) {e : Environment}
    (bound : s.environments.get? v.environment = some e) (name : String) (args : List HostValue)
    (results : List HostType) :
    Config.Tallied ⟨(v.call printer name args results s).2.2, g⟩ id
      ((if e.inst = id then s.gone (v.call printer name args results s).2.2 id else []).map
        (fun b => b.span.served) ++ lost) := by
  split
  case isTrue own =>
    refine tallied.shed none (leads_call mindful.traced v (fun _ _ => trivial) trivial _ _ _)
      (v.sheds_call mindful tallied.orderly (fun d there => ?_) name args results)
    cases bound.symm.trans there
    exact own
  case isFalse apart =>
    refine v.tallied_call_of_ne mindful tallied none (fun d there => ?_) name args results
    cases bound.symm.trans there
    exact apart

/-! ### Calls one after another -/

omit mindful [Engine] [HookRule] in
/-- An environment belongs to its instance as long as it is there. -/
theorem Host.Since.environment {h h' : Session} (since : h.Since h') {id : Nat} {e : Environment}
    (old : id < h.environments.next) (there : h'.environments.get? id = some e) :
    ∃ d, h.environments.get? id = some d ∧ e.inst = d.inst := by
  obtain ⟨d, before, same⟩ := since.environments.old _ e old there
  exact ⟨d, before, (congrArg Prod.fst same).symm⟩

/-- A first call leaves the environment of the next ones with its instance. -/
theorem Session.next_callWith (ha : Config.Orderly ⟨s, g⟩) (v : Invoker)
    (old : v.environment < s.environments.next) (request : CallRequest) (args : List HostValue) :
    v.environment < ((callWith printer v request args).run s).2.environments.next ∧
      ∀ e, ((callWith printer v request args).run s).2.environments.get? v.environment = some e →
        ∃ d, s.environments.get? v.environment = some d ∧ e.inst = d.inst := by
  have lead : Leads (fun _ => True) ⟨s, g⟩ ⟨((callWith printer v request args).run s).2, g⟩ :=
    Session.leads_callWith mindful.traced v (fun _ _ => trivial) trivial request args
  have since := lead.since ha.sound
  exact ⟨Nat.lt_of_lt_of_le old since.environments.next, fun e there => since.environment old there⟩

/-- By induction on what is asked for, calls on another instance make the app heap forget nothing. -/
theorem Session.tallied_callEach_of_ne {v : Invoker} (tallied : Config.Tallied ⟨s, g⟩ id lost)
    (none : g.taken id = []) (old : v.environment < s.environments.next)
    (other : ∀ e, s.environments.get? v.environment = some e → e.inst ≠ id)
    (requests : List (CallRequest × List HostValue)) :
    Config.Tallied ⟨((callEach printer v requests).run s).2, g⟩ id lost := by
  induction requests generalizing v s with
  | nil => exact tallied
  | cons first rest ih =>
    obtain ⟨request, args⟩ := first
    have called := v.tallied_call_of_ne mindful tallied none other request.function args
      request.results
    obtain ⟨next, known⟩ := Session.next_callWith mindful tallied.orderly v old request args
    have same := environment_callWith printer v request args s
    rw [run_callEach_cons]
    refine ih called (same ▸ next) fun e there => ?_
    obtain ⟨d, before, eq⟩ := known e (same ▸ there)
    exact eq ▸ other d before

/-- Calls on the instance take no block of it, and leave its app heap as it is. -/
theorem Session.sheds_callEach (ha : Config.Orderly ⟨s, g⟩) {v : Invoker}
    (old : v.environment < s.environments.next)
    (own : ∀ e, s.environments.get? v.environment = some e → e.inst = id)
    (requests : List (CallRequest × List HostValue)) :
    s.Sheds ((callEach printer v requests).run s).2 id := by
  induction requests generalizing v s with
  | nil => exact .refl s id
  | cons first rest ih =>
    obtain ⟨request, args⟩ := first
    have shed := v.sheds_call mindful ha own request.function args request.results
    have lead : Leads (fun _ => True) ⟨s, g⟩ ⟨((callWith printer v request args).run s).2, g⟩ :=
      Session.leads_callWith mindful.traced v (fun _ _ => trivial) trivial request args
    obtain ⟨next, known⟩ := Session.next_callWith mindful ha v old request args
    have same := environment_callWith printer v request args s
    rw [run_callEach_cons]
    refine Host.Sheds.trans shed (ih (lead.orderly ha) (same ▸ next) fun e there => ?_)
    obtain ⟨d, before, eq⟩ := known e (same ▸ there)
    exact eq.trans (own d before)

end

/-! ### Runs -/

/-- The blocks of an instance that are dropped while a runner's run has called the entry point. -/
def Session.forgottenInRun [Engine] (printer : Printer Slots) (s : Session) (id j : Nat) (r : Runner)
    (b : Build) (threshold : UInt64) : List Block :=
  let t := b.calling printer j r.commons threshold s
  if r.inst = id then
    t.gone (exec (HostM.runEntry printer j b.main (b.more threshold)) t).2 id
  else []

omit [HookRule] in
/-- Settling how a call ended is nothing to blocks. -/
theorem ends_settle_blocks {σ : Type} {h : Host σ} (j : Nat) (ended : Except Error (List HostValue)) :
    Ends (HostM.settle j ended) h (fun _ t => t.blocks = h.blocks) fun _ t => t.blocks = h.blocks := by
  unfold HostM.settle
  split
  · exact rfl
  · exact rfl
  · simp only [ends_bind_iff, ends_runner, ends_environment]
    refine ⟨fun r _ => ⟨fun e _ => ?_, fun _ => trivial⟩, fun _ => trivial⟩
    split
    · exact rfl
    · simp only [HostM.clearException, ends_bind_iff, ends_store, ends_putStore, ends_pure]
      exact ⟨fun _ _ _ _ => rfl, fun _ _ _ => trivial, fun _ => trivial⟩

section

variable [Engine] (mindful : Mindful printer)
include mindful

omit [Engine] in
/-- Once there is an outcome, the heap forgets nothing more. -/
theorem tallied_closing (tallied : Config.Tallied ⟨s, g⟩ id lost) (none : g.taken id = [])
    (b : Build) (j : Nat) (r : Runner) (threshold : UInt64) (outcome : Outcome) :
    Config.Tallied ⟨(exec (b.closing printer j r threshold outcome) s).2, g⟩ id lost := by
  refine Ends.state (P := fun t => Config.Tallied ⟨t, g⟩ id lost) ?_
  cases b with
  | plain => exact tallied
  | instrumented =>
    refine ends_bind (P := fun _ t => Config.Tallied ⟨t, g⟩ id lost)
      ((keeps_getUInt64 _ _).mono (fun _ _ lead => tallied.leads lead) fun _ _ lead =>
        tallied.leads lead) fun counter t tallied => ?_
    have recorded : Leads (Avoids id) ⟨t, g⟩
        ⟨{ t with runners := t.runners.modify j fun r => { r with counter } }, g⟩ :=
      .of_change (@Change.recorded _ _ _ _ _ g j Runner.threshold fun _ => counter)
    exact mindful.counts (tallied.leads recorded) none _ _

omit [Engine] in
/-- Before the entry point is called, the heap forgets nothing. -/
theorem tallied_calling (tallied : Config.Tallied ⟨s, g⟩ id lost) (none : g.taken id = [])
    (b : Build) (j commons : Nat) (threshold : UInt64) :
    Config.Tallied ⟨b.calling printer j commons threshold s, g⟩ id lost := by
  cases b with
  | plain => exact mindful.counts tallied none _ _
  | instrumented =>
    have recorded : Leads (Avoids id) ⟨s, g⟩
        ⟨{ s with runners := s.runners.modify j fun r => { r with threshold } }, g⟩ :=
      .of_change (@Change.recorded _ _ _ _ _ g j (fun _ => threshold) Runner.counter)
    exact mindful.counts (tallied.leads recorded) none _ _

/-- **Runs.** What a run makes the heap forget are the blocks of its instance that are dropped while the
entry point is being called. -/
theorem tallied_run {j : Nat} {r : Runner}
    (tallied : Config.Tallied ⟨s, g.pin .runner j⟩ id lost) (none : g.taken id = [])
    (present : s.runners.get? j = some r) (b : Build) (threshold : UInt64) :
    Config.Tallied ⟨(exec (b.run printer j threshold) s).2, g.pin .runner j⟩ id
      ((s.forgottenInRun printer id j r b threshold).map (fun b => b.span.served) ++ lost) := by
  have announced := tallied_calling mindful tallied none b j r.commons threshold
  have since := (leads_calling mindful.traced b j r.commons threshold).since tallied.orderly.sound
  rw [exec_run b threshold present, Session.forgottenInRun]
  dsimp only at since ⊢
  generalize b.calling printer j r.commons threshold s = t at announced since ⊢
  -- The runner is in hand, so it is there still, with its environment.
  obtain ⟨r', there⟩ := Pool.get?_of_owned_pos (announced.orderly.sound.holders_pos .runner (by simp))
  obtain ⟨-, inst⟩ := since.runner present there
  obtain ⟨e, i, manned⟩ := announced.orderly.sound.manned announced.chained there
  have called := (Invoker.ofEnvironment r'.environment).tallied_call mindful announced none
    manned.bound b.main (e.lengths ++ b.more threshold) [.i32]
  rw [manned.own, inst] at called
  rw [exec_bind, exec_runEntry manned]
  generalize (Invoker.ofEnvironment r'.environment).call printer b.main (e.lengths ++ b.more threshold)
    [.i32] t = ended at called
  have settled : Config.Tallied ⟨(exec (HostM.settle j ended.1) ended.2.2).2, g.pin .runner j⟩ id _ :=
    Ends.state (P := fun u => Config.Tallied ⟨u, g.pin .runner j⟩ id _)
      ((keeps_settle (fun _ _ => nofun) ended.1).mono (fun _ _ lead => called.leads lead)
        fun _ _ lead => called.leads lead)
  have blocks : (exec (HostM.settle j ended.1) ended.2.2).2.blocks = ended.2.2.blocks :=
    Ends.state (P := fun u : Session => u.blocks = ended.2.2.blocks) (ends_settle_blocks j ended.1)
  have gone : t.gone (exec (HostM.settle j ended.1) ended.2.2).2 id = t.gone ended.2.2 id := by
    rw [Host.gone, blocks, Host.gone]
  rw [gone]
  generalize exec (HostM.settle j ended.1) ended.2.2 = r at settled ⊢
  obtain ⟨error | outcome, u⟩ := r
  · exact settled
  · exact tallied_closing mindful settled none b j r threshold outcome

end

/-! ### Steps -/

omit [HookRule] in
/-- A step that uses an object has it back under its name in the end. -/
theorem Session.state_away {α : Type} {kind : Session.Kind} {name : String}
    {x : Nat → SessionM α} (s : Session) :
    ((SessionM.away kind name x).run.run s).2 = (s.app.names.get? ⟨kind, name⟩).elim s fun j =>
      ((x j).run.run (s.modifyNames (·.erase ⟨kind, name⟩))).2.put ⟨kind, name⟩ j := by
  refine yields_snd (P := (· = _)).1 ?_
  simp only [SessionM.away, yields_bind_iff, yields_find, yields_modify, yields_lift, yields_keep,
    yields_ofOption]
  refine ⟨fun j named => ?_, fun none => ?_⟩
  · rw [named]
    exact ⟨fun _ _ => rfl, fun _ => rfl⟩
  · rw [none]
    rfl

namespace Session

/-- The build of the entry point that a runner is asked to run, and its threshold. -/
def RunnerStep.build? : RunnerStep → Option (Build × UInt64)
  | .runPlain => some (.plain, 0)
  | .runInstrumented threshold => some (.instrumented, threshold)
  | _ => none

/-- The environment of a name. -/
def namedEnvironment? (s : Session) (name : String) : Option Environment :=
  (s.app.names.get? ⟨.environment, name⟩).bind s.environments.get?

/-- The blocks of an instance that are dropped while the calls of a step are in flight on it: calls
through an environment of the instance, and runs of a runner of it. -/
def Step.forgets [Engine] (printer : Printer Slots) (s : Session) (id : Nat) : Step → List Block
  | .environment name e =>
    if e.requests?.isSome ∧ (s.namedEnvironment? name).map Environment.inst = some id then
      s.gone (stepWith printer (.environment name e) s).2 id
    else []
  | .runner name r => Option.getD (do
      let (b, threshold) ← r.build?
      let j ← s.app.names.get? ⟨.runner, name⟩
      let r ← s.runners.get? j
      pure ((s.modifyNames (·.erase ⟨.runner, name⟩)).forgottenInRun printer id j r b threshold)) []
  | _ => []

/-- Whether a step brings up instances. -/
def Step.BringsUp : Step → Prop
  | .runtime _ (.createRunner ..) => True
  | .runtime _ (.benchmark ..) => True
  | .module _ (.instantiate ..) => True
  | _ => False

omit [HookRule] in
/-- What a step calls guests for, it runs code for. -/
theorem Step.Enters.runsCode {st : Step} (enters : st.Enters s id) : st.RunsCode := by
  cases st with
  | runtime name r => cases r <;> trivial
  | environment name e => cases e <;> trivial
  | runner name r => cases r <;> trivial
  | _ => exact enters.elim

omit [HookRule] in
/-- Where nothing is run, nothing is printed. -/
theorem stepWith_of_still [Engine] {st : Step} (still : ¬ st.RunsCode) (printer : Printer Slots)
    (s : Session) : stepWith printer st s = stepWith Host.emit st s := by
  have same : act printer st = act Host.emit st := by
    cases st with
    | runtime name r => cases r <;> first | exact absurd trivial still | rfl
    | module name m => cases m <;> first | exact absurd trivial still | rfl
    | environment name e => cases e <;> first | exact absurd trivial still | rfl
    | runner name r => cases r <;> first | exact absurd trivial still | rfl
    | _ => rfl
  rw [stepWith, same, stepWith]

/-- A step that calls no guest of an instance, and whose prints run no hook, does not enter it. -/
theorem leads_emit_of_apart [Engine] (any : ∀ hook, HookRule.admits hook) {st : Step}
    (apart : ¬ st.Enters s id) : Leads (Avoids id) ⟨s, g⟩ ⟨(stepWith Host.emit st s).2, g⟩ :=
  leads_stepWith traced_emit nofun st s ⟨fun _ _ => nofun, fun _ _ => nofun, fun _ _ => nofun,
    fun _ enters same => apart (Effect.enters.inj same ▸ enters)⟩ fun hook _ => any hook

/-! ### What steps come to -/

section

omit [HookRule]

variable [Engine]

/-- A step that asks for calls makes them one after another, or misses something and does nothing. -/
theorem state_environment (printer : Printer Slots) {e : EnvironmentStep} {requests : List CallRequest}
    (calls : e.requests? = some requests) (name : String) (s : Session) :
    (stepWith printer (.environment name e) s).2 = s ∨
      ∃ j args, s.app.names.get? ⟨.environment, name⟩ = some j ∧
        (stepWith printer (.environment name e) s).2 =
          ((callEach printer (.ofEnvironment j) (requests.zip args)).run
            (s.modifyNames (·.erase ⟨.environment, name⟩))).2.put ⟨.environment, name⟩ j := by
  obtain ⟨f, x, acts, run⟩ := actOnEnvironment_of_requests printer calls name
  rw [stepWith_snd, act, acts]
  refine yields_snd (P := fun t => t = s ∨ ∃ j args, s.app.names.get? ⟨.environment, name⟩ = some j ∧
    t = ((callEach printer (.ofEnvironment j) (requests.zip args)).run
      (s.modifyNames (·.erase ⟨.environment, name⟩))).2.put ⟨.environment, name⟩ j).1 ?_
  refine yields_bind ((yields_argumentsOf requests).mono (fun _ _ found => found) fun _ => .inl) ?_
  rintro args t ⟨same, passed⟩
  subst t
  rw [yields_snd, state_away]
  cases named : s.app.names.get? ⟨.environment, name⟩ with
  | none => exact .inl rfl
  | some j => exact .inr ⟨j, args, rfl, by rw [Option.elim_some, run args j _ passed]⟩

/-- A step that asks for a run runs the runner of the name, if there is one. -/
theorem state_runner (printer : Printer Slots) {r : RunnerStep} {b : Build} {threshold : UInt64}
    (runs : r.build? = some (b, threshold)) (name : String) (s : Session) :
    (stepWith printer (.runner name r) s).2 = (s.app.names.get? ⟨.runner, name⟩).elim s fun j =>
      Session.put (exec (b.run printer j threshold) (s.modifyNames (·.erase ⟨.runner, name⟩))).2
        ⟨.runner, name⟩ j := by
  cases r <;> cases runs
  all_goals
    rw [stepWith_snd]
    exact state_away s

/-- A step that asks for something to be printed prints it, or finds no output and does nothing. -/
theorem state_print (printer : Printer Slots) (name : String) (bytes : Bytes) (s : Session) :
    (stepWith printer (.runtime name (.print bytes)) s).2 = s ∨
      ∃ commons, (stepWith printer (.runtime name (.print bytes)) s).2 = printer commons bytes s := by
  rw [stepWith_snd]
  refine yields_snd (P := fun t => t = s ∨ ∃ commons, t = printer commons bytes s).1 ?_
  simp only [act, actOnRuntime, yields_bind_iff, yields_get, yields_find, yields_ofOption, yields_modify,
    yields_pure]
  exact ⟨fun _ _ => ⟨fun r _ => .inr ⟨_, rfl⟩, fun _ => .inl trivial⟩, fun _ => .inl trivial⟩

end

section

variable [Engine] (mindful : Mindful printer)
include mindful

/-- **Environments.** A step that asks for calls makes the heap forget the blocks of the instance that
are gone after it, if it is the instance that is called. -/
theorem tallied_environment (tallied : Config.Tallied ⟨s, g⟩ id lost) (none : g.taken id = [])
    {name : String} {e : EnvironmentStep} (calls : e.requests?.isSome) :
    Config.Tallied ⟨(stepWith printer (.environment name e) s).2, g⟩ id
      (((Step.environment name e).forgets printer s id).map (fun b => b.span.served) ++ lost) := by
  obtain ⟨requests, asked⟩ := Option.isSome_iff_exists.1 calls
  rcases state_environment printer asked name s with same | ⟨j, args, named, eq⟩
  · have nothing : (Step.environment name e).forgets printer s id = [] := by
      simp [Step.forgets, same, Host.gone_of_same fun _ => rfl]
    rw [same, nothing]
    exact tallied
  -- While it is called through, the environment has no name.
  have erased : ∀ {allowed : Effect → Prop}, allowed .renames →
      Leads allowed ⟨s, g⟩ ⟨_, g.pin .environment j⟩ := fun renames => leads_erase named renames
  have away := tallied.leads (erased nofun)
  obtain ⟨d, present⟩ := Pool.get?_of_owned_pos
    (holders_pos_of_named tallied.orderly.sound named (by simp))
  have old := Pool.lt_next_of_get?_eq_some present
  have found : s.namedEnvironment? name = some d := by
    rw [namedEnvironment?, named, Option.bind_some, present]
  have home : ∀ d', s.environments.get? j = some d' → d'.inst = d.inst := by
    intro d' there
    cases present.symm.trans there
    rfl
  rw [Step.forgets, found, eq]
  by_cases own : d.inst = id
  · rw [if_pos ⟨calls, congrArg some own⟩]
    have called := sheds_callEach mindful away.orderly (v := .ofEnvironment j) old
      (fun d' there => (home d' there).trans own) (requests.zip args)
    have lead := leads_callEach (g := g.pin .environment j) mindful.traced (.ofEnvironment j)
      (s := s.modifyNames (·.erase ⟨.environment, name⟩)) (fun _ _ _ _ => trivial) trivial
      (requests.zip args)
    have unnamed : s.Sheds (s.modifyNames (·.erase ⟨.environment, name⟩)) id :=
      Host.sheds_of_same rfl rfl
    exact tallied.shed none (((erased trivial).trans lead).trans (leads_put ⟨.environment, name⟩ j trivial))
      ((unnamed.trans called).trans (sheds_put _ name j id))
  · rw [if_neg fun both => own (Option.some.inj both.2)]
    have called := tallied_callEach_of_ne mindful away none (v := .ofEnvironment j) old
      (fun d' there => home d' there ▸ own) (requests.zip args)
    exact called.leads (leads_put ⟨.environment, name⟩ j nofun)

/-- **Runners.** A step that asks for a run makes the heap forget what the run does. -/
theorem tallied_runner (tallied : Config.Tallied ⟨s, g⟩ id lost) (none : g.taken id = [])
    {name : String} {r : RunnerStep} {b : Build} {threshold : UInt64}
    (runs : r.build? = some (b, threshold)) :
    Config.Tallied ⟨(stepWith printer (.runner name r) s).2, g⟩ id
      (((Step.runner name r).forgets printer s id).map (fun b => b.span.served) ++ lost) := by
  rw [state_runner printer runs, Step.forgets, runs]
  cases named : s.app.names.get? ⟨.runner, name⟩ with
  | none => exact tallied
  | some j =>
    obtain ⟨r, present⟩ := Pool.get?_of_owned_pos
      (holders_pos_of_named tallied.orderly.sound named (by simp))
    -- The runner is in hand while it runs, and has its name again afterwards.
    have erased : Leads (Avoids id) ⟨s, g⟩ ⟨s.modifyNames (·.erase ⟨.runner, name⟩), g.pin .runner j⟩ :=
      leads_erase named nofun
    have ran := tallied_run mindful (tallied.leads erased) none present b threshold
    have forgets : Option.getD (do
        let (b, threshold) ← some (b, threshold)
        let j ← some j
        let r ← s.runners.get? j
        pure ((s.modifyNames (·.erase ⟨.runner, name⟩)).forgottenInRun printer id j r b threshold)) [] =
          (s.modifyNames (·.erase ⟨.runner, name⟩)).forgottenInRun printer id j r b threshold := by
      simp [show s.runners.get? j = some r from present]
    rw [forgets]
    exact ran.leads (leads_put ⟨.runner, name⟩ j nofun)

/-- **Steps.** Whatever is asked for, but new instances, the heap forgets the blocks that are dropped
while the step calls the instance, and no other ones. -/
theorem tallied_stepWith (any : ∀ hook, HookRule.admits hook)
    (tallied : Config.Tallied ⟨s, g⟩ id lost) (none : g.taken id = []) {st : Step}
    (settled : ¬ st.BringsUp) :
    Config.Tallied ⟨(stepWith printer st s).2, g⟩ id
      ((st.forgets printer s id).map (fun b => b.span.served) ++ lost) := by
  -- A step that runs no code drops nothing of the heap behind the back of the application.
  have still : ¬ st.RunsCode → st.forgets printer s id = [] →
      Config.Tallied ⟨(stepWith printer st s).2, g⟩ id
        ((st.forgets printer s id).map (fun b => b.span.served) ++ lost) := by
    intro still nothing
    rw [stepWith_of_still still, nothing]
    exact tallied.leads (leads_emit_of_apart any fun enters => still enters.runsCode)
  cases st with
  | runtime name r =>
    cases r with
    | print bytes =>
      rcases state_print printer name bytes s with same | ⟨commons, printed⟩
      · rw [same]
        exact tallied
      · rw [printed]
        exact mindful.counts tallied none commons bytes
    | createRunner => exact absurd trivial settled
    | benchmark => exact absurd trivial settled
    | _ => exact still (fun code => code) rfl
  | module name m =>
    cases m with
    | instantiate => exact absurd trivial settled
    | _ => exact still (fun code => code) rfl
  | environment name e =>
    by_cases calls : e.requests?.isSome
    · exact tallied_environment mindful tallied none calls
    · refine still (fun runs => calls ?_) (if_neg fun both => calls both.1)
      cases e <;> first | rfl | exact runs.elim
  | runner name r =>
    cases runs : r.build? with
    | some build => exact tallied_runner mindful tallied none runs
    | none =>
      refine still (fun code => ?_) (by rw [Step.forgets, runs]; rfl)
      cases r <;> first | exact code | cases runs
  | _ => exact still (fun code => code) rfl

end

/-! ### Hooks -/

section

omit [HookRule]

/-- An environment that loses its name to another one takes no block along. -/
theorem blocks_put (s : Session) (name : String) (j : Nat) :
    (s.put ⟨.environment, name⟩ j).blocks = s.blocks := by
  unfold put
  dsimp only
  split
  · exact Host.blocks_dropEnvironment _ _
  · rfl

variable [Engine]

/-- A call whose prints run no hook is nothing to blocks. -/
theorem get?_blocks_call (v : Invoker) (name : String) (args : List HostValue)
    (results : List HostType) (k : Nat) :
    (v.call Host.emit name args results s).2.2.blocks.get? k = s.blocks.get? k := by
  rcases v.exists_entry_or_same Host.emit name args results s with ⟨⟨entry⟩⟩ | same
  · exact (v.confined_call (fun _ _ _ _ => rfl) entry.bound name args results).get?_blocks (by simp)
  · rw [same]

/-- Nor are calls one after another, by induction on what is asked for. -/
theorem get?_blocks_callEach (v : Invoker) (requests : List (CallRequest × List HostValue)) (k : Nat) :
    ((callEach Host.emit v requests).run s).2.blocks.get? k = s.blocks.get? k := by
  induction requests generalizing v s with
  | nil => rfl
  | cons first rest ih =>
    rw [run_callEach_cons]
    exact (ih _).trans (get?_blocks_call v first.1.function first.2 first.1.results k)

/-- Nor is a run of which no print runs a hook. -/
theorem get?_blocks_runEntry (j : Nat) (name : String) (more : List HostValue) (k : Nat) :
    (exec (HostM.runEntry Host.emit j name more) s).2.blocks.get? k = s.blocks.get? k := by
  refine Ends.state (P := fun t : Session => t.blocks.get? k = s.blocks.get? k) ?_
  simp only [HostM.runEntry, HostM.eventLengths, ends_bind_iff, ends_runner, ends_environment, ends_pure]
  refine ⟨fun r _ => ⟨fun e _ => ?_, fun _ => trivial⟩, fun _ => trivial⟩
  unfold Ends
  rw [exec_attempt, exec_call]
  exact (ends_settle_blocks j _).mono
    (fun _ _ same => (congrArg (·.get? k) same).trans (get?_blocks_call _ _ _ _ k))
    fun _ _ same => (congrArg (·.get? k) same).trans (get?_blocks_call _ _ _ _ k)

/-- Where prints run no hook, nothing is dropped while a step makes a call. -/
theorem Step.forgets_emit (s : Session) (id : Nat) (st : Step) : st.forgets Host.emit s id = [] := by
  cases st with
  | environment name e =>
    cases calls : e.requests? with
    | none => simp [forgets, calls]
    | some requests =>
      -- Calls without hooks leave the blocks alone, as do runs.
      have kept : ∀ k, (stepWith Host.emit (.environment name e) s).2.blocks.get? k =
          s.blocks.get? k := by
        intro k
        rcases state_environment Host.emit calls name s with same | ⟨j, args, -, eq⟩
        · rw [same]
        · rw [eq, blocks_put]
          exact get?_blocks_callEach _ _ k
      simp [forgets, Host.gone_of_same kept]
  | runner name r =>
    have nothing : ∀ (t : Session) j r b threshold,
        t.forgottenInRun Host.emit id j r b threshold = [] := by
      intro t j r b threshold
      rw [forgottenInRun, Host.gone_of_same (get?_blocks_runEntry j b.main _), ite_self]
    simp only [forgets, nothing]
    cases r.build? with
    | none => rfl
    | some build =>
      cases s.app.names.get? ⟨.runner, name⟩ with
      | none => rfl
      | some j => cases present : s.runners.get? j <;> simp [present]
  | _ => rfl

end

section

variable [Engine] (any : ∀ hook, HookRule.admits hook)
include any

/-- **Hooks.** What a hook does makes the heap of an instance at rest forget nothing. -/
theorem tallied_emit (tallied : Config.Tallied ⟨s, g⟩ id lost) (none : g.taken id = []) (st : Step) :
    Config.Tallied ⟨(stepWith Host.emit st s).2, g⟩ id lost := by
  by_cases enters : st.Enters s id
  · have settled : ¬ st.BringsUp := by
      intro up
      cases st with
      | runtime name r =>
        cases r with
        | benchmark => exact absurd tallied.old (Nat.not_lt.2 enters)
        | _ => exact enters.elim
      | module => exact enters.elim
      | _ => exact up.elim
    have ran := tallied_stepWith mindful_emit any tallied none settled
    rw [Step.forgets_emit] at ran
    exact ran
  · exact tallied.leads (leads_emit_of_apart any enters)

/-- By induction on the steps of a hook. -/
theorem tallied_runWith_emit (tallied : Config.Tallied ⟨s, g⟩ id lost) (none : g.taken id = [])
    (steps : List Step) : Config.Tallied ⟨(runWith Host.emit steps s).2, g⟩ id lost := by
  induction steps generalizing s with
  | nil => exact tallied
  | cons st steps ih => exact ih (tallied_emit any tallied none st)

/-- What is printed keeps account of app heaps, with all that its hook does. -/
theorem mindful_hookedPrinter : Mindful hookedPrinter where
  traced := traced_of_any any
  withholds := withholds_hookedPrinter any
  counts tallied none commons bytes := by
    have emitted := mindful_emit.counts tallied none commons bytes
    unfold hookedPrinter
    dsimp only
    split
    case h_1 => exact emitted
    case h_2 steps _ =>
      refine (tallied_runWith_emit any emitted none steps).leads (.of_change ?_)
      exact .app (fun _ _ _ => rfl) (fun _ h => h) (.inr nofun)

end

end Session

end Embedder
