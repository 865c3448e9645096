import Embedder.Proofs.Host.Forfeiture
import Embedder.Proofs.Session.Steps

namespace Embedder

open Session (CallRequest EnvironmentStep InstanceStep BlockStep Slot Slots Step Answer Payload act
  actOnBlock actOnEnvironment actOnInstance blockOf blockView callEach callWith hookedPrinter runWith
  stepWith)

/-!
# Steps that are turned away

While a call has the store of an instance in hand, a step that is aimed at the instance is turned
away, whoever makes it. Nothing happens to the session, but that blocks that are dropped are
forgotten, and their names with them.

* `Session.Belongs`, `Step.Aims`: names of an instance and of what belongs to it, and the steps that
  need its store.
* `Step.TurnedAway`: the answers to steps that are turned away.
* `Session.Short`: sessions that are alike, but for blocks of an instance that were dropped.
* `turnedAway_stepWith`, `turnedAway_runWith`: one step, and any number of them.
* `short_hookedPrinter`: what is printed, with all that its hook is turned away from.
-/

/-! ### Aims -/

namespace Session

/-- What a name stands for, if anything, is an instance, or an environment or a block of it. -/
def Belongs (s : Session) (id : Nat) (slot : Slot) : Prop :=
  ∀ j, s.app.names.get? slot = some j →
    match slot.kind with
    | .inst => j = id
    | .environment => ∀ e, s.environments.get? j = some e → e.inst = id
    | .block => ∀ b, s.blocks.get? j = some b → b.inst = id
    | _ => False

/-- The name of the object for which a step needs a store: an instance or a block of which something
is asked, an environment that is called through, or a block that is dropped. -/
def Step.target? : Step → Option Slot
  | .inst _ (.createEnvironment ..) => none
  | .inst name _ => some ⟨.inst, name⟩
  | .block _ .address => none
  | .block _ (.move _) => none
  | .block name _ => some ⟨.block, name⟩
  | .environment name (.call _) => some ⟨.environment, name⟩
  | .environment name (.callDirectly _) => some ⟨.environment, name⟩
  | .environment name (.callAll _) => some ⟨.environment, name⟩
  | .drop ⟨.block, name⟩ => some ⟨.block, name⟩
  | _ => none

/-- A step needs the store of an instance. -/
def Step.Aims (s : Session) (id : Nat) (st : Step) : Prop :=
  ∃ slot, st.target? = some slot ∧ s.Belongs id slot

end Session

/-- Errors that are found before a store is asked for. -/
def Error.IsEarly : Error → Prop
  | .outOfBounds .. => True
  | .sizeMismatch .. => True
  | .allocation _ (.badAlignment _) => True
  | .allocation _ .beyondRange => True
  | .allocation _ (.tooManyElements ..) => True
  | _ => False

/-- What is wrong before the store is asked for is found before the store is asked for. -/
theorem Needs.early {σ α : Type} {h : Host σ} {id : Nat} {x : HostM σ α} {wrong : Option Error}
    (needs : Needs h id α x wrong) : wrong.getD .busy = .busy ∨ (wrong.getD .busy).IsEarly := by
  have misfit : ∀ (t : GuestType) bytes,
      (t.misfit? bytes).getD .busy = .busy ∨ ((t.misfit? bytes).getD .busy).IsEarly := by
    intro t bytes
    unfold GuestType.misfit?
    split
    · exact .inr trivial
    · split
      · exact .inr trivial
      · exact .inl rfl
  cases needs with
  | allocate t value => exact misfit t _
  | allocateArray t count =>
    split
    · exact .inr trivial
    · exact misfit t _
  | getElement block own i => split <;> [exact .inl rfl; exact .inr trivial]
  | setElement block own i => split <;> [exact .inl rfl; exact .inr trivial]
  | writeAll block own => split <;> [exact .inl rfl; exact .inr trivial]
  | _ => exact .inl rfl

/-- An answer that turns a step away: an object is missing, the instance is busy, or something is
wrong that is found before the store is asked for. A block that is dropped is not kept by this. -/
inductive Session.Step.TurnedAway : Step → Answer → Prop
  | absent {st : Step} : TurnedAway st .absent
  | dropped {slot : Slot} : TurnedAway (.drop slot) (.plain .nothing)
  | refused {st : Step} {e : Error} (early : e = .busy ∨ e.IsEarly) :
      TurnedAway st (.result (.error e))
  | called {st : Step} {phase : Phase} : TurnedAway st (.called ⟨.error .busy, phase⟩)
  | calledAll {st : Step} {cs : List Session.CallAnswer} (all : ∀ c ∈ cs, c.result = .error .busy) :
      TurnedAway st (.calledAll cs)

/-! ### Sessions without some blocks -/

/-- A session is like another one, but that some blocks of an instance may be gone, and with them
their names and their holds on the instance. -/
structure Session.Short (id : Nat) (s t : Session) : Prop where
  commons : t.commons = s.commons
  runtimes : t.runtimes = s.runtimes
  modules : t.modules = s.modules
  instances : ∀ j, t.instance? j = s.instance? j
  environments : t.environments = s.environments
  blocks : ∀ j, t.blocks.get? j = s.blocks.get? j ∨
    t.blocks.get? j = none ∧ ∃ b, s.blocks.get? j = some b ∧ b.inst = id
  runners : t.runners = s.runners
  released : t.released = s.released
  hooks : t.app.hooks = s.app.hooks
  names : ∀ slot, t.app.names.get? slot = s.app.names.get? slot ∨
    t.app.names.get? slot = none ∧ slot.kind = .block ∧ s.Belongs id slot

namespace Session.Short

variable {id : Nat} {s t u : Session}

/-- A session is short of nothing compared with itself. -/
theorem refl (s : Session) : s.Short id s :=
  ⟨rfl, rfl, rfl, fun _ => rfl, rfl, fun _ => .inl rfl, rfl, rfl, rfl, fun _ => .inl rfl⟩

/-- A name that is there was there before, for the same object. -/
theorem named (short : s.Short id t) {slot : Slot} {j : Nat}
    (there : t.app.names.get? slot = some j) : s.app.names.get? slot = some j := by
  rcases short.names slot with same | ⟨gone, -⟩
  · exact same.symm.trans there
  · cases gone.symm.trans there

/-- A block that is there was there before. -/
theorem block (short : s.Short id t) {j : Nat} {b : Block} (there : t.blocks.get? j = some b) :
    s.blocks.get? j = some b := by
  rcases short.blocks j with same | ⟨gone, -⟩
  · exact same.symm.trans there
  · cases gone.symm.trans there

/-- What belongs to the instance still does, as far as it is there. -/
theorem belongs (short : s.Short id t) {slot : Slot} (belongs : s.Belongs id slot) :
    t.Belongs id slot := by
  obtain ⟨kind, name⟩ := slot
  intro j there
  have before := belongs j (short.named there)
  cases kind with
  | environment => exact fun e present => before e (short.environments ▸ present)
  | block => exact fun b present => before b (short.block present)
  | _ => exact before

/-- What a name that is left belongs to, it belonged to before. -/
theorem belongs_of_same (short : s.Short id t) {slot : Slot}
    (same : t.app.names.get? slot = s.app.names.get? slot) (belongs : t.Belongs id slot) :
    s.Belongs id slot := by
  obtain ⟨kind, name⟩ := slot
  intro j there
  have after := belongs j (same.trans there)
  cases kind with
  | environment => exact fun e present => after e (short.environments ▸ present)
  | block =>
    intro b present
    rcases short.blocks j with same | ⟨-, b', there', own⟩
    · exact after b (same.trans present)
    · cases present.symm.trans there'
      exact own
  | _ => exact after

/-- What is aimed at an instance is aimed at it when blocks are gone, too. -/
theorem aims (short : s.Short id t) {st : Step} (aims : st.Aims s id) : st.Aims t id := by
  obtain ⟨slot, target, belongs⟩ := aims
  exact ⟨slot, target, short.belongs belongs⟩

/-- What is gone at first stays gone. -/
theorem trans (first : s.Short id t) (second : t.Short id u) : s.Short id u where
  commons := second.commons.trans first.commons
  runtimes := second.runtimes.trans first.runtimes
  modules := second.modules.trans first.modules
  instances j := (second.instances j).trans (first.instances j)
  environments := second.environments.trans first.environments
  blocks j := by
    rcases second.blocks j with same | ⟨gone, b, there, own⟩
    · rw [same]
      exact first.blocks j
    · exact .inr ⟨gone, b, first.block there, own⟩
  runners := second.runners.trans first.runners
  released := second.released.trans first.released
  hooks := second.hooks.trans first.hooks
  names slot := by
    -- A name that is lost on the way was still there before the second part.
    rcases second.names slot with same | ⟨gone, block, belongs⟩
    · rw [same]
      exact first.names slot
    · rcases first.names slot with same | lost
      · exact .inr ⟨gone, block, first.belongs_of_same same belongs⟩
      · exact .inr ⟨gone, lost.2⟩

/-- An object gets back the name that it had. -/
theorem renamed {slot : Slot} {j : Nat} (named : s.app.names.get? slot = some j) :
    s.Short id ((s.modifyNames (·.erase slot)).put slot j) := by
  have put : (s.modifyNames (·.erase slot)).put slot j =
      (s.modifyNames (·.erase slot)).modifyNames (·.set slot j) := by
    unfold Session.put
    rw [show (s.modifyNames (·.erase slot)).app.names.get? slot = none from
      Table.get?_erase_self _ _]
  rw [put]
  refine { Short.refl s with names := fun slot' => .inl ?_ }
  show ((s.app.names.erase slot).set slot j).get? slot' = _
  by_cases e : slot' = slot
  · rw [e, Table.get?_set_self, named]
  · rw [Table.get?_set_of_ne _ _ e, Table.get?_erase_of_ne _ e]

/-- A block is forgotten, and its hold on the instance given up. -/
theorem forget {j : Nat} {b : Block} (present : s.blocks.get? j = some b) (own : b.inst = id) :
    Session.Short id s { s with
      blocks := s.blocks.erase j
      instances := s.instances.modify id fun c => { c with holders := c.holders - 1 } } := by
  refine ⟨rfl, rfl, rfl, fun k => ?_, rfl, fun k => ?_, rfl, rfl, rfl, fun _ => .inl rfl⟩
  · simp only [Host.instance?, Pool.get?_modify]
    split
    · rw [Option.map_map]
      rfl
    · rfl
  · show (s.blocks.erase j).get? k = _ ∨ _
    rw [Pool.get?_erase]
    split
    case isTrue e => exact .inr ⟨rfl, b, e ▸ present, own⟩
    case isFalse => exact .inl rfl

/-- What is printed is printed with and without the blocks. -/
theorem emit (short : s.Short id t) (commons : Nat) (bytes : Bytes) :
    Session.Short id (s.emit commons bytes) (t.emit commons bytes) :=
  { short with
    commons := congrArg (fun p : Pool Commons => p.modify commons fun c =>
      { c with output := c.output.print bytes }) short.commons }

/-- A clock tells the same with and without the blocks. -/
theorem readClock (short : s.Short id t) (commons : Nat) :
    (s.readClock commons).1 = (t.readClock commons).1 ∧
      Session.Short id (s.readClock commons).2 (t.readClock commons).2 := by
  unfold Host.readClock
  rw [short.commons]
  split
  · exact ⟨rfl, short⟩
  · exact ⟨rfl, { short with commons := rfl }⟩

end Session.Short

/-! ### Steps -/

section

variable {printer : Printer Slots} {s : Session} {g : Pending} {id : Nat} {loan : Loan}

/-- A part of a step is turned away and changes nothing. -/
def Refuses (st : Step) (x : SessionM Answer) (s : Session) : Prop :=
  Yields x s (fun a t => t = s ∧ st.TurnedAway a) fun t => t = s

/-- Where something is only looked up, what comes next is turned away. -/
theorem refuses_bind {α : Type} {st : Step} {x : SessionM α} {f : α → SessionM Answer}
    {P : α → Prop} (first : Yields x s (fun a t => t = s ∧ P a) fun t => t = s)
    (rest : ∀ a, P a → Refuses st (f a) s) : Refuses st (x >>= f) s := by
  refine yields_bind first ?_
  rintro a _ ⟨rfl, found⟩
  exact rest a found

/-- To look up a name changes nothing. -/
theorem yields_find_same (kind : Session.Kind) (name : String) :
    Yields (SessionM.find kind name) s
      (fun j t => t = s ∧ s.app.names.get? ⟨kind, name⟩ = some j) fun t => t = s := by
  rw [yields_find]
  exact ⟨fun _ named => ⟨rfl, named⟩, fun _ => rfl⟩

/-- To miss something changes nothing. -/
theorem yields_ofOption_same {α : Type} (a : Option α) :
    Yields (SessionM.ofOption a) s (fun v t => t = s ∧ a = some v) fun t => t = s := by
  rw [yields_ofOption]
  exact ⟨fun _ found => ⟨rfl, found⟩, fun _ => rfl⟩

section

variable (locked : s.Locked id)
include locked

/-- An operation that needs a store is turned away with its answer. -/
theorem refuses_answer {st : Step} {α : Type} {view : α → Payload} {x : HostM Slots α}
    {wrong : Option Error} (needs : Needs s id α x wrong) :
    Refuses st (SessionM.answer view x) s := by
  simp only [Refuses, SessionM.answer, yields_bind_iff, yields_host, yields_pure,
    needs.exec locked]
  exact ⟨trivial, .refused needs.early⟩

omit locked in
/-- An operation that may panic is turned away by an error, or else it panics. -/
theorem refuses_attempt {st : Step} {α : Type} {view : α → Payload} {x : HostM Slots (Attempt α)}
    {ended : Except Error (Attempt α)} (done : exec x s = (ended, s))
    (turned : ∀ a, ended ≠ .ok (.returns a))
    (early : ∀ e, ended = .error e → e = .busy ∨ e.IsEarly) :
    Refuses st (SessionM.attempt view x) s := by
  simp only [Refuses, SessionM.attempt, yields_bind_iff, yields_host, yields_ofOption, done]
  rcases ended with e | (a | message)
  · exact ⟨fun _ told => ⟨trivial, Option.some.inj told ▸ .refused (early e rfl)⟩,
      fun none => absurd none (Option.some_ne_none _)⟩
  · exact absurd rfl (turned a)
  · exact ⟨fun _ told => absurd told.symm (Option.some_ne_none _), fun _ => trivial⟩

/-- An operation that makes something is turned away, and gives no name. -/
theorem refuses_create {st : Step} {kind : Session.Kind} {name : String} {x : HostM Slots Nat}
    {view : Nat → SessionM Payload} {wrong : Option Error} (needs : Needs s id Nat x wrong) :
    Refuses st (SessionM.create kind name x view) s := by
  simp only [Refuses, SessionM.create, yields_bind_iff, yields_host, needs.exec locked]
  exact ⟨rfl, .refused needs.early⟩

omit locked in
/-- What needs an array, or needs none. -/
theorem refuses_unless {st : Step} {c : Prop} [Decidable c] {x : Unit → SessionM Answer}
    (rest : Refuses st (x ()) s) : Refuses st (if c then failure >>= x else x ()) s := by
  split
  · exact rfl
  · exact rest

/-! ### Instances and blocks -/

/-- Whatever is asked of an instance in a call is turned away, as long as it needs the store. -/
theorem refuses_actOnInstance {name : String} {i : InstanceStep}
    (aims : (Step.inst name i).Aims s id) :
    Refuses (.inst name i) (actOnInstance name i) s := by
  refine refuses_bind (yields_find_same _ _) fun j named => ?_
  obtain ⟨slot, target, belongs⟩ := aims
  have own : j = id := by cases i <;> cases target <;> exact belongs j named
  subst own
  -- Each request asks for the store, so each one is turned away for the same reason.
  cases i with
  | createEnvironment into stack => cases target
  | getGlobal global type => exact refuses_answer locked (.getGlobal global type)
  | setGlobal global value => exact refuses_answer locked (.setGlobal global value)
  | memorySize => exact refuses_answer locked .memorySize
  | heapStats => exact refuses_answer locked .heapStats
  | hasException => exact refuses_answer locked .exception
  | exceptionMessage => exact refuses_answer locked .exception
  | exception => exact refuses_answer locked .exception
  | clearException => exact refuses_answer locked .clearException
  | setException fault => exact refuses_answer locked (.setException fault)
  | allocate into type value =>
    exact refuses_bind (yields_ofOption_same _) fun d _ => refuses_create locked (.allocate type d)
  | allocateArray into type count => exact refuses_create locked (.allocateArray type count)
  | readCounter => exact refuses_answer locked .readCounter
  | readCounters => exact refuses_answer locked .readCounters
  | resetCounters => exact refuses_answer locked .resetCounters

/-- Literals are not written to a block whose instance is in a call. -/
theorem refuses_writeLiterals {st : Step} {j : Nat} {b : Block} (block : s.blocks.get? j = some b)
    (own : b.inst = id) (contents : Session.Contents) :
    Refuses st (Session.writeLiterals b contents) s := by
  unfold Session.writeLiterals
  cases contents with
  | one l =>
    refine refuses_unless ?_
    exact refuses_bind (yields_ofOption_same _) fun d _ =>
      refuses_answer locked (.writeValue block own d)
  | all ls =>
    refine refuses_unless ?_
    refine refuses_bind (yields_ofOption_same _) fun ds _ => ?_
    -- An array of empty slots has nothing to write, so it never asks for the store.
    by_cases filled : ds.length = b.length → 0 < b.type.size
    · have needs : Needs s id _ (HostM.writeAll b ds) _ := .writeAll block own ds filled
      refine refuses_attempt (needs.exec locked) (fun _ done => by cases done) fun e found => ?_
      cases found
      exact needs.early
    · obtain ⟨same, empty⟩ := Classical.not_imp.1 filled
      rw [HostM.writeAll_of_empty same (Nat.eq_zero_of_not_pos empty)]
      exact refuses_attempt rfl (fun _ done => by cases done) fun _ failed => by cases failed

/-- Whatever is asked of a block whose instance is in a call is turned away. -/
theorem refuses_actOnBlock {name : String} {b : BlockStep} (aims : (Step.block name b).Aims s id) :
    Refuses (.block name b) (actOnBlock name b) s := by
  have found : Yields (blockOf name) s
      (fun c t => t = s ∧ ∃ j, s.app.names.get? ⟨.block, name⟩ = some j ∧
        s.blocks.get? j = some c) fun t => t = s := by
    simp only [blockOf, yields_bind_iff, yields_get, yields_find, yields_ofOption]
    exact ⟨fun j named => ⟨fun c block => ⟨trivial, j, named, block⟩, fun _ => trivial⟩,
      fun _ => trivial⟩
  refine refuses_bind found fun c there => ?_
  obtain ⟨j, named, block⟩ := there
  obtain ⟨slot, target, belongs⟩ := aims
  -- The block is one of the instance that is locked, whatever the step does to it.
  have own : c.inst = id := by cases b <;> cases target <;> exact belongs j named c block
  cases b with
  | read =>
    dsimp only
    split
    · exact refuses_answer locked (.readValue block own)
    · have needs : Needs s id _ (HostM.readAll c) _ := .readAll block own
      refine refuses_attempt (needs.exec locked) (fun _ done => by cases done) fun e found => ?_
      cases found
      exact needs.early
  | write contents => exact refuses_writeLiterals locked block own contents
  | get index =>
    refine refuses_unless ?_
    exact refuses_answer locked (.getElement block own index)
  | set index value =>
    refine refuses_unless ?_
    exact refuses_bind (yields_ofOption_same _) fun d _ =>
      refuses_answer locked (.setElement block own index d)
  | address => cases target
  | move into => cases target

/-! ### Calls -/

variable {v : Invoker} {e : Environment} (bound : s.environments.get? v.environment = some e)
  (own : e.inst = id)
include bound own

omit locked bound own in
theorem run_callWith [Engine] (v : Invoker) (request : CallRequest) (args : List HostValue) :
    (callWith printer v request args).run s =
      (fun r => ((⟨r.1, r.2.1.phase⟩, r.2.1), r.2.2))
        (v.call printer request.function args request.results s) := rfl

/-- A call on an instance that is in a call is turned away. -/
theorem callWith_of_locked [Engine] (printer : Printer Slots) (request : CallRequest)
    (args : List HostValue) :
    (callWith printer v request args).run s = ((⟨.error .busy, v.ready.phase⟩, v.ready), s) := by
  rw [run_callWith, call_of_locked locked printer bound own]

omit locked bound own in
theorem run_callEach_cons [Engine] (v : Invoker) (request : CallRequest) (args : List HostValue)
    (rest : List (CallRequest × List HostValue)) :
    (callEach printer v ((request, args) :: rest)).run s =
      (fun r => (r.1.1 :: ((callEach printer r.1.2 rest).run r.2).1,
        ((callEach printer r.1.2 rest).run r.2).2)) ((callWith printer v request args).run s) := rfl

/-- So are calls one after another, by induction on what is asked for. -/
theorem callEach_of_locked [Engine] (printer : Printer Slots)
    (requests : List (CallRequest × List HostValue)) :
    ((callEach printer v requests).run s).2 = s ∧
      ∀ c ∈ ((callEach printer v requests).run s).1, c.result = .error .busy := by
  induction requests generalizing v with
  | nil => exact ⟨rfl, nofun⟩
  | cons first rest ih =>
    obtain ⟨request, args⟩ := first
    have called := callWith_of_locked locked bound own printer request args
    obtain ⟨same, all⟩ := ih (v := v.ready) (by simpa using bound)
    rw [run_callEach_cons, called]
    exact ⟨same, List.forall_mem_cons.2 ⟨rfl, all⟩⟩

end

/-! ### All steps -/

/-- A part of a step is turned away, and nothing happens but that blocks may be gone. -/
def Repels (id : Nat) (st : Step) (x : SessionM Answer) (s : Session) : Prop :=
  Yields x s (fun a t => st.TurnedAway a ∧ s.Short id t ∧ t.app.heard = s.app.heard)
    fun t => s.Short id t ∧ t.app.heard = s.app.heard

/-- What is turned away repels the step. -/
theorem Refuses.repels {st : Step} {x : SessionM Answer} (refuses : Refuses st x s) :
    Repels id st x s := by
  refine refuses.mono ?_ ?_
  · rintro a _ ⟨rfl, turned⟩
    exact ⟨turned, .refl _, rfl⟩
  · rintro _ rfl
    exact ⟨.refl _, rfl⟩

/-- Where something is only looked up, what comes next repels the step. -/
theorem repels_bind {α : Type} {st : Step} {x : SessionM α} {f : α → SessionM Answer} {P : α → Prop}
    (first : Yields x s (fun a t => t = s ∧ P a) fun t => t = s)
    (rest : ∀ a, P a → Repels id st (f a) s) : Repels id st (x >>= f) s := by
  refine yields_bind (first.mono (fun _ _ h => h) ?_) ?_
  · rintro _ rfl
    exact ⟨.refl _, rfl⟩
  · rintro a _ ⟨rfl, found⟩
    exact rest a found

/-- An object that is used, and was turned away, gets its name back. Blocks may go with what loses
the name. -/
theorem repels_away {st : Step} {kind : Session.Kind} {name : String} {act : Nat → SessionM Answer}
    (acts : ∀ j, s.app.names.get? ⟨kind, name⟩ = some j →
      Refuses st (act j) (s.modifyNames (·.erase ⟨kind, name⟩))) :
    Repels id st (SessionM.away kind name act) s := by
  simp only [Repels, SessionM.away, yields_bind_iff, yields_find, yields_modify, yields_lift,
    yields_keep, yields_ofOption]
  refine ⟨fun j named => ?_, fun _ => ⟨.refl s, trivial⟩⟩
  have refused := acts j named
  have back : ∀ t, t = s.modifyNames (·.erase ⟨kind, name⟩) →
      s.Short id (t.put ⟨kind, name⟩ j) ∧ (t.put ⟨kind, name⟩ j).app.heard = s.app.heard := by
    rintro _ rfl
    exact ⟨.renamed named, by rw [Session.app_put]; rfl⟩
  unfold Refuses Yields at refused
  generalize (act j).run.run (s.modifyNames (·.erase ⟨kind, name⟩)) = r at refused ⊢
  obtain ⟨_ | a, t⟩ := r
  · exact ⟨by rintro _ ⟨⟩, fun _ => back t refused⟩
  · refine ⟨?_, by rintro ⟨⟩⟩
    rintro b ⟨⟩
    exact ⟨refused.2, back t refused.1⟩

section

variable [HookRule] (ha : Config.Orderly ⟨s, g⟩) (held : g.held id = some loan) (ready : loan.ready = true)
include ha held ready

/-- Whatever is asked of an environment of an instance in a call is turned away, as long as it
needs the store. -/
theorem repels_actOnEnvironment [Engine] {name : String} {c : EnvironmentStep}
    (aims : (Step.environment name c).Aims s id) :
    Repels id (.environment name c) (actOnEnvironment printer name c) s := by
  obtain ⟨slot, target, belongs⟩ := aims
  have found : slot = ⟨.environment, name⟩ := by cases c <;> cases target <;> rfl
  subst found
  -- The step takes the environment out of the names before it calls, and the instance is locked
  -- all the same.
  have locked : (s.modifyNames (·.erase ⟨.environment, name⟩)).Locked id :=
    ⟨(ha.locked held ready).away, (ha.locked held ready).exports⟩
  have there : ∀ j, s.app.names.get? ⟨.environment, name⟩ = some j →
      ∃ e, s.environments.get? j = some e ∧ e.inst = id := by
    intro j named
    obtain ⟨e, present⟩ := Pool.get?_of_owned_pos (holders_pos_of_named ha.sound named (by simp))
    exact ⟨e, present, belongs j named e present⟩
  cases c with
  | call request =>
    refine repels_bind (Session.yields_mapM _ Session.yields_argumentValue) fun args _ => ?_
    refine repels_away fun j named => ?_
    obtain ⟨e, bound, own⟩ := there j named
    simp only [Refuses, yields_bind_iff, yields_lift, yields_pure]
    rw [callWith_of_locked locked (v := .ofEnvironment j) bound own]
    exact ⟨rfl, .called⟩
  | callDirectly request =>
    refine repels_bind (Session.yields_mapM _ Session.yields_argumentValue) fun args _ => ?_
    refine repels_away fun j named => ?_
    obtain ⟨e, bound, own⟩ := there j named
    simp only [Refuses, SessionM.answer, yields_bind_iff, yields_host, yields_pure]
    rw [exec_call, call_of_locked locked printer (v := .ofEnvironment j) bound own]
    exact ⟨rfl, .refused (.inl rfl)⟩
  | callAll requests =>
    refine repels_bind (Session.yields_mapM _ fun r =>
      Session.yields_mapM _ Session.yields_argumentValue) fun args _ => ?_
    refine repels_away fun j named => ?_
    obtain ⟨e, bound, own⟩ := there j named
    simp only [Refuses, yields_bind_iff, yields_lift, yields_pure]
    obtain ⟨same, all⟩ := callEach_of_locked locked (v := .ofEnvironment j) bound own
      printer (requests.zip args)
    exact ⟨same, .calledAll all⟩
  -- The other steps are not aimed at an instance.
  | userData => cases target
  | setUserData => cases target
  | editUserData => cases target
  | owner => cases target

omit [HookRule] ha held ready in
/-- How a step is answered that finds its objects, and one that misses one. -/
theorem stepWith_of_yields [Engine] {st : Step} {P : Answer → Session → Prop} {F : Session → Prop}
    (yields : Yields (act printer st) s P F) (missing : ∀ t, F t → P .absent t) :
    P (stepWith printer st s).1 (stepWith printer st s).2 := by
  unfold stepWith
  unfold Yields at yields
  split <;> rename_i done <;>
    rw [show StateT.run (act printer st).run s = _ from done] at yields
  · exact yields
  · exact missing _ yields

/-- A block that is dropped is gone, and so is its name. -/
theorem short_drop {name : String} {j : Nat} (named : s.app.names.get? ⟨.block, name⟩ = some j)
    (belongs : s.Belongs id ⟨.block, name⟩) :
    s.Short id ((s.modifyNames (·.erase ⟨.block, name⟩)).dropBlock j) := by
  have erased : s.Short id (s.modifyNames (·.erase ⟨.block, name⟩)) := by
    refine { Session.Short.refl s with names := fun slot => ?_ }
    by_cases e : slot = ⟨.block, name⟩
    · subst e
      exact .inr ⟨Table.get?_erase_self _ _, rfl, belongs⟩
    · exact .inl (Table.get?_erase_of_ne _ e)
  have lead : Leads (fun _ => True) ⟨s, g⟩
      ⟨s.modifyNames (·.erase ⟨.block, name⟩), g.pin .block j⟩ := leads_erase named trivial
  refine erased.trans ?_
  obtain ⟨b, present⟩ := Pool.get?_of_owned_pos (holders_pos_of_named ha.sound named (by simp))
  have own : b.inst = id := belongs j named b present
  rw [(lead.orderly ha).dropBlock held ready present own]
  exact .forget present own

/-- **Steps.** A step that needs the store of an instance in a call is turned away. -/
theorem turnedAway_stepWith [Engine] (printer : Printer Slots) {st : Step} (aims : st.Aims s id) :
    st.TurnedAway (stepWith printer st s).1 ∧ s.Short id (stepWith printer st s).2 ∧
      (stepWith printer st s).2.app.heard = s.app.heard := by
  have locked := ha.locked held ready
  suffices repels : Repels id st (act printer st) s from
    stepWith_of_yields (P := fun a t => st.TurnedAway a ∧ s.Short id t ∧ t.app.heard = s.app.heard)
      repels fun _ same => ⟨.absent, same⟩
  -- Only what is asked of an instance, a block or an environment, and a drop, is aimed at a
  -- store.
  cases st with
  | inst name i => exact (refuses_actOnInstance locked aims).repels
  | block name b => exact (refuses_actOnBlock locked aims).repels
  | environment name c => exact repels_actOnEnvironment ha held ready aims
  | drop slot =>
    obtain ⟨kind, name⟩ := slot
    obtain ⟨_, target, belongs⟩ := aims
    cases kind <;> cases target
    simp only [Repels, act, yields_bind_iff, yields_find, yields_modify, yields_pure]
    refine ⟨fun j named => ⟨.dropped, short_drop ha held ready named belongs, ?_⟩,
      fun _ => ⟨.refl s, trivial⟩⟩
    have app := Session.app_release (s.modifyNames (·.erase ⟨.block, name⟩)) .block j
    exact (congrArg Slots.heard app).trans rfl
  | _ =>
    obtain ⟨_, target, -⟩ := aims
    cases target

variable (any : ∀ hook, HookRule.admits hook)
include any

/-- Any number of such steps, by induction on the steps. -/
theorem turnedAway_runWith [Engine] (steps : List Step) (aims : ∀ st ∈ steps, st.Aims s id) :
    List.Forall₂ Step.TurnedAway steps (runWith Host.emit steps s).1 ∧
      s.Short id (runWith Host.emit steps s).2 ∧
        (runWith Host.emit steps s).2.app.heard = s.app.heard := by
  induction steps generalizing s with
  | nil => exact ⟨.nil, .refl s, rfl⟩
  | cons st steps ih =>
    obtain ⟨turned, short, heard⟩ := turnedAway_stepWith ha held ready Host.emit
      (aims st List.mem_cons_self)
    have lead : Leads (fun _ => True) ⟨s, g⟩ ⟨(stepWith Host.emit st s).2, g⟩ :=
      Session.leads_stepWith traced_emit trivial st s
        ((Step.Fits.of_any any st).permitted s ha.sound.admitted.1) fun hook _ => any hook
    obtain ⟨turned', short', heard'⟩ := ih (lead.orderly ha)
      fun st' member => short.aims (aims st' (List.mem_cons_of_mem _ member))
    exact ⟨.cons turned turned', short.trans short', heard'.trans heard⟩

/-- **Hooks.** A hook all of whose steps need the store of an instance in a call is turned away from
all of them. -/
theorem short_hookedPrinter [Engine] {commons : Nat} (bytes : Bytes)
    (aims : ∀ hook, s.app.hooks.get? commons = some hook → ∀ st ∈ hook, st.Aims s id) :
    Session.Short id (s.emit commons bytes) (hookedPrinter commons bytes s) ∧
      ∃ answers, (hookedPrinter commons bytes s).app.heard = s.app.heard ++ answers ∧
        ∀ heard ∈ answers, ∃ hook, s.app.hooks.get? commons = some hook ∧
          List.Forall₂ Step.TurnedAway hook heard := by
  have emitted : Leads (fun _ => True) ⟨s, g⟩ ⟨s.emit commons bytes, g⟩ := traced_emit _ _ _ _
  unfold hookedPrinter
  dsimp only
  split
  case h_1 none => exact ⟨.refl _, [], by simp [Host.emit], by simp⟩
  case h_2 hook hooked =>
    obtain ⟨turned, short, heard⟩ := turnedAway_runWith (emitted.orderly ha) held ready any hook
      (aims hook hooked)
    refine ⟨{ short with }, _, congrArg (· ++ _) heard, fun answers there => ⟨hook, hooked, ?_⟩⟩
    cases List.mem_singleton.1 there
    exact turned

/-! ### No new blocks -/

/-- What gives no block of an instance an owner. -/
def KeepsNone (id : Nat) (e : Effect) : Prop :=
  e ≠ .keeps id

/-- A step gives no block an owner whose instance is in a call. -/
theorem leads_stepWith_of_held [Engine] (st : Step) :
    Leads (KeepsNone id) ⟨s, g⟩ ⟨(stepWith Host.emit st s).2, g⟩ := by
  by_cases keeps : st.Keeps s id
  · -- The step is refused and changes nothing.
    have same : ∀ name i, (Step.inst name i).target? = some ⟨.inst, name⟩ →
        s.app.names.get? ⟨.inst, name⟩ = some id →
          (stepWith Host.emit (.inst name i) s).2 = s := by
      intro name i target named
      have belongs : s.Belongs id ⟨.inst, name⟩ := fun j named' => by
        cases named.symm.trans named'
        rfl
      exact stepWith_of_yields (P := fun _ t => t = s)
        ((refuses_actOnInstance (ha.locked held ready) ⟨_, target, belongs⟩).mono
          (fun _ _ h => h.1) fun _ h => h) fun _ h => h
    unfold Step.Keeps at keeps
    split at keeps
    · rw [same _ _ rfl keeps]
      exact .refl
    · rw [same _ _ rfl keeps]
      exact .refl
    · exact keeps.elim
  -- The step keeps no block in this instance, so nothing here depends on the store being at rest.
  · refine Session.leads_stepWith traced_emit nofun st s
      ⟨fun _ _ => nofun, fun _ _ => nofun, fun j kept eq => ?_, fun _ _ => nofun⟩ fun hook _ => any hook
    cases eq
    exact keeps kept

/-- Whatever steps the hook of an output takes while an instance is in a call, no block of the
instance gets an owner. -/
theorem leads_hookedPrinter_of_held [Engine] (commons : Nat) (bytes : Bytes) :
    Leads (KeepsNone id) ⟨s, g⟩ ⟨hookedPrinter commons bytes s, g⟩ := by
  have ran : ∀ (steps : List Step) (t : Session), Config.Orderly ⟨t, g⟩ →
      Leads (KeepsNone id) ⟨t, g⟩ ⟨(runWith Host.emit steps t).2, g⟩ := by
    intro steps
    induction steps with
    | nil => exact fun t _ => .refl
    | cons st steps ih =>
      intro t ht
      have first := leads_stepWith_of_held ht held ready any st
      exact first.trans (ih _ (first.orderly ht))
  have emitted : Leads (KeepsNone id) ⟨s, g⟩ ⟨s.emit commons bytes, g⟩ := traced_emit _ _ _ _
  unfold hookedPrinter
  dsimp only
  split
  case h_1 => exact emitted
  case h_2 steps hooked =>
    refine (emitted.trans (ran steps _ (emitted.orderly ha))).trans (.of_change ?_)
    exact .app (fun _ _ _ => rfl) (fun _ h => h) (.inr nofun)

end

end

end Embedder
