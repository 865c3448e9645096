import Embedder.Proofs.Host.Liveness
import Embedder.Proofs.Session.Basic

namespace Embedder.Session

open SessionM

/-!
# Steps of a session

Every step of a session leaves in hand what was: between steps, that is nothing, and what a hook does
while a call is in flight leaves the call's store alone.

* `Step.Latches`, `Step.Lends`, `Step.Installs`: the steps that may set or clear the fault of an
  instance, those that may lend or replace the user data of an environment, and those that bring a
  hook along.
* `leads_stepWith`, `leads_runWith`: one step, and any number of them.
* `traced_hookedPrinter`: what is printed, with all that its hook does.
-/

variable {allowed : Effect → Prop} {printer : Printer Slots} {s : Session} {g : Pending}

/-! ### Views -/

/-- A module that is there can be shown. -/
theorem shows_moduleView {id : Nat} {h : Session} (present : (h.module? id).isSome) :
    Shows moduleView id h := by
  obtain ⟨m, hm⟩ := Option.isSome_iff_exists.1 present
  simp only [Shows, moduleView, yields_bind_iff, yields_get, yields_ofOption, yields_pure, hm]
  simp

/-- A block that is there can be shown. -/
theorem shows_blockView {id : Nat} {h : Session} (present : (h.blocks.get? id).isSome) :
    Shows blockView id h := by
  obtain ⟨b, hb⟩ := Option.isSome_iff_exists.1 present
  simp only [Shows, blockView, yields_bind_iff, yields_get, yields_ofOption, yields_pure, hb]
  simp

variable [HookRule]

/-- An instance that is in hand, and whose store is not, can be looked at. -/
theorem shows_instanceView {id : Nat} (ha : Config.Sound ⟨s, g.pin .inst id⟩)
    (free : g.held id = none) : Shows instanceView id s := by
  obtain ⟨c, hc⟩ := Pool.get?_of_count_pos (ha.holders_pos .inst (by simp))
  have rest := (ha.custody id _ (Config.custody?_of_get? hc)).idle free
  obtain ⟨store, idle⟩ := Option.isSome_iff_exists.1 rest
  have present : s.instance? id = some c.value := by simp [Host.instance?, hc]
  have idle : c.value.store = some store := idle
  simp only [Shows, instanceView, yields_bind_iff, yields_get, yields_ofOption, yields_pure, present,
    Option.some.injEq, forall_eq', idle]
  simp

/-- To show a budget changes nothing. -/
theorem steers_budgetView (commons : Nat) : Steers allowed (budgetView commons) s g :=
  steers_bind steers_get fun _ _ => steers_bind (steers_ofOption _) fun _ _ => steers_pure _

/-! ### What not every step does -/

/-- The runner of a name runs an instance. -/
def Runs (s : Session) (name : String) (id : Nat) : Prop :=
  ∃ j r, s.app.names.get? ⟨.runner, name⟩ = some j ∧ s.runners.get? j = some r ∧ r.inst = id

/-- The environment of a name belongs to an instance. -/
def Binds (s : Session) (name : String) (id : Nat) : Prop :=
  ∃ j e, s.app.names.get? ⟨.environment, name⟩ = some j ∧ s.environments.get? j = some e ∧ e.inst = id

/-- The environment of the runner of a name belongs to an instance. -/
def Employs (s : Session) (name : String) (id : Nat) : Prop :=
  ∃ j r e, s.app.names.get? ⟨.runner, name⟩ = some j ∧ s.runners.get? j = some r ∧
    s.environments.get? r.environment = some e ∧ e.inst = id

/-- Whether a step may set or clear the fault of an instance that no call has entered: the ones that
ask for it, runs of its program, and benchmarks, which run new instances. -/
def Step.Latches (s : Session) (id : Nat) : Step → Prop
  | .inst name (.setException _) => s.app.names.get? ⟨.inst, name⟩ = some id
  | .inst name .clearException => s.app.names.get? ⟨.inst, name⟩ = some id
  | .runner name .runPlain => Runs s name id
  | .runner name (.runInstrumented _) => Runs s name id
  | .runtime _ (.benchmark ..) => s.instances.next ≤ id
  | _ => False

/-- Whether a step may lend or replace the user data of an environment: calls through it, requests
for other data, runs of a runner that it belongs to, and what makes new environments for runners. -/
def Step.Lends (s : Session) (id : Nat) : Step → Prop
  | .environment _ .userData => False
  | .environment _ .owner => False
  | .environment name _ => s.app.names.get? ⟨.environment, name⟩ = some id
  | .runner _ .state => False
  | .runner _ (.takeInstance _) => False
  | .runner name _ => ∃ j r, s.app.names.get? ⟨.runner, name⟩ = some j ∧
      s.runners.get? j = some r ∧ r.environment = id
  | .runtime _ (.createRunner ..) => s.environments.next ≤ id
  | .runtime _ (.benchmark ..) => s.environments.next ≤ id
  | _ => False

/-- Whether a step asks for a block of an instance. -/
def Step.Keeps (s : Session) (id : Nat) : Step → Prop
  | .inst name (.allocate ..) => s.app.names.get? ⟨.inst, name⟩ = some id
  | .inst name (.allocateArray ..) => s.app.names.get? ⟨.inst, name⟩ = some id
  | _ => False

/-- Whether a step may run code of guests or of hooks. -/
def Step.RunsCode : Step → Prop
  | .runtime _ (.print _) => True
  | .runtime _ (.createRunner ..) => True
  | .runtime _ (.benchmark ..) => True
  | .module _ (.instantiate ..) => True
  | .environment _ (.call _) => True
  | .environment _ (.callDirectly _) => True
  | .environment _ (.callAll _) => True
  | .runner _ .runPlain => True
  | .runner _ (.runInstrumented _) => True
  | _ => False

/-- Whether a step itself calls a guest of an instance: through an environment of the instance, as a
runner of it, or in a benchmark, which runs new instances. -/
def Step.Enters (s : Session) (id : Nat) : Step → Prop
  | .runtime _ (.benchmark ..) => s.instances.next ≤ id
  | .environment name (.call _) => Binds s name id
  | .environment name (.callDirectly _) => Binds s name id
  | .environment name (.callAll _) => Binds s name id
  | .runner name .runPlain => Employs s name id
  | .runner name (.runInstrumented _) => Employs s name id
  | _ => False

/-- Whether what a step may do to faults, to user data and about blocks, and the calls that it may
make, are allowed. -/
structure Step.Permitted (allowed : Effect → Prop) (s : Session) (st : Step) : Prop where
  latches : ∀ id, st.Latches s id → allowed (.latches id)
  lends : ∀ id, st.Lends s id → allowed (.lends id)
  keeps : ∀ id, st.Keeps s id → allowed (.keeps id)
  enters : ∀ id, st.Enters s id → allowed (.enters id)

/-- Whether a step brings a hook along. -/
def Step.Installs (hook : List Step) : Step → Prop
  | .createRuntime _ _ _ _ _ onPrint => onPrint = hook
  | _ => False

/-! ### Runtimes -/

section

variable (traced : Traced allowed printer) (renames : allowed .renames)

include renames in
/-- A new runtime comes with its commons and its hook. -/
theorem steers_createRuntime (into : String) (config : RuntimeConfig) (natives : List NativeGroup)
    (clock : List Reading) (header : Option Bytes) (onPrint : List Step)
    (hook : HookRule.admits onPrint) :
    Steers allowed (createRuntime into config natives clock header onPrint) s g := by
  simp only [Steers, createRuntime, yields_bind_iff, yields_host]
  have made : Takes allowed (HostM.createRuntime config natives (.ofHeader header)
      (.ofReadings clock (.error (.unavailable "script exhausted")))) ⟨s, g⟩
      (fun made => g.pin .runtime made.1) g := takes_createRuntime config natives _ _
  unfold Takes Ends at made
  generalize exec (HostM.createRuntime config natives (.ofHeader header)
    (.ofReadings clock (.error (.unavailable "script exhausted")))) s = r at made ⊢
  obtain ⟨e | ⟨id, commons⟩, t⟩ := r
  · exact made
  · have named := made.trans (leads_put ⟨.runtime, into⟩ id renames)
    -- A hold on commons is as good as none.
    have pinned : ∀ t : Session, Leads allowed ⟨t, g⟩ ⟨t, g.pin .commons commons⟩ := by
      intro t
      refine .of_change (.app (fun k i hk => ?_) (fun _ h => h) (.inl rfl))
      simp [Holds.on, hk]
    have named := (named.trans (pinned _)).trans (leads_put ⟨.commons, into⟩ commons renames)
    have shown : ∀ t : Session, Steers allowed (do
        pure (.result (.ok (← budgetView commons))) : SessionM Answer) t g :=
      fun t => steers_bind (steers_budgetView commons) fun _ _ => steers_pure _
    simp only [yields_bind_iff, yields_keep]
    split
    · refine yields_bind (P := fun _ t => Leads allowed ⟨s, g⟩ ⟨t, g⟩) ?_ fun _ t lead => ?_
      · rw [yields_modify]
        refine named.trans (.of_change (.app (fun _ _ _ => rfl) ?_ (.inr renames)))
        rintro n ⟨since, admitted⟩
        refine ⟨since, fun c hook' installed => ?_⟩
        by_cases e : c = commons
        · subst e
          rw [Table.get?_set_self] at installed
          cases installed
          exact hook
        · rw [Table.get?_set_of_ne _ _ e] at installed
          exact admitted c hook' installed
      · exact (shown t).mono (fun _ _ => lead.trans) fun _ => lead.trans
    · exact (shown _).mono (fun _ _ => named.trans) fun _ => named.trans

include traced renames in
/-- What is asked of a runtime: to load, to print, to make runners and to run benchmarks. -/
theorem steers_actOnRuntime [Engine] (name : String) (r : RuntimeStep)
    (permitted : (Step.runtime name r).Permitted allowed s) :
    Steers allowed (actOnRuntime printer name r) s g := by
  cases r with
  | budget =>
    exact steers_bind (steers_find _ _) fun _ _ => steers_bind (steers_budgetView _) fun _ _ =>
      steers_pure _
  | output =>
    exact steers_bind steers_get fun _ _ => steers_bind (steers_find _ _) fun _ _ =>
      steers_bind (steers_ofOption _) fun _ _ => steers_pure _
  | clearOutput =>
    refine steers_bind (steers_find _ _) fun _ t => ?_
    exact steers_bind (steers_modify (.of_change (.commons fun _ => rfl))) fun _ _ => steers_pure _
  | print bytes =>
    refine steers_bind steers_get fun _ _ => steers_bind (steers_find _ _) fun _ _ =>
      steers_bind (steers_ofOption _) fun r t => ?_
    exact steers_bind (steers_modify (traced _ _ _ _)) fun _ _ => steers_pure _
  | load into bytecode =>
    refine steers_bind (steers_find _ _) fun id t => ?_
    exact steers_create renames ((ends_load id bytecode).mono
      (fun _ _ made => ⟨shows_moduleView made.1, made.2⟩) fun _ _ lead => lead)
  | loadText into text =>
    refine steers_bind (steers_find _ _) fun id t => ?_
    exact steers_create renames ((ends_loadText id text).mono
      (fun _ _ made => ⟨shows_moduleView made.1, made.2⟩) fun _ _ lead => lead)
  | createRunner into bytecode eventId payload config execStack =>
    simp only [Steers, actOnRuntime, yields_bind_iff, yields_find]
    refine ⟨fun id named => steers_holding named rfl ?_, fun _ => .refl⟩
    refine steers_iff.2 (.of_sound fun ha => steers_iff.1 ?_)
    -- The runtime is held while the runner is made, so it cannot go in the meantime.
    have created := ends_createRunner (h := s.retain .runtime id) traced permitted.lends id bytecode
      eventId payload config execStack ha
    exact steers_create renames (created.mono (fun _ _ made => ⟨rfl, made.2⟩) fun _ _ lead => lead)
  | benchmark plain instrumented run =>
    simp only [Steers, actOnRuntime, yields_bind_iff, yields_find]
    refine ⟨fun id named => steers_holding named rfl ?_, fun _ => .refl⟩
    have keeps := keeps_benchmark (h := s.retain .runtime id) (g := g.pin .runtime id) traced
      ⟨permitted.latches, permitted.lends, permitted.enters⟩ id run plain instrumented
    refine steers_bind (steers_host keeps) fun ended u => ?_
    split
    · exact steers_pure _
    · exact steers_pure _

/-! ### Modules and instances -/

include traced renames in
/-- What is asked of a module: to be instantiated. -/
theorem steers_actOnModule [Engine] (name : String) (m : ModuleStep) :
    Steers allowed (actOnModule printer name m) s g := by
  refine steers_bind (steers_find _ _) fun id t => ?_
  cases m with
  | bytecode =>
    exact steers_bind steers_get fun _ _ => steers_bind (steers_ofOption _) fun _ _ => steers_pure _
  | instantiate into stack heap =>
    refine steers_iff.2 (.of_sound fun ha => steers_iff.1 ?_)
    exact steers_create renames ((ends_instantiate traced id stack heap ha).mono
      (fun _ _ made => ⟨shows_instanceView (made.2.sound ha) (made.1 ▸ ha.held_next), made.2⟩)
      fun _ _ lead => lead)

include renames in
/-- What is asked of an instance: to make environments and blocks, and to change its globals, its
memory and its fault. -/
theorem steers_actOnInstance (name : String) (i : InstanceStep)
    (permitted : (Step.inst name i).Permitted allowed s) :
    Steers allowed (actOnInstance name i) s g := by
  simp only [Steers, actOnInstance, yields_bind_iff, yields_find]
  refine ⟨fun id named => ?_, fun _ => .refl⟩
  -- The instance has a name, so there is somebody else to hold it while it gets another holder.
  have shared : Config.Shared ⟨s, g⟩ id := by
    have pos : 0 < Holder.holds s.app .inst id := holds_pos_of_named named
    show 0 < Holder.holds s.app .inst id + g.pins .inst id + s.inner .inst id
    omega
  cases i with
  | createEnvironment into stack =>
    exact steers_create renames ((ends_createEnvironment stack fun _ => shared).mono
      (fun _ _ made => ⟨rfl, made.2.2⟩) fun _ _ lead => lead)
  | getGlobal global type => exact steers_answer _ (keeps_getGlobal id global type)
  | setGlobal global value => exact steers_answer _ (keeps_setGlobal id global value)
  | memorySize => exact steers_answer _ (keeps_of_same (by simp [HostM.memorySize, ends_bind_iff]))
  | heapStats => exact steers_answer _ (keeps_of_same (by simp [HostM.heapStats]))
  | hasException => exact steers_answer _ (keeps_exception? id)
  | exceptionMessage => exact steers_answer _ (keeps_exception? id)
  | exception => exact steers_answer _ (keeps_exception? id)
  | clearException => exact steers_answer _ (keeps_clearException (permitted.latches id named))
  | setException fault => exact steers_answer _ (keeps_setException fault
      (permitted.latches id named))
  | allocate into type value =>
    simp only [yields_bind_iff, yields_ofOption]
    refine ⟨fun d _ => ?_, fun _ => .refl⟩
    exact steers_create renames ((ends_allocate type d (permitted.keeps id named) fun _ => shared).mono
      (fun _ _ made => ⟨shows_blockView made.1, made.2⟩) fun _ _ lead => lead)
  | allocateArray into type count =>
    exact steers_create renames ((ends_allocateArray type count (permitted.keeps id named)
      fun _ => shared).mono (fun _ _ made => ⟨shows_blockView made.1, made.2⟩) fun _ _ lead => lead)
  | readCounter => exact steers_answer _ (keeps_getUInt64 id _)
  | readCounters => exact steers_answer _ (keeps_readCounters id)
  | resetCounters => exact steers_answer _ (keeps_resetCounters id)

/-! ### Blocks -/

omit [HookRule] in
/-- A block is found by its name, or missed. -/
theorem yields_blockOf {name : String} :
    Yields (blockOf name) s (fun _ t => t = s) fun t => t = s := by
  simp only [blockOf, yields_bind_iff, yields_get, yields_find, yields_ofOption]
  simp

/-- The host changes a stretch of memory, between calls. -/
theorem keeps_writeBytes {h : Session} (id address : Nat) (bytes : Bytes) :
    Keeps allowed (HostM.writeBytes id address bytes) ⟨h, g⟩ :=
  (ends_writeBytes id address bytes).mono (fun _ _ wrote => wrote.2 g) fun _ _ same => same ▸ .refl

omit [HookRule] in
/-- Reading changes nothing, whether it succeeds or not. -/
theorem ends_readBytes {h : Session} (id address count : Nat) :
    Ends (HostM.readBytes id address count) h (fun _ t => t = h) fun _ t => t = h := by
  simp only [HostM.readBytes, HostM.exportedMemory, ends_bind_iff, ends_pure, ends_inst, ends_store,
    ends_ofOption]
  simp

/-- So bytes can be read at any time. -/
theorem keeps_readBytes {h : Session} (id address count : Nat) :
    Keeps allowed (HostM.readBytes id address count) ⟨h, g⟩ :=
  keeps_of_same (ends_readBytes id address count)

/-- A result that is handed on changes nothing. -/
theorem keeps_ofExcept {h : Session} {α : Type} (a : Except Error α) :
    Keeps allowed (HostM.ofExcept a) ⟨h, g⟩ :=
  keeps_of_same (by simp)

/-- The values of an array are written to its instance. -/
theorem keeps_writeAll {h : Session} (b : Block) (values : List Datum) :
    Keeps allowed (HostM.writeAll b values) ⟨h, g⟩ := by
  unfold HostM.writeAll
  split
  · exact keeps_throw _
  · cases b.type.row values with
    | returns bytes => exact keeps_bind (keeps_writeBytes _ _ _) fun _ _ => keeps_pure _
    | panics message => exact keeps_pure _

/-- What needs an array, or needs none. -/
theorem steers_unless {α : Type} {c : Prop} [Decidable c] {x : Unit → SessionM α}
    (rest : Steers allowed (x ()) s g) :
    Steers allowed (if c then failure >>= x else x ()) s g := by
  split
  · simp only [Steers, yields_bind_iff, yields_failure]
    exact .refl
  · exact rest

/-- Literals are converted and written to a block. -/
theorem steers_writeLiterals (b : Block) (contents : Contents) :
    Steers allowed (writeLiterals b contents) s g := by
  unfold writeLiterals
  cases contents with
  | one l =>
    refine steers_unless ?_
    exact steers_bind (steers_ofOption _) fun _ _ => steers_answer _ (keeps_writeBytes _ _ _)
  | all ls =>
    refine steers_unless ?_
    exact steers_bind (steers_ofOption _) fun _ _ => steers_attempt _ (keeps_writeAll _ _)

/-- An element can be read at any time. -/
theorem keeps_readElement {h : Session} (b : Block) (i : Nat) :
    Keeps allowed (HostM.getElement b i) ⟨h, g⟩ :=
  keeps_bind (keeps_ofExcept _) fun _ _ =>
    keeps_bind (keeps_readBytes _ _ _) fun _ _ => keeps_pure _

include renames in
/-- What is asked of a block: to be read and to be written. -/
theorem steers_actOnBlock (name : String) (b : BlockStep) :
    Steers allowed (actOnBlock name b) s g := by
  refine steers_bind (steers_of_same yields_blockOf) fun block t => ?_
  cases b with
  | read =>
    dsimp only
    split
    · exact steers_answer _ (keeps_bind (keeps_readBytes _ _ _) fun _ _ => keeps_pure _)
    · exact steers_attempt _ (keeps_bind (keeps_readBytes _ _ _) fun _ _ => keeps_pure _)
  | write contents => exact steers_writeLiterals block contents
  | get index =>
    refine steers_unless ?_
    exact steers_answer _ (keeps_readElement block index)
  | set index value =>
    refine steers_unless ?_
    refine steers_bind (steers_ofOption _) fun d _ => steers_answer _ ?_
    exact keeps_bind (keeps_ofExcept _) fun _ _ => keeps_writeBytes _ _ _
  | address => exact steers_pure _
  | move into =>
    simp only [Steers, yields_bind_iff, yields_find, yields_modify, yields_keep, yields_pure]
    refine ⟨fun id named => ?_, fun _ => .refl⟩
    -- The old name goes first, so that the block has one owner all the time.
    exact (leads_erase named renames).trans (leads_put ⟨.block, into⟩ id renames)

/-! ### Environments -/

omit [HookRule] in
/-- An argument is a literal or the address of a block. -/
theorem yields_argumentValue (a : Argument) :
    Yields (argumentValue a) s (fun _ t => t = s ∧ True) fun t => t = s := by
  cases a with
  | value v => exact ⟨rfl, trivial⟩
  | block name => exact yields_bind yields_blockOf fun _ _ same => ⟨same, trivial⟩

omit [HookRule] in
/-- What is looked up for each of some things is found for all of them, by induction on the
list. -/
theorem yields_mapM {α β : Type} (l : List α) {f : α → SessionM β} {P : α → β → Prop}
    (each : ∀ a, Yields (f a) s (fun b t => t = s ∧ P a b) fun t => t = s) :
    Yields (l.mapM f) s (fun bs t => t = s ∧ List.Forall₂ P l bs) fun t => t = s := by
  induction l with
  | nil => exact ⟨rfl, .nil⟩
  | cons a l ih =>
    rw [List.mapM_cons]
    refine yields_bind (each a) ?_
    rintro b _ ⟨rfl, first⟩
    refine yields_bind ih ?_
    rintro bs _ ⟨rfl, rest⟩
    exact ⟨rfl, .cons first rest⟩

omit [HookRule] in
/-- An environment is found by its name, or missed. -/
theorem yields_environmentOf (name : String) :
    Yields (environmentOf name) s
      (fun found t => t = s ∧ s.app.names.get? ⟨.environment, name⟩ = some found.1)
      fun t => t = s := by
  simp only [environmentOf, yields_bind_iff, yields_find, yields_get, yields_ofOption, yields_pure]
  exact ⟨fun id named => ⟨fun _ _ => ⟨trivial, named⟩, fun _ => trivial⟩, fun _ => trivial⟩

/-- The user data of a named environment is replaced. -/
theorem steers_replaceUserData {name : String} {id : Nat}
    (named : s.app.names.get? ⟨.environment, name⟩ = some id) (lends : allowed (.lends id))
    (userData : Except Error UserData) (shown : UserData → Payload) :
    Steers allowed (replaceUserData id userData shown) s g := by
  unfold replaceUserData
  split
  · exact steers_pure _
  · have own : 0 < Holder.holds s.app .environment id := holds_pos_of_named named
    refine steers_bind (steers_modify (.of_change (.userData lends (.inl ?_)))) fun _ _ =>
      steers_pure _
    omega

/-- To ask for the owners of an environment changes nothing. -/
theorem steers_ownerOf (e : Environment) : Steers allowed (ownerOf e) s g :=
  steers_bind steers_get fun _ _ => steers_bind (steers_ofOption _) fun _ _ =>
    steers_bind (steers_ofOption _) fun _ _ => steers_bind (steers_ofOption _) fun _ _ =>
      steers_bind (steers_ofOption _) fun _ _ => steers_pure _

include traced in
/-- A call that is asked for leads to what calls lead to. -/
theorem leads_callWith [Engine] (v : Invoker)
    (enters : ∀ e, s.environments.get? v.environment = some e → allowed (.enters e.inst))
    (lends : allowed (.lends v.environment)) (request : CallRequest) (args : List HostValue) :
    Leads allowed ⟨s, g⟩ ⟨((callWith printer v request args).run s).2, g⟩ :=
  leads_call traced v enters lends request.function args request.results

omit [HookRule] in
/-- A call is made through the same environment as the calls before it. -/
theorem environment_callWith [Engine] (printer : Printer Slots) (v : Invoker) (request : CallRequest)
    (args : List HostValue) (s : Session) :
    ((callWith printer v request args).run s).1.2.environment = v.environment :=
  v.environment_call printer request.function args request.results s

include traced in
/-- Calls one after another, by induction on what is asked for. -/
theorem leads_callEach [Engine] (v : Invoker) (enters : ∀ t : Session, s.Since t →
      ∀ e, t.environments.get? v.environment = some e → allowed (.enters e.inst))
    (lends : allowed (.lends v.environment)) (requests : List (CallRequest × List HostValue)) :
    Leads allowed ⟨s, g⟩ ⟨((callEach printer v requests).run s).2, g⟩ := by
  induction requests generalizing v s with
  | nil => exact .refl
  | cons first rest ih =>
    obtain ⟨request, args⟩ := first
    refine .of_sound fun ha => ?_
    have same := environment_callWith printer v request args s
    have called := leads_callWith (g := g) traced v (enters s (.refl s)) lends request args
    exact called.trans (ih _ (fun t since => same ▸ enters t ((called.since ha).trans since))
      (same ▸ lends))

/-- The environment that had a name belongs to its instance as long as it is there. -/
theorem enters_of_named {name : String} {id : Nat} (ha : Config.Sound ⟨s, g⟩)
    (named : s.app.names.get? ⟨.environment, name⟩ = some id)
    (enters : ∀ inst, Binds s name inst → allowed (.enters inst)) (t : Session)
    (since : (s.modifyNames (·.erase ⟨.environment, name⟩)).Since t) (e : Environment)
    (there : t.environments.get? id = some e) : allowed (.enters e.inst) := by
  obtain ⟨_, present⟩ := Pool.get?_of_owned_pos (holders_pos_of_named ha named (by simp))
  obtain ⟨d, before, same⟩ := since.environments.old _ e (Pool.lt_next_of_get?_eq_some present) there
  exact enters e.inst ⟨id, d, named, before, congrArg Prod.fst same⟩

include traced renames in
/-- What is asked of an environment: to call, and to show and replace its user data. -/
theorem steers_actOnEnvironment [Engine] (name : String) (e : EnvironmentStep)
    (permitted : (Step.environment name e).Permitted allowed s) :
    Steers allowed (actOnEnvironment printer name e) s g := by
  -- Only in a sound session does the environment that has the name belong to an instance that is
  -- there.
  refine steers_iff.2 (.of_sound fun ha => steers_iff.1 ?_)
  cases e with
  | call request =>
    refine steers_bind_of_same (yields_mapM _ yields_argumentValue) fun args _ => ?_
    refine steers_away renames fun id named => ?_
    simp only [Steers, yields_bind_iff, yields_lift, yields_pure]
    exact leads_callWith traced (.ofEnvironment id)
      (enters_of_named ha named permitted.enters _ (.refl _)) (permitted.lends id named) request args
  | callDirectly request =>
    refine steers_bind_of_same (yields_mapM _ yields_argumentValue) fun args _ => ?_
    exact steers_away renames fun id named =>
      steers_answer _ (keeps_call traced (enters_of_named ha named permitted.enters _ (.refl _))
        (permitted.lends id named) _ _ _)
  | callAll requests =>
    refine steers_bind_of_same (yields_mapM _ fun r => yields_mapM _ yields_argumentValue)
      fun args _ => ?_
    refine steers_away renames fun id named => ?_
    simp only [Steers, yields_bind_iff, yields_lift, yields_pure]
    exact leads_callEach traced (.ofEnvironment id) (enters_of_named ha named permitted.enters)
      (permitted.lends id named) _
  | userData =>
    exact steers_bind_of_same (yields_environmentOf name) fun _ _ => steers_pure _
  | setUserData eventId payload =>
    exact steers_bind_of_same (yields_environmentOf name) fun found named =>
      steers_replaceUserData named (permitted.lends found.1 named) _ _
  | editUserData edit =>
    exact steers_bind_of_same (yields_environmentOf name) fun found named =>
      steers_replaceUserData named (permitted.lends found.1 named) _ _
  | owner =>
    exact steers_bind_of_same (yields_environmentOf name) fun _ _ =>
      steers_bind (steers_ownerOf _) fun _ _ => steers_pure _

/-! ### Runners -/

/-- To show a runner changes nothing. -/
theorem steers_runnerStateOf (r : Runner) : Steers allowed (runnerStateOf r) s g :=
  steers_bind steers_get fun _ _ => steers_bind (steers_ofOption _) fun _ _ =>
    steers_bind (steers_ofOption _) fun _ _ => steers_bind (steers_host (keeps_exception? _))
      fun _ _ => steers_pure _

/-- A run may clear the fault of the instance that its runner runs, and lend its user data. -/
theorem settling_of_named {name : String} {id : Nat} (ha : Config.Sound ⟨s, g⟩)
    (named : s.app.names.get? ⟨.runner, name⟩ = some id)
    (clears : ∀ inst, Runs s name inst → allowed (.latches inst))
    (lends : ∀ r, s.runners.get? id = some r → allowed (.lends r.environment))
    (enters : ∀ inst, Employs s name inst → allowed (.enters inst)) :
    Settling allowed (s.modifyNames (·.erase ⟨.runner, name⟩)) id := by
  obtain ⟨r, present⟩ := Pool.get?_of_owned_pos (holders_pos_of_named ha named (by simp))
  refine ⟨Pool.lt_next_of_get?_eq_some present, fun r' present' =>
    clears r'.inst ⟨id, r', named, present', rfl⟩, lends, fun r' present' => ⟨?_, fun e bound =>
      enters e.inst ⟨id, r', e, named, present', bound, rfl⟩⟩⟩
  -- The runner holds its environment, which is there.
  have holds : 0 < s.refs .runner id .environment r'.environment := by
    have present' : s.runners.get? id = some r' := present'
    simp [Host.refs, present', Runner.refs, Holds.on]
  obtain ⟨e, there⟩ := Option.isSome_iff_exists.1 (ha.has_of_refs holds)
  exact Pool.lt_next_of_get?_eq_some there

include traced renames in
/-- What is asked of a runner: to run, to be reset and to be shown. -/
theorem steers_actOnRunner [Engine] (name : String) (r : RunnerStep)
    (permitted : (Step.runner name r).Permitted allowed s) :
    Steers allowed (actOnRunner printer name r) s g := by
  cases r with
  | runPlain =>
    refine steers_iff.2 (.of_sound fun ha => steers_iff.1 ?_)
    refine steers_away renames fun id named => steers_answer _ (keeps_runPlain traced ?_)
    exact settling_of_named ha named permitted.latches
      (fun r present => permitted.lends _ ⟨id, r, named, present, rfl⟩) permitted.enters
  | runInstrumented threshold =>
    refine steers_iff.2 (.of_sound fun ha => steers_iff.1 ?_)
    refine steers_away renames fun id named => steers_answer _
      (keeps_runInstrumented traced ?_ threshold)
    exact settling_of_named ha named permitted.latches
      (fun r present => permitted.lends _ ⟨id, r, named, present, rfl⟩) permitted.enters
  | reset =>
    exact steers_away renames fun id named => steers_answer _ (keeps_resetRunner
      fun r present => permitted.lends _ ⟨id, r, named, present, rfl⟩)
  | state =>
    exact steers_bind steers_get fun _ _ => steers_bind (steers_find _ _) fun _ _ =>
      steers_bind (steers_ofOption _) fun _ _ => steers_bind (steers_runnerStateOf _) fun _ _ =>
        steers_pure _
  | takeInstance into =>
    simp only [Steers, actOnRunner, yields_bind_iff, yields_get, yields_find, yields_ofOption,
      yields_modify, yields_keep, yields_pure]
    refine ⟨fun id named => ⟨fun r present => ?_, fun _ => .refl⟩, fun _ => .refl⟩
    -- The runner itself holds the instance.
    have shared : Config.Shared ⟨s, g⟩ r.inst := by
      have le := Pool.le_total present fun r' => r'.refs .inst r.inst
      have one : r.refs .inst r.inst = 1 := by simp [Runner.refs, Holds.on]
      show 0 < Holder.holds s.app .inst r.inst + g.pins .inst r.inst + s.inner .inst r.inst
      simp only [Host.inner]
      omega
    exact (leads_retainInstance shared).trans (leads_put ⟨.inst, into⟩ r.inst renames)

/-! ### All steps -/

omit [HookRule] in
/-- The answer of a step, which tells when something was missing. -/
theorem stepWith_fst [Engine] (printer : Printer Slots) (st : Step) (s : Session) :
    (stepWith printer st s).1 = ((act printer st).run.run s).1.getD .absent := by
  unfold stepWith
  split <;> rename_i done <;> exact (congrArg (fun r => Option.getD r.1 .absent) done).symm

omit [HookRule] in
/-- The session after a step. -/
theorem stepWith_snd [Engine] (printer : Printer Slots) (st : Step) (s : Session) :
    (stepWith printer st s).2 = ((act printer st).run.run s).2 := by
  unfold stepWith
  split <;> rename_i done <;> exact (congrArg Prod.snd done).symm

/-- What a step leaves in hand is what was in hand before it. -/
theorem leads_of_steers [Engine] {st : Step} (steers : Steers allowed (act printer st) s g) :
    Leads allowed ⟨s, g⟩ ⟨(stepWith printer st s).2, g⟩ := by
  rw [stepWith_snd]
  exact steers_iff.1 steers

include traced renames in
/-- **Steps.** One step leaves in hand what was. -/
theorem leads_stepWith [Engine] (st : Step) (s : Session)
    (permitted : st.Permitted allowed s) (hooks : ∀ hook, st.Installs hook → HookRule.admits hook) :
    Leads allowed ⟨s, g⟩ ⟨(stepWith printer st s).2, g⟩ := by
  refine leads_of_steers ?_
  cases st with
  | createRuntime into config natives clock header onPrint =>
    exact steers_createRuntime renames into config natives clock header onPrint (hooks _ rfl)
  | runtime name r => exact steers_actOnRuntime traced renames name r permitted
  | module name m => exact steers_actOnModule traced renames name m
  | inst name i => exact steers_actOnInstance renames name i permitted
  | block name b => exact steers_actOnBlock renames name b
  | environment name e => exact steers_actOnEnvironment traced renames name e permitted
  | runner name r => exact steers_actOnRunner traced renames name r permitted
  | drop slot =>
    simp only [Steers, act, yields_bind_iff, yields_find, yields_modify, yields_pure]
    refine ⟨fun id named => ?_, fun _ => .refl⟩
    exact (leads_erase named renames).trans (leads_release slot.kind id)
  | clone slot into =>
    simp only [Steers, act]
    split
    · exact Leads.refl
    case isFalse shared =>
      simp only [yields_bind_iff, yields_find, yields_modify, yields_keep, yields_pure]
      refine ⟨fun id named => ?_, fun _ => .refl⟩
      -- The new holder is counted before the name is there, and the name then takes it over.
      exact (leads_retain named (by simpa using shared)).trans
        (leads_put ⟨slot.kind, into⟩ id renames)
  | holders slot =>
    exact steers_bind (steers_find _ _) fun _ _ => steers_bind steers_get fun _ _ =>
      steers_bind (steers_ofOption _) fun _ _ => steers_pure _
  | same a b =>
    exact steers_bind (steers_find _ _) fun _ _ => steers_bind (steers_find _ _) fun _ _ =>
      steers_pure _
  | debug slot =>
    exact steers_bind (steers_find _ _) fun _ _ => steers_bind steers_get fun _ _ =>
      steers_bind (steers_ofOption _) fun _ _ => steers_pure _
  | takeHooked =>
    refine steers_bind steers_get fun _ t => steers_bind (steers_modify ?_) fun _ _ => steers_pure _
    exact .of_change (.app (fun _ _ _ => rfl) (fun _ h => h) (.inr renames))
  | takeReleased =>
    refine steers_bind steers_get fun _ t => steers_bind (steers_modify ?_) fun _ _ => steers_pure _
    exact .of_change .released

/-- Whether a step keeps to what is allowed, in any session that has had enough instances. -/
structure Step.Fits (allowed : Effect → Prop) (st : Step) : Prop where
  permitted : ∀ s : Session, HookRule.since ≤ s.instances.next → st.Permitted allowed s
  hooks : ∀ hook, st.Installs hook → HookRule.admits hook

include traced renames in
/-- Any number of steps leaves in hand what was, by induction on the steps. -/
theorem leads_runWith [Engine] (steps : List Step) (s : Session)
    (fits : ∀ st ∈ steps, st.Fits allowed) :
    Leads allowed ⟨s, g⟩ ⟨(runWith printer steps s).2, g⟩ := by
  induction steps generalizing s with
  | nil => exact .refl
  | cons st steps ih =>
    have first := fits st List.mem_cons_self
    refine .of_sound fun ha => ?_
    have permitted := first.permitted s ha.admitted.1
    exact (leads_stepWith traced renames st s permitted first.hooks).trans
      (ih _ fun st' hst => fits st' (List.mem_cons_of_mem _ hst))

end

/-! ### Hooks -/

/-- What is printed, with all that its hook does, makes nothing but changes. -/
theorem traced_hookedPrinter [Engine] (renames : allowed .renames)
    (fits : ∀ hook, HookRule.admits hook → ∀ st ∈ hook, st.Fits allowed) :
    Traced allowed hookedPrinter := by
  intro commons bytes s g
  have emitted : Leads allowed ⟨s, g⟩ ⟨s.emit commons bytes, g⟩ := traced_emit commons bytes s g
  unfold hookedPrinter
  dsimp only
  split
  · exact emitted
  case h_2 steps hooked =>
    refine .of_sound fun ha => ?_
    have admitted : HookRule.admits steps := ha.admitted.2 commons steps hooked
    have ran := leads_runWith (g := g) traced_emit renames steps (s.emit commons bytes)
      (fits steps admitted)
    exact (emitted.trans ran).trans (.of_change (.app (fun _ _ _ => rfl) (fun _ h => h)
      (.inr renames)))

/-! ### Whole runs -/

omit [HookRule] in
/-- In an empty session nothing holds anything. -/
theorem holders_empty (k : Kind) (id : Nat) : empty.holders k id = 0 := by
  cases k <;> rfl

/-- An empty session is sound. -/
theorem sound_empty (since : HookRule.since = 0) : Config.Sound ⟨empty, .none⟩ where
  admitted := ⟨Nat.le_of_eq since, fun _ _ h => nomatch h⟩
  counted := by
    intro k id _
    have loaned : Pending.none.loaned k id = 0 := by cases k <;> rfl
    have pins : Pending.none.pins k id = 0 := rfl
    have holds : Holder.holds empty.app k id = 0 := rfl
    have inner : empty.inner k id = 0 := rfl
    simp only [holders_empty, loaned, pins, holds, inner]
  runtimes := fun _ _ h => nomatch h
  modules := fun _ _ h => nomatch h
  instances := fun _ _ h => nomatch h
  present := fun _ _ h => nomatch h
  single := fun _ _ _ h => nomatch h
  custody := fun _ _ h => nomatch h

omit [HookRule] in
/-- There is nothing in an empty session to be charged. -/
theorem chained_empty : Config.Chained ⟨empty, .none⟩ :=
  ⟨fun _ _ h => (nomatch h), fun _ _ h => (nomatch h), fun _ _ h => (nomatch h),
    fun _ _ h => (nomatch h)⟩

variable [Engine]

section

variable (any : ∀ hook, HookRule.admits hook)
include any

omit [Engine] in
/-- Every step fits where a session may have any hook and nothing is denied. -/
theorem Step.Fits.of_any (st : Step) : st.Fits fun _ => True :=
  ⟨fun _ _ => ⟨fun _ _ => trivial, fun _ _ => trivial, fun _ _ => trivial, fun _ _ => trivial⟩,
    fun hook _ => any hook⟩

/-- With hooks that may do anything, prints lead anywhere. -/
theorem traced_of_any : Traced (fun _ => True) hookedPrinter :=
  traced_hookedPrinter trivial fun _ _ st _ => .of_any any st

/-- A run of a session that starts with nothing. -/
theorem leads_run (steps : List Step) :
    Leads (fun _ => True) ⟨empty, .none⟩ ⟨(runWith hookedPrinter steps empty).2, .none⟩ :=
  leads_runWith (traced_of_any any) trivial steps empty
    fun st _ => .of_any any st

end

end Embedder.Session
