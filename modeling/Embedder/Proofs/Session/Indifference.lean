import Embedder.Proofs.Host.Indifference
import Embedder.Proofs.Session.Footprint
import Embedder.Proofs.Session.Refusal

namespace Embedder

open Session (Answer BlockStep CallAnswer CallRequest EnvironmentStep InstanceStep Kind ModuleStep Payload
  RunnerStep RuntimeStep Slot Slots Step act actOnBlock actOnEnvironment actOnInstance actOnModule
  actOnRunner actOnRuntime argumentValue blockOf callEach callWith hookedPrinter runWith stepWith)

/-!
# Steps that do not tell sessions apart

Two sessions differ in one name of an object that can have several holders, and in the hold that goes
with it. A step that does not use the name and does not ask how many hold an object has the same
answer in both, as long as the object is there in the session that has not the name.

* `Step.uses`, `Step.counts`, `Step.Ignores`: what steps are about, and steps that are not about a
  name.
* `Difference.without`: sessions that differ in one name.
* `SessionM.Unseen`: parts of steps that do not tell sessions apart, with `unseen_act`.
* `stepWith_like`, `runWith_like`: one step, and steps one after another.
-/

namespace Session

/-! ### What steps are about -/

/-- The names that something asked of a runtime uses and gives. -/
def RuntimeStep.uses (name : String) : RuntimeStep → List Slot
  | .budget | .output | .clearOutput => [⟨.commons, name⟩]
  | .print _ | .benchmark .. => [⟨.runtime, name⟩]
  | .load into _ | .loadText into _ => [⟨.runtime, name⟩, ⟨.module, into⟩]
  | .createRunner into .. => [⟨.runtime, name⟩, ⟨.runner, into⟩]

/-- The names that something asked of an instance uses and gives. -/
def InstanceStep.uses (name : String) : InstanceStep → List Slot
  | .createEnvironment into _ => [⟨.inst, name⟩, ⟨.environment, into⟩]
  | .allocate into .. | .allocateArray into .. => [⟨.inst, name⟩, ⟨.block, into⟩]
  | _ => [⟨.inst, name⟩]

/-- The names that a step uses and gives. -/
def Step.uses : Step → List Slot
  | .createRuntime into .. => [⟨.runtime, into⟩, ⟨.commons, into⟩]
  | .runtime name s => s.uses name
  | .module name .bytecode => [⟨.module, name⟩]
  | .module name (.instantiate into ..) => [⟨.module, name⟩, ⟨.inst, into⟩]
  | .inst name s => s.uses name
  | .block name (.move into) => [⟨.block, name⟩, ⟨.block, into⟩]
  | .block name _ => [⟨.block, name⟩]
  | .environment name s =>
    ⟨.environment, name⟩ :: (s.requests?.getD []).flatMap CallRequest.blocks
  | .runner name (.takeInstance into) => [⟨.runner, name⟩, ⟨.inst, into⟩]
  | .runner name _ => [⟨.runner, name⟩]
  | .drop slot | .holders slot | .debug slot => [slot]
  | .clone slot into => [slot, ⟨slot.kind, into⟩]
  | .same a b => [a, b]
  | .takeHooked | .takeReleased => []

/-- Whether a step asks how many hold objects of a kind. -/
def Step.counts (kind : Kind) : Step → Bool
  | .holders slot => slot.kind = kind
  | .environment _ .owner => true
  | _ => false

/-- A step that does not use a name and does not ask how many hold such objects, and that brings along
only hooks of such steps. -/
inductive Step.Ignores (slot : Slot) : Step → Prop
  | intro {st : Step} (unused : slot ∉ st.uses) (uncounted : st.counts slot.kind = false)
      (hooks : ∀ hook, st.Installs hook → ∀ st' ∈ hook, Ignores slot st') : Ignores slot st

/-- Hooks that ignore a name. -/
def Slots.Ignore (slot : Slot) (a : Slots) : Prop :=
  ∀ commons hook, a.hooks.get? commons = some hook → ∀ st ∈ hook, Step.Ignores slot st

/-! ### Sessions that differ in one name -/

/-- Two sessions know the same, but for one name that their hooks ignore. -/
structure Slots.Like (slot : Slot) (a b : Slots) : Prop where
  names : ∀ m, m ≠ slot → b.names.get? m = a.names.get? m
  hooks : b.hooks = a.hooks
  heard : b.heard = a.heard
  ignore : a.Ignore slot

end Session

/-- One name is missing in the second session, and with it a hold. -/
def Difference.without (slot : Slot) (id : Nat) : Difference Slots where
  more := .on slot.kind id 1
  output _ o o' := o' = o
  app := Slots.Like slot
  calm := Slots.Ignore slot
  calms like := by
    obtain ⟨-, hooks, -, ignore⟩ := like
    unfold Session.Slots.Ignore
    rw [hooks]
    exact ignore
  printed related bytes := by rw [related]

variable {α β : Type} {slot : Slot} {id : Nat} {printer : Printer Slots}

/-! ### Parts of steps -/

/-- A part of a step that does not tell sessions apart which differ in one name: it finds the same, or
misses an object in both. -/
structure SessionM.Unseen (slot : Slot) (id : Nat) (x : SessionM α) : Prop where
  ends : ∀ s t : Session, s.Like (.without slot id) t → (x.run.run t).2.Lost (.without slot id) ∨
    (x.run.run s).1 = (x.run.run t).1 ∧ (x.run.run s).2.Like (.without slot id) (x.run.run t).2
  stays : ∀ t : Session, t.Lost (.without slot id) → (x.run.run t).2.Lost (.without slot id)

section

variable {x : SessionM α} {f : α → SessionM β}

/-- To return something tells nothing apart. -/
theorem unseen_pure (a : α) : SessionM.Unseen slot id (pure a : SessionM α) :=
  ⟨fun _ _ like => .inr ⟨rfl, like⟩, fun _ lost => lost⟩

/-- To miss something in both sessions tells nothing apart. -/
theorem unseen_failure : SessionM.Unseen slot id (failure : SessionM α) :=
  ⟨fun _ _ like => .inr ⟨rfl, like⟩, fun _ lost => lost⟩

/-- One part of a step after another: the second one starts from sessions that are still alike,
unless an object is lost, and then it stays so. -/
theorem unseen_bind (first : x.Unseen slot id) (rest : ∀ a, (f a).Unseen slot id) :
    (x >>= f).Unseen slot id where
  ends s t like := by
    have ended := first.ends s t like
    rw [run_bind, run_bind]
    rcases hx : x.run.run s with ⟨_ | a, u⟩ <;> rcases hy : x.run.run t with ⟨_ | b, v⟩ <;>
      rw [hx, hy] at ended <;> rcases ended with lost | ⟨same, after⟩
    · exact .inl lost
    · exact .inr ⟨rfl, after⟩
    · exact .inl ((rest b).stays v lost)
    -- Both sessions end the first part in the same way, so it is not missing in one of them
    -- alone.
    · cases same
    · exact .inl lost
    · cases same
    · exact .inl ((rest b).stays v lost)
    · cases same
      exact (rest a).ends u v after
  stays t lost := by
    have after := first.stays t lost
    rw [run_bind]
    rcases ran : x.run.run t with ⟨_ | a, u⟩ <;> rw [ran] at after
    · exact after
    · exact (rest a).stays u after

/-- What is missing is missed in both sessions. -/
theorem unseen_ofOption (a : Option α) : SessionM.Unseen slot id (SessionM.ofOption a) := by
  cases a with
  | none => exact unseen_failure
  | some a => exact unseen_pure a

/-- What both sessions have in common is looked at. -/
theorem unseen_look (look : Session → α)
    (same : ∀ s t : Session, s.Like (.without slot id) t → look t = look s)
    (rest : ∀ a, (f a).Unseen slot id) : SessionM.Unseen slot id (get >>= fun s => f (look s)) where
  ends s t like := by
    have run : ∀ u : Session, (get >>= fun s => f (look s) : SessionM β).run.run u =
        (f (look u)).run.run u := fun _ => rfl
    rw [run, run, same s t like]
    exact (rest (look s)).ends s t like
  stays t := (rest (look t)).stays t

/-- A fair change of the session. -/
theorem unseen_modify {f : Session → Session} (fair : Fair (.without slot id) f) :
    SessionM.Unseen slot id (modify f) :=
  ⟨fun _ _ like => (fair.like like).imp (fun lost => lost) fun after => ⟨rfl, after⟩,
    fun _ => fair.lost⟩

/-- Parts one after another, by induction on what they are for. -/
theorem unseen_mapM (as : List α) (each : ∀ a ∈ as, (f a).Unseen slot id) :
    (as.mapM f).Unseen slot id := by
  induction as with
  | nil => exact unseen_pure []
  | cons a as ih =>
    rw [List.mapM_cons]
    exact unseen_bind (each a List.mem_cons_self) fun _ =>
      unseen_bind (ih fun a member => each a (List.mem_cons_of_mem _ member)) fun _ => unseen_pure _

/-- What is done whether it misses an object or not. -/
theorem unseen_lift (blind : x.Unseen slot id) :
    SessionM.Unseen slot id (OptionT.lift x.run : SessionM (Option α)) where
  ends s t like := (blind.ends s t like).imp (fun lost => lost) fun ⟨same, after⟩ =>
    ⟨congrArg some same, after⟩
  stays := blind.stays

/-- An operation of the host that does not tell hosts apart. -/
theorem unseen_host {op : HostM Slots α} (blind : op.Blind (.without slot id)) :
    (SessionM.host op).Unseen slot id where
  ends s t like := (blind.ends s t like).imp (fun lost => lost) fun ⟨same, after⟩ =>
    ⟨congrArg some same, after⟩
  stays := blind.stays

/-- An operation of the host whose result is the answer. -/
theorem unseen_answer (view : α → Payload) {op : HostM Slots α}
    (blind : op.Blind (.without slot id)) : (SessionM.answer view op).Unseen slot id :=
  unseen_bind (unseen_host blind) fun _ => unseen_pure _

/-- A part of a step that goes by one instance. -/
theorem unseen_local {i : Nat} (own : SessionM.Local i x) : x.Unseen slot id where
  ends s t like := by
    obtain ⟨p, after, aside⟩ := own.alone s
    obtain ⟨q, after', aside'⟩ := own.alone t
    obtain ⟨ended, found⟩ := own.like (like.instances.get i)
    rw [after, after'] at found ⊢
    exact .inr ⟨ended.symm, { like with instances := like.instances.aside aside aside' found }⟩
  stays t lost := by
    obtain ⟨q, after, aside⟩ := own.alone t
    rw [after]
    exact lost.mono rfl (fun _ gone => gone) (fun _ gone => gone) fun _ gone => gone.aside aside

end

/-! ### Names -/

/-- A change of the application that goes by other names. -/
theorem fair_app {f : Slots → Slots} (like : ∀ {a b}, Slots.Like slot a b → Slots.Like slot (f a) (f b))
    (calm : ∀ {a}, Slots.Ignore slot a → Slots.Ignore slot (f a)) :
    Fair (.without slot id) fun s => { s with app := f s.app } where
  like same := .inr { same with app := like same.app }
  lost lost := ⟨calm lost.calm, lost.gone⟩

/-- Another name stands for the same object in both sessions. -/
theorem unseen_find {kind : Kind} {name : String} (other : slot ≠ ⟨kind, name⟩) :
    (SessionM.find kind name).Unseen slot id :=
  unseen_look (fun s => s.app.names.get? ⟨kind, name⟩)
    (fun _ _ like => like.app.names _ other.symm) fun _ => unseen_ofOption _

/-- A name that is given up lets go of its object in both sessions. -/
theorem fair_release (kind : Kind) (i : Nat) :
    Fair (.without slot id) fun s : Session => s.release kind i := by
  cases kind with
  | runtime => exact fair_releaseRuntime i
  | commons => exact fair_id
  | module => exact fair_releaseModule i
  | inst => exact fair_releaseInstance i
  | environment => exact fair_dropEnvironment i
  | block => exact fair_dropBlock i
  | runner => exact fair_dropRunner i

/-- Both sessions count one more holder. -/
theorem fair_retain (kind : Kind) (i : Nat) :
    Fair (.without slot id) fun s : Session => s.retain kind i := by
  cases kind with
  | runtime => exact fair_retainRuntime i
  | module => exact fair_retainModule i
  | inst => exact fair_retainInstance i
  | _ => exact fair_id

/-- A name is forgotten in both sessions. -/
theorem fair_erase (m : Slot) :
    Fair (.without slot id) fun s : Session => s.modifyNames (·.erase m) := by
  refine fair_app (f := fun a => { a with names := a.names.erase m })
    (fun like => ⟨fun m' other => ?_, like.hooks, like.heard, like.ignore⟩) fun calm => calm
  by_cases same : m' = m
  · subst same
    rw [Table.get?_erase_self, Table.get?_erase_self]
  · rw [Table.get?_erase_of_ne _ same, Table.get?_erase_of_ne _ same, like.names m' other]

/-- Another name gets an object, and lets go of the one that it had. -/
theorem fair_put {m : Slot} (other : slot ≠ m) (i : Nat) :
    Fair (.without slot id) fun s : Session => s.put m i := by
  have named : Fair (.without slot id) fun s : Session => s.modifyNames (·.set m i) := by
    refine fair_app (f := fun a => { a with names := a.names.set m i })
      (fun like => ⟨fun m' other => ?_, like.hooks, like.heard, like.ignore⟩) fun calm => calm
    by_cases same : m' = m
    · subst same
      rw [Table.get?_set_self, Table.get?_set_self]
    · rw [Table.get?_set_of_ne _ _ same, Table.get?_set_of_ne _ _ same, like.names m' other]
  refine .of_look (fun s => s.app.names.get? m) (g := fun old (s : Session) =>
    old.elim (s.modifyNames (·.set m i)) ((s.modifyNames (·.set m i)).release m.kind))
    (fun like => like.app.names m other.symm) (fun s => ?_) fun old => ?_
  · unfold Session.put
    cases s.app.names.get? m <;> rfl
  cases old with
  | none => exact named
  | some old => exact (fair_release m.kind old).comp named

/-- An object that was used gets back its name. -/
theorem unseen_keep {kind : Kind} {name : String} (other : slot ≠ ⟨kind, name⟩) (i : Nat) :
    (SessionM.keep kind name i).Unseen slot id :=
  unseen_modify (fair_put other i)

/-- A new object gets another name, and is shown. -/
theorem unseen_create {kind : Kind} {into : String} (other : slot ≠ ⟨kind, into⟩)
    {op : HostM Slots Nat} (blind : op.Blind (.without slot id)) {view : Nat → SessionM Payload}
    (shown : ∀ i, (view i).Unseen slot id) :
    (SessionM.create kind into op view).Unseen slot id := by
  refine unseen_bind (unseen_host blind) fun made => ?_
  cases made with
  | error e => exact unseen_pure _
  | ok i =>
    exact unseen_bind (shown i) fun _ => unseen_bind (unseen_keep other i) fun _ => unseen_pure _

/-- An object of another name is in hand while it is used. -/
theorem unseen_away {kind : Kind} {name : String} (other : slot ≠ ⟨kind, name⟩)
    {x : Nat → SessionM α} (unseen : ∀ i, (x i).Unseen slot id) :
    (SessionM.away kind name x).Unseen slot id :=
  unseen_bind (unseen_find other) fun i => unseen_bind (unseen_modify (fair_erase _)) fun _ =>
    unseen_bind (unseen_lift (unseen i)) fun result => unseen_bind (unseen_keep other i) fun _ =>
      unseen_ofOption result

/-- An object has one more holder while it is used. -/
theorem unseen_holding (kind : Kind) (i : Nat) {x : SessionM α} (unseen : x.Unseen slot id) :
    (SessionM.holding kind i x).Unseen slot id :=
  unseen_bind (unseen_modify (fair_retain kind i)) fun _ =>
    unseen_bind (unseen_lift unseen) fun result =>
      unseen_bind (unseen_modify (fair_release kind i)) fun _ => unseen_ofOption result

/-! ### Views -/

variable {s t : Session}

/-- What guests share is the same, and so is what was printed. -/
theorem Host.Like.same_commons (like : s.Like (.without slot id) t) : t.commons? = s.commons? := by
  funext i
  exact like.commons?_eq fun _ _ same => Commons.eq_of_like same same.output

/-- An object that both sessions have in common is looked for. -/
theorem unseen_found (look : Session → Option α)
    (same : ∀ s t : Session, s.Like (.without slot id) t → look t = look s) {f : α → SessionM β}
    (rest : ∀ a, (f a).Unseen slot id) :
    SessionM.Unseen slot id (get >>= fun s => SessionM.ofOption (look s) >>= f) :=
  unseen_look (f := fun a => SessionM.ofOption a >>= f) look same fun a =>
    unseen_bind (unseen_ofOption a) rest

/-- What is shown of a budget. -/
theorem unseen_budgetView (i : Nat) : (Session.budgetView i).Unseen slot id :=
  unseen_found (fun s => s.commons? i) (fun _ _ like => by rw [like.same_commons]) fun _ =>
    unseen_pure _

/-- What is shown of a module. -/
theorem unseen_moduleView (i : Nat) : (Session.moduleView i).Unseen slot id :=
  unseen_found (fun s => s.module? i) (fun _ _ like => like.module? i) fun _ => unseen_pure _

/-- What is shown of an instance. -/
theorem unseen_instanceView (i : Nat) : (Session.instanceView i).Unseen slot id :=
  unseen_found (fun s => s.instance? i) (fun _ _ like => like.instance? i) fun _ =>
    unseen_bind (unseen_ofOption _) fun _ => unseen_pure _

/-- What is shown of a block. -/
theorem unseen_blockView (i : Nat) : (Session.blockView i).Unseen slot id :=
  unseen_found (fun s => s.blocks.get? i) (fun _ _ like => by rw [like.blocks]) fun _ =>
    unseen_pure _

/-- The object of a name that both sessions have in common is looked for. -/
theorem unseen_named (look : Session → Nat → Option α)
    (same : ∀ s t : Session, s.Like (.without slot id) t → look t = look s) {kind : Kind}
    {name : String} (other : slot ≠ ⟨kind, name⟩) {f : α → SessionM β}
    (rest : ∀ a, (f a).Unseen slot id) :
    SessionM.Unseen slot id (get >>= fun s => SessionM.find kind name >>= fun i =>
      SessionM.ofOption (look s i) >>= f) :=
  unseen_look (f := fun l => SessionM.find kind name >>= fun i => SessionM.ofOption (l i) >>= f) look
    same fun l => unseen_bind (unseen_find other) fun i => unseen_bind (unseen_ofOption (l i)) rest

/-- The block of another name. -/
theorem unseen_blockOf {name : String} (other : slot ≠ ⟨.block, name⟩) :
    (blockOf name).Unseen slot id :=
  unseen_look (f := fun l => SessionM.find .block name >>= fun i => SessionM.ofOption (l i))
    (fun s => s.blocks.get?) (fun _ _ like => by rw [like.blocks]) fun _ =>
      unseen_bind (unseen_find other) fun _ => unseen_ofOption _

/-! ### Steps about runtimes and modules -/

variable [Engine]

section

variable (prints : Evenhanded (.without slot id) printer)
include prints

/-- What is asked of a runtime, by a step that does not use the name. -/
theorem unseen_actOnRuntime {name : String} (s : RuntimeStep) (unused : slot ∉ s.uses name) :
    (actOnRuntime printer name s).Unseen slot id := by
  cases s with
  -- A name that the step does not use is none of those that it looks up or gives.
  | budget =>
    have other : slot ≠ ⟨.commons, name⟩ := List.ne_of_not_mem_cons unused
    exact unseen_bind (unseen_find other) fun i => unseen_bind (unseen_budgetView i) fun _ =>
      unseen_pure _
  | output =>
    have other : slot ≠ ⟨.commons, name⟩ := List.ne_of_not_mem_cons unused
    exact unseen_named (fun s => s.commons?) (fun _ _ like => like.same_commons) other fun _ =>
      unseen_pure _
  | clearOutput =>
    have other : slot ≠ ⟨.commons, name⟩ := List.ne_of_not_mem_cons unused
    refine unseen_bind (unseen_find other) fun i => unseen_bind (unseen_modify ?_) fun _ =>
      unseen_pure _
    refine fair_modifyCommons i fun c c' same => ⟨same.budget, same.clock, ?_⟩
    exact congrArg (fun o : Output => { o with captured := [] }) (same.output : c'.output = c.output)
  | print bytes =>
    have other : slot ≠ ⟨.runtime, name⟩ := List.ne_of_not_mem_cons unused
    refine unseen_named (fun s => s.runtime?) (fun _ _ like => funext like.runtime?) other fun r => ?_
    exact unseen_bind (unseen_modify (prints _ _)) fun _ => unseen_pure _
  | load into bytecode =>
    simp only [RuntimeStep.uses, List.mem_cons, List.not_mem_nil, or_false, not_or] at unused
    refine unseen_bind (unseen_find unused.1) fun i => ?_
    exact unseen_create unused.2 (blind_load i bytecode) unseen_moduleView
  | loadText into text =>
    simp only [RuntimeStep.uses, List.mem_cons, List.not_mem_nil, or_false, not_or] at unused
    refine unseen_bind (unseen_find unused.1) fun i => ?_
    exact unseen_create unused.2 (blind_loadText i text) unseen_moduleView
  | createRunner into bytecode eventId payload config execStack =>
    simp only [RuntimeStep.uses, List.mem_cons, List.not_mem_nil, or_false, not_or] at unused
    refine unseen_bind (unseen_find unused.1) fun i => unseen_holding _ i ?_
    exact unseen_create unused.2 (blind_createRunner prints i _ _ _ _ _) fun _ => unseen_pure _
  | benchmark plain instrumented run =>
    have other : slot ≠ ⟨.runtime, name⟩ := List.ne_of_not_mem_cons unused
    refine unseen_bind (unseen_find other) fun i => unseen_holding _ i ?_
    refine unseen_bind (unseen_host (blind_benchmark prints i run plain instrumented)) fun report => ?_
    cases report with
    | error e => exact unseen_pure _
    | ok report => exact unseen_pure _

/-- What is asked of a module. -/
theorem unseen_actOnModule {name : String} (s : ModuleStep)
    (unused : slot ∉ (Step.module name s).uses) : (actOnModule printer name s).Unseen slot id := by
  cases s with
  | bytecode =>
    have other : slot ≠ ⟨.module, name⟩ := List.ne_of_not_mem_cons unused
    refine unseen_bind (unseen_find other) fun i => ?_
    exact unseen_found (fun s => s.module? i) (fun _ _ like => like.module? i) fun _ => unseen_pure _
  | instantiate into stack heap =>
    simp only [Step.uses, List.mem_cons, List.not_mem_nil, or_false, not_or] at unused
    refine unseen_bind (unseen_find unused.1) fun i => ?_
    exact unseen_create unused.2 (blind_instantiate prints i stack heap) unseen_instanceView

/-! ### Steps about instances and blocks -/

omit [Engine] prints in
/-- What is asked of an instance: most of it goes by the instance alone. -/
theorem unseen_actOnInstance {name : String} (s : InstanceStep) (unused : slot ∉ s.uses name) :
    (actOnInstance name s).Unseen slot id := by
  -- What makes no object uses one name only, which is that of the instance.
  cases makes : s.makes with
  | false =>
    obtain ⟨-, x, own, acts⟩ := actOnInstance_of_not_makes makes name
    have other : slot ≠ ⟨.inst, name⟩ := by
      rintro rfl
      cases s <;> simp [InstanceStep.uses] at unused
    rw [acts]
    exact unseen_bind (unseen_find other) fun i => unseen_local (own i)
  | true =>
    cases s with
    | createEnvironment into stack =>
      simp only [InstanceStep.uses, List.mem_cons, List.not_mem_nil, or_false, not_or] at unused
      refine unseen_bind (unseen_find unused.1) fun i => ?_
      exact unseen_create unused.2 (blind_createEnvironment i stack) fun _ => unseen_pure _
    | allocate into type value =>
      simp only [InstanceStep.uses, List.mem_cons, List.not_mem_nil, or_false, not_or] at unused
      refine unseen_bind (unseen_find unused.1) fun i => unseen_bind (unseen_ofOption _) fun datum => ?_
      exact unseen_create unused.2 (blind_numbers (numbers_allocate type datum)) unseen_blockView
    | allocateArray into type count =>
      simp only [InstanceStep.uses, List.mem_cons, List.not_mem_nil, or_false, not_or] at unused
      refine unseen_bind (unseen_find unused.1) fun i => ?_
      exact unseen_create unused.2 (blind_numbers (numbers_allocateArray type count)) unseen_blockView
    | _ => cases makes

omit [Engine] prints in
/-- What is asked of a block goes by the instance that it is in. -/
theorem unseen_actOnBlock {name : String} (s : BlockStep) (unused : slot ∉ (Step.block name s).uses) :
    (actOnBlock name s).Unseen slot id := by
  by_cases moves : ∃ into, s = .move into
  · obtain ⟨into, rfl⟩ := moves
    simp only [Step.uses, List.mem_cons, List.not_mem_nil, or_false, not_or] at unused
    refine unseen_bind (unseen_blockOf unused.1) fun b => unseen_bind (unseen_find unused.1) fun i => ?_
    exact unseen_bind (unseen_modify (fair_erase _)) fun _ =>
      unseen_bind (unseen_keep unused.2 i) fun _ => unseen_pure _
  · obtain ⟨-, x, own, acts⟩ := actOnBlock_of_not_move (fun into same => moves ⟨into, same⟩) name
    have other : slot ≠ ⟨.block, name⟩ := by
      rintro rfl
      cases s <;> exact unused List.mem_cons_self
    rw [acts]
    exact unseen_bind (unseen_blockOf other) fun b => unseen_local (own b)

/-! ### Calls -/

section

variable {v w : Invoker}

/-- What is lost stays so during calls, by induction on what is asked for. -/
theorem lost_callEach (requests : List (CallRequest × List HostValue))
    (lost : t.Lost (.without slot id)) :
    ((callEach printer w requests).run t).2.Lost (.without slot id) := by
  induction requests generalizing w t with
  | nil => exact lost
  | cons first rest ih => exact ih (Invoker.lost_call prints lost)

/-- Calls one after another through one environment end in the same way in sessions that are alike, by
induction on what is asked for. -/
theorem callEach_like (requests : List (CallRequest × List HostValue))
    (like : s.Like (.without slot id) t) (phase : w.phase = v.phase)
    (environment : w.environment = v.environment) :
    ((callEach printer w requests).run t).2.Lost (.without slot id) ∨
      ((callEach printer v requests).run s).1 = ((callEach printer w requests).run t).1 ∧
        ((callEach printer v requests).run s).2.Like (.without slot id)
          ((callEach printer w requests).run t).2 := by
  induction requests generalizing v w s t with
  | nil => exact .inr ⟨rfl, like⟩
  | cons first rest ih =>
    obtain ⟨request, args⟩ := first
    simp only [run_callEach_cons, run_callWith]
    rcases Invoker.call_blind prints like phase environment with lost | ⟨result, phase', after⟩
    · exact .inl (lost_callEach prints rest lost)
    · have environment' := (w.environment_call printer request.function args request.results t).trans
        (environment.trans (v.environment_call printer request.function args request.results s).symm)
      refine (ih after phase' environment').imp (fun lost => lost) fun ⟨others, ended⟩ => ⟨?_, ended⟩
      rw [result, phase', others]

/-- A part of a step that calls, and then looks at nothing but how the calls ended. -/
theorem unseen_calls {environment : Nat} (requests : List (CallRequest × List HostValue))
    (f : List CallAnswer → α) {x : SessionM α}
    (run : ∀ u, x.run.run u =
      (some (f ((callEach printer (.ofEnvironment environment) requests).run u).1),
        ((callEach printer (.ofEnvironment environment) requests).run u).2)) : x.Unseen slot id where
  ends s t like := by
    rw [run, run]
    exact (callEach_like prints requests like rfl rfl).imp (fun lost => lost) fun ⟨same, after⟩ =>
      ⟨congrArg (fun cs => some (f cs)) same, after⟩
  stays t lost := by
    rw [run]
    exact lost_callEach prints requests lost

end

/-! ### Steps about environments -/

omit [Engine] prints in
/-- Arguments are found in blocks of other names. -/
theorem unseen_arguments (request : CallRequest) (unused : slot ∉ request.blocks) :
    (request.args.mapM argumentValue).Unseen slot id := by
  refine unseen_mapM _ fun a member => ?_
  cases a with
  | value v => exact unseen_pure v
  | block name =>
    have other : slot ≠ ⟨.block, name⟩ := by
      rintro rfl
      exact unused (List.mem_filterMap.2 ⟨_, member, rfl⟩)
    exact unseen_bind (unseen_blockOf other) fun _ => unseen_pure _

omit [Engine] prints in
/-- The environment of another name. -/
theorem unseen_environmentOf {name : String} (other : slot ≠ ⟨.environment, name⟩)
    {f : Nat × Environment → SessionM α} (rest : ∀ found, (f found).Unseen slot id) :
    (Session.environmentOf name >>= f).Unseen slot id := by
  refine unseen_bind (unseen_bind (unseen_find other) fun i => ?_) rest
  exact unseen_found (fun s => s.environments.get? i) (fun _ _ like => by rw [like.environments])
    fun _ => unseen_pure _

omit [Engine] prints in
/-- User data is replaced in both sessions. -/
theorem unseen_replaceUserData (i : Nat) (userData : Except Error UserData)
    (shown : UserData → Payload) : (Session.replaceUserData i userData shown).Unseen slot id := by
  cases userData with
  | error e => exact unseen_pure _
  | ok userData => exact unseen_bind (unseen_modify (fair_modifyEnvironment _ _)) fun _ => unseen_pure _

/-- What is asked of an environment, but for the question how many hold its instance. -/
theorem unseen_actOnEnvironment {name : String} (s : EnvironmentStep)
    (unused : slot ∉ (Step.environment name s).uses)
    (uncounted : (Step.environment name s).counts slot.kind = false) :
    (actOnEnvironment printer name s).Unseen slot id := by
  simp only [Step.uses, List.mem_cons, not_or] at unused
  obtain ⟨other, unused⟩ := unused
  cases s with
  | call request =>
    have unused : slot ∉ request.blocks := by simpa [EnvironmentStep.requests?] using unused
    refine unseen_bind (unseen_arguments request unused) fun args => unseen_away other fun i => ?_
    exact unseen_calls prints [(request, args)] (fun cs => ((cs.head?).map Answer.called).getD .absent)
      fun _ => rfl
  | callDirectly request =>
    have unused : slot ∉ request.blocks := by simpa [EnvironmentStep.requests?] using unused
    refine unseen_bind (unseen_arguments request unused) fun args => unseen_away other fun i => ?_
    exact unseen_answer _ (blind_call prints _ _ _ _)
  | callAll requests =>
    refine unseen_bind (unseen_mapM _ fun request member => unseen_arguments request fun used =>
      unused (List.mem_flatMap.2 ⟨request, member, used⟩)) fun args => unseen_away other fun i => ?_
    exact unseen_calls prints (requests.zip args) .calledAll fun _ => rfl
  | userData => exact unseen_environmentOf other fun _ => unseen_pure _
  | setUserData eventId payload =>
    exact unseen_environmentOf other fun _ => unseen_replaceUserData _ _ _
  | editUserData edit => exact unseen_environmentOf other fun _ => unseen_replaceUserData _ _ _
  -- This is the question that shows how many hold the instance.
  | owner => cases uncounted

/-! ### Steps about runners -/

omit [Engine] prints in
/-- The runner of another name. -/
theorem unseen_runner {name : String} (other : slot ≠ ⟨.runner, name⟩) {f : Runner → SessionM α}
    (rest : ∀ r, (f r).Unseen slot id) :
    SessionM.Unseen slot id (get >>= fun s => SessionM.find .runner name >>= fun i =>
      SessionM.ofOption (s.runners.get? i) >>= f) :=
  unseen_named (fun s => s.runners.get?) (fun _ _ like => by rw [like.runners]) other rest

omit [Engine] prints in
/-- What is shown of a runner. -/
theorem unseen_runnerStateOf (r : Runner) : (Session.runnerStateOf r).Unseen slot id := by
  refine unseen_look (fun s => (s.environments.get? r.environment, s.module? r.module))
    (fun s t like => by rw [like.environments, like.module?]) (f := fun found => do
      let e ← SessionM.ofOption found.1
      let m ← SessionM.ofOption found.2
      let exception ← SessionM.host (HostM.exception? r.inst)
      pure (Session.RunnerState.mk r.threshold r.counter e.userData exception m.contentHash))
    fun found => ?_
  exact unseen_bind (unseen_ofOption _) fun _ => unseen_bind (unseen_ofOption _) fun _ =>
    unseen_bind (unseen_host local_exception?.blind) fun _ => unseen_pure _

/-- What is asked of a runner. -/
theorem unseen_actOnRunner {name : String} (s : RunnerStep)
    (unused : slot ∉ (Step.runner name s).uses) : (actOnRunner printer name s).Unseen slot id := by
  have other : slot ≠ ⟨.runner, name⟩ := by
    rintro rfl
    cases s <;> exact unused List.mem_cons_self
  cases s with
  | runPlain => exact unseen_away other fun i => unseen_answer _ (blind_runPlain prints i)
  | runInstrumented threshold =>
    exact unseen_away other fun i => unseen_answer _ (blind_runInstrumented prints i threshold)
  | reset => exact unseen_away other fun i => unseen_answer _ (blind_resetRunner i)
  | state =>
    exact unseen_runner other fun r => unseen_bind (unseen_runnerStateOf r) fun _ => unseen_pure _
  | takeInstance into =>
    simp only [Step.uses, List.mem_cons, List.not_mem_nil, or_false, not_or] at unused
    refine unseen_runner other fun r => unseen_bind (unseen_modify (fair_retainInstance _)) fun _ => ?_
    exact unseen_bind (unseen_keep unused.2 _) fun _ => unseen_pure _

/-! ### Owners -/

/-- What an answer says of an environment's owners, besides how many hold them. -/
def Session.Answer.told : Answer → Option (String × Budget)
  | .plain (.owner o) => some (o.hash, o.budget)
  | _ => none

/-- Who stands behind an environment, besides how many hold them. -/
def Session.owners (s : Session) (name : String) : Option (String × Budget) := do
  let i ← s.app.names.get? ⟨.environment, name⟩
  let e ← s.environments.get? i
  let i ← s.instance? e.inst
  let m ← s.module? i.module
  let r ← s.runtime? m.runtime
  let c ← s.commons? r.commons
  pure (m.contentHash, c.budget)

omit prints in
/-- An environment that is asked for its owners tells how many there are. -/
theorem told_owner (printer : Printer Slots) (name : String) (s : Session) :
    (stepWith printer (.environment name .owner) s).1.told = s.owners name := by
  have yields : Yields (act printer (.environment name .owner)) s (fun a _ => a.told = s.owners name)
      fun _ => s.owners name = none := by
    simp only [act, actOnEnvironment, Session.environmentOf, Session.ownerOf, yields_bind_iff,
      yields_find, yields_get, yields_ofOption, yields_pure, Session.owners, Host.instance?,
      Host.module?, Host.runtime?]
    refine ⟨fun i named => ?_, fun missing => by rw [missing]; rfl⟩
    rw [named]
    refine ⟨fun e bound => ?_, fun missing => ?_⟩
    · simp +contextual [bound, Session.Answer.told]
    · simp [missing]
  exact stepWith_of_yields (P := fun a _ => a.told = s.owners name) yields fun _ missing => missing.symm

omit [Engine] prints in
/-- An environment has the same owners in both sessions. -/
theorem Host.Like.owners (like : s.Like (.without slot id) t) {name : String}
    (other : slot ≠ ⟨.environment, name⟩) : Session.owners t name = Session.owners s name := by
  have modules := funext like.module?
  have instances := funext like.instance?
  have runtimes := funext like.runtime?
  unfold Session.owners
  rw [like.app.names _ other.symm, like.environments, modules, instances, runtimes, like.same_commons]

/-! ### All steps -/

omit [Engine] prints in
/-- An object is shown in the same way in both sessions. -/
theorem Host.Like.debug? (like : s.Like (.without slot id) t) (kind : Kind) (i : Nat) :
    Session.debug? t kind i = Session.debug? s kind i := by
  have modules := funext like.module?
  have instances := funext like.instance?
  cases kind with
  | runtime => simp only [Session.debug?, Host.debugRuntime, like.runtime?, like.same_commons]
  | commons => rfl
  | module => simp only [Session.debug?, Host.debugModule, modules]
  | inst => simp only [Session.debug?, Host.debugInstance, modules, instances]
  | environment => simp only [Session.debug?, Host.debugEnvironment, like.environments]
  | block => simp only [Session.debug?, like.blocks]
  | runner => simp only [Session.debug?, Host.debugRunner, like.runners, modules]

omit [Engine] prints in
/-- No other objects have more holders in the first session. -/
theorem Host.Like.holders? (like : s.Like (.without slot id) t) {kind : Kind}
    (other : kind ≠ slot.kind) (i : Nat) : Session.holders? t kind i = Session.holders? s kind i := by
  have none : (Difference.without slot id).more kind i = 0 := if_neg fun same => other same.1
  cases kind with
  | runtime => exact congrArg (·.map Counted.holders) (Counted.rel_like_zero.1 (none ▸ like.runtimes.get i))
  | module => exact congrArg (·.map Counted.holders) (Counted.rel_like_zero.1 (none ▸ like.modules.get i))
  | inst => exact congrArg (·.map Counted.holders) (Counted.rel_like_zero.1 (none ▸ like.instances.get i))
  | _ => rfl

omit [Engine] prints in
/-- A new runtime, with a hook that ignores the name. -/
theorem unseen_createRuntime {into : String} (runtime : slot ≠ ⟨.runtime, into⟩)
    (commons : slot ≠ ⟨.commons, into⟩) (config : RuntimeConfig) (natives : List NativeGroup)
    (clock : List Reading) (header : Option Bytes) {onPrint : List Step}
    (ignore : ∀ st ∈ onPrint, st.Ignores slot) :
    (Session.createRuntime into config natives clock header onPrint).Unseen slot id := by
  refine unseen_bind (unseen_host (blind_createRuntime config natives _ fun _ => rfl)) fun made => ?_
  rcases made with e | ⟨i, c⟩
  · exact unseen_pure _
  · refine unseen_bind (unseen_keep runtime i) fun _ => unseen_bind (unseen_keep commons c) fun _ => ?_
    have hooked : Fair (.without slot id) fun s : Session =>
        { s with app := { s.app with hooks := s.app.hooks.set c onPrint } } := by
      have calm {a : Slots} (ignore' : a.Ignore slot) :
          Slots.Ignore slot { a with hooks := a.hooks.set c onPrint } := by
        intro commons hook found
        -- The new hook ignores the name; the other ones did so before.
        by_cases same : commons = c
        · cases same
          cases (Table.get?_set_self _ _ _).symm.trans found
          exact ignore
        · exact ignore' commons hook ((Table.get?_set_of_ne _ _ same).symm.trans found)
      exact fair_app (f := fun a => { a with hooks := a.hooks.set c onPrint })
        (fun like => ⟨like.names, by rw [like.hooks], like.heard, calm like.ignore⟩) calm
    split
    · exact unseen_bind (unseen_modify hooked) fun _ => unseen_bind (unseen_budgetView c) fun _ =>
        unseen_pure _
    · exact unseen_bind (unseen_budgetView c) fun _ => unseen_pure _

/-- **Steps.** A step that ignores a name does not tell sessions apart which differ in it. -/
theorem unseen_act {st : Step} (ignores : st.Ignores slot) : (act printer st).Unseen slot id := by
  obtain ⟨unused, uncounted, hooks⟩ := ignores
  cases st with
  | createRuntime into config natives clock header onPrint =>
    simp only [Step.uses, List.mem_cons, List.not_mem_nil, or_false, not_or] at unused
    exact unseen_createRuntime unused.1 unused.2 config natives clock header (hooks onPrint rfl)
  | runtime name s => exact unseen_actOnRuntime prints s unused
  | module name s => exact unseen_actOnModule prints s unused
  | inst name s => exact unseen_actOnInstance s unused
  | block name s => exact unseen_actOnBlock s unused
  | environment name s => exact unseen_actOnEnvironment prints s unused uncounted
  | runner name s => exact unseen_actOnRunner prints s unused
  | drop other =>
    simp only [Step.uses, List.mem_singleton] at unused
    refine unseen_bind (unseen_find unused) fun i => unseen_bind (unseen_modify ?_) fun _ =>
      unseen_pure _
    exact (fair_release other.kind i).comp (fair_erase other)
  | clone other into =>
    simp only [Step.uses, List.mem_cons, List.not_mem_nil, or_false, not_or] at unused
    simp only [act]
    split
    · exact unseen_failure
    · refine unseen_bind (unseen_find unused.1) fun i => ?_
      exact unseen_bind (unseen_modify (fair_retain other.kind i)) fun _ =>
        unseen_bind (unseen_keep unused.2 i) fun _ => unseen_pure _
  | holders other =>
    simp only [Step.uses, List.mem_singleton] at unused
    -- How many hold a thing is told only of things of other kinds, whose owners do not differ.
    have kind : other.kind ≠ slot.kind := of_decide_eq_false uncounted
    refine unseen_bind (unseen_find unused) fun i => ?_
    exact unseen_found (fun s : Session => s.holders? other.kind i)
      (fun _ _ like => like.holders? kind i) fun _ => unseen_pure _
  | same a b =>
    simp only [Step.uses, List.mem_cons, List.not_mem_nil, or_false, not_or] at unused
    exact unseen_bind (unseen_find unused.1) fun _ => unseen_bind (unseen_find unused.2) fun _ =>
      unseen_pure _
  | debug other =>
    simp only [Step.uses, List.mem_singleton] at unused
    refine unseen_bind (unseen_find unused) fun i => ?_
    exact unseen_found (fun s : Session => Session.debug? s other.kind i)
      (fun _ _ like => like.debug? _ _) fun _ => unseen_pure _
  | takeHooked =>
    refine unseen_look (fun s => s.app.heard) (fun _ _ like => like.app.heard) (f := fun heard => do
      modify fun s : Session => { s with app := { s.app with heard := [] } }
      pure (Answer.hooked heard)) fun _ => unseen_bind (unseen_modify ?_) fun _ => unseen_pure _
    exact fair_app (f := fun a => { a with heard := [] })
      (fun like => ⟨like.names, like.hooks, rfl, like.ignore⟩) fun calm => calm
  | takeReleased =>
    refine unseen_look (fun s => s.released) (fun _ _ like => like.released) (f := fun released => do
      modify fun s : Session => { s with released := [] }
      pure (Answer.plain (.released (released.map Bytes.toNat)))) fun _ =>
        unseen_bind (unseen_modify ?_) fun _ => unseen_pure _
    exact fair_owned (fun like => { like with released := rfl }) fun _ => ⟨rfl, rfl, rfl, rfl⟩

/-- What is lost stays so over a step. -/
theorem lost_stepWith {st : Step} (ignores : st.Ignores slot) (lost : t.Lost (.without slot id)) :
    (stepWith printer st t).2.Lost (.without slot id) := by
  rw [Session.stepWith_snd]
  exact (unseen_act prints ignores).stays t lost

/-- A step has the same answer in both sessions and leaves them alike, unless it loses the
object. -/
theorem stepWith_like {st : Step} (ignores : st.Ignores slot) (like : s.Like (.without slot id) t) :
    (stepWith printer st t).2.Lost (.without slot id) ∨
      (stepWith printer st s).1 = (stepWith printer st t).1 ∧
        (stepWith printer st s).2.Like (.without slot id) (stepWith printer st t).2 := by
  have ended := (unseen_act prints ignores).ends s t like
  rw [Session.stepWith_snd, Session.stepWith_snd, Session.stepWith_fst, Session.stepWith_fst]
  exact ended.imp (fun lost => lost) fun ⟨same, after⟩ => ⟨by rw [same], after⟩

/-- What is lost stays so, by induction on the steps. -/
theorem lost_runWith (steps : List Step) (ignores : ∀ st ∈ steps, st.Ignores slot)
    (lost : t.Lost (.without slot id)) : (runWith printer steps t).2.Lost (.without slot id) := by
  induction steps generalizing t with
  | nil => exact lost
  | cons st steps ih =>
    obtain ⟨first, others⟩ := List.forall_mem_cons.1 ignores
    exact ih others (lost_stepWith prints first lost)

/-- **Indifference.** Steps that ignore a name have the same answers in sessions that differ in it, by
induction on the steps. -/
theorem runWith_like (steps : List Step) (ignores : ∀ st ∈ steps, st.Ignores slot)
    (like : s.Like (.without slot id) t) :
    (runWith printer steps t).2.Lost (.without slot id) ∨
      (runWith printer steps s).1 = (runWith printer steps t).1 ∧
        (runWith printer steps s).2.Like (.without slot id) (runWith printer steps t).2 := by
  induction steps generalizing s t with
  | nil => exact .inr ⟨rfl, like⟩
  | cons st steps ih =>
    obtain ⟨first, others⟩ := List.forall_mem_cons.1 ignores
    rcases stepWith_like prints first like with lost | ⟨same, after⟩
    · exact .inl (lost_runWith prints steps others lost)
    · refine (ih others after).imp (fun lost => lost) fun ⟨answers, ended⟩ => ⟨?_, ended⟩
      exact congrArg₂ List.cons same answers

end

/-- Run the steps of a hook, if there is one. -/
def Session.runHook (commons : Nat) (s : Session) : Session :=
  match s.app.hooks.get? commons with
  | none => s
  | some steps =>
    let (answers, t) := runWith Host.emit steps s
    { t with app := { t.app with heard := t.app.heard ++ [answers] } }

/-- A hook that ignores the name has the same answers in both sessions. -/
theorem fair_runHook (commons : Nat) : Fair (.without slot id) (Session.runHook commons) where
  like {s t} like := by
    unfold Session.runHook
    rw [like.app.hooks]
    cases hooked : s.app.hooks.get? commons with
    | none => exact .inr like
    | some steps =>
      have ignores := like.app.ignore commons steps hooked
      rcases runWith_like evenhanded_emit steps ignores like with lost | ⟨same, after⟩
      · exact .inl ⟨lost.calm, lost.gone⟩
      · have heard := congrArg₂ (· ++ [·]) after.app.heard same.symm
        exact .inr { after with app := { after.app with heard } }
  lost {t} lost := by
    unfold Session.runHook
    cases hooked : t.app.hooks.get? commons with
    | none => exact lost
    | some steps =>
      have ran := lost_runWith evenhanded_emit steps (lost.calm commons steps hooked) lost
      exact ⟨ran.calm, ran.gone⟩

/-- Prints run hooks, and hooks ignore the name. -/
theorem evenhanded_hookedPrinter : Evenhanded (.without slot id) hookedPrinter :=
  fun commons bytes => (fair_runHook commons).comp (fair_emit commons bytes)

end Embedder
