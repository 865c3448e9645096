import Embedder.Proofs.Host.Loan
import Embedder.Proofs.Host.Lockstep
import Embedder.Proofs.Session.Refusal

namespace Embedder

open Session (CallRequest Slot Slots Step Answer empty hookedPrinter runWith stepWith)

/-!
# One call at a time

While a call is in flight on an instance, whatever a hook asks of the instance is turned away, and
nothing happens to the call: it ends as if the hook had not been there. Blocks that are dropped
meanwhile are forgotten, and their bytes are never handed out again.

* `Session.Passes`, `Entry.Meanwhile`: the sessions between the operations of a run, and those in which
  hooks act while a call is in flight.
* `Entry.Tracks`: two flights of one call, of which only one runs hooks.
* `Session.Exclusive`, `exclusive_of_passes`: that one call has an instance for itself, and that this
  is always so.
-/

/-! ### Between operations -/

/-- What a session passes through when it is asked for steps: the sessions between the operations of
which the steps are made. -/
inductive Session.Passes [Engine] (printer : Printer Slots) (s : Session) : Session → Prop
  /-- It begins there. -/
  | here : Passes printer s s
  /-- A whole step is over. -/
  | step {t : Session} (st : Step) (before : Passes printer s t) :
      Passes printer s (stepWith printer st t).2
  /-- An object that a step uses has no name. -/
  | away {t : Session} (slot : Slot) (before : Passes printer s t) :
      Passes printer s (t.modifyNames (·.erase slot))
  /-- A runner has been told its threshold. -/
  | told {t : Session} (id : Nat) (threshold : UInt64) (before : Passes printer s t) :
      Passes printer s { t with runners := t.runners.modify id fun r => { r with threshold } }
  /-- Something was printed. -/
  | print {t : Session} (commons : Nat) (bytes : Bytes) (before : Passes printer s t) :
      Passes printer s (printer commons bytes t)
  /-- A clock was read. -/
  | clock {t : Session} (commons : Nat) (before : Passes printer s t) :
      Passes printer s (t.readClock commons).2
  /-- A call is over. -/
  | call {t : Session} (v : Invoker) (name : String) (args : List HostValue)
      (results : List HostType) (before : Passes printer s t) :
      Passes printer s (v.call printer name args results t).2.2

/-- The sessions in which a hook acts while a call is in flight: a callback of the guest prints, and
what is printed runs steps. -/
def Entry.Meanwhile [Engine] {s : Session} {environment : Nat} {name : String}
    {args : List HostValue} {results : List HostType} (entry : Entry s environment name args results)
    (w : Session) : Prop :=
  ∃ n given u, entry.Asks hookedPrinter n given u ∧ Session.Passes Host.emit u.host w

section

variable [Engine] [HookRule] (any : ∀ hook, HookRule.admits hook) {printer : Printer Slots}
  {s t : Session} {g : Pending}
include any

/-- Nothing but changes lead to what a session passes through, and they leave stores in hand that
were. -/
theorem Session.Passes.leads (passes : Session.Passes printer s t)
    (traced : Traced (fun _ => True) printer) :
    ∃ g' : Pending, g'.held = g.held ∧ g'.taken = g.taken ∧ Leads (fun _ => True) ⟨s, g⟩ ⟨t, g'⟩ := by
  induction passes with
  | here => exact ⟨g, rfl, rfl, .refl⟩
  | @step t st _ ih =>
    obtain ⟨g', held, taken, lead⟩ := ih
    refine ⟨g', held, taken, lead.trans (.of_sound fun ha => ?_)⟩
    exact Session.leads_stepWith traced trivial st t
      ((Step.Fits.of_any any st).permitted t ha.admitted.1) fun hook _ => any hook
  -- An environment whose name is away is in hand, unless it had no name.
  | @away t slot _ ih =>
    obtain ⟨g', held, taken, lead⟩ := ih
    cases named : t.app.names.get? slot with
    | none =>
      refine ⟨g', held, taken, lead.cast ?_⟩
      rw [Session.modifyNames, Table.erase_eq_self _ named]
    | some j => exact ⟨g'.pin slot.kind j, held, taken, lead.trans (leads_erase named trivial)⟩
  | told id threshold _ ih =>
    obtain ⟨g', held, taken, lead⟩ := ih
    exact ⟨g', held, taken, lead.trans (.of_change .recorded)⟩
  | print commons bytes _ ih =>
    obtain ⟨g', held, taken, lead⟩ := ih
    exact ⟨g', held, taken, lead.trans (traced _ _ _ _)⟩
  | @clock t commons _ ih =>
    obtain ⟨g', held, taken, lead⟩ := ih
    refine ⟨g', held, taken, lead.trans ?_⟩
    unfold Host.readClock
    split
    · exact .refl
    · exact .of_change (.commons fun _ => rfl)
  | call v name args results _ ih =>
    obtain ⟨g', held, taken, lead⟩ := ih
    exact ⟨g', held, taken, lead.trans (leads_call traced v (fun _ _ => trivial) trivial name args results)⟩

section

variable {environment : Nat} {name : String} {args : List HostValue} {results : List HostType}
  (entry : Entry s environment name args results)

/-- While a call is in flight, its store is in hand, and no other store that was not before. -/
theorem Entry.leads_lent {w : Session} (meanwhile : entry.Meanwhile w) :
    ∃ (g' : Pending) (loan : Loan), g'.held = Function.update g.held entry.env.inst (some loan) ∧
      loan.ready = true ∧ Leads (fun _ => True) ⟨s, g⟩ ⟨w, g'⟩ := by
  obtain ⟨n, given, u, asks, passes⟩ := meanwhile
  have begun : Leads (fun _ => True) ⟨s, g⟩ (entry.flight.config g entry.callee.caller.inst
      entry.callee.caller.commons true) := entry.leads_flight trivial trivial
  have lead := entry.leads_asks (g := g) (Session.traced_of_any any) asks
  obtain ⟨g', held, -, lead'⟩ := passes.leads any (g := g.lend entry.callee.caller.inst
    ⟨u.store, entry.callee.caller.commons, true⟩) traced_emit
  refine ⟨g', ⟨u.store, entry.callee.caller.commons, true⟩, ?_, rfl, (begun.trans lead).trans lead'⟩
  rw [held, ← entry.caller_inst]
  rfl

/-- While a call is in flight, its store is in hand. -/
theorem Entry.leads_meanwhile {w : Session} (meanwhile : entry.Meanwhile w) :
    ∃ (g' : Pending) (loan : Loan), g'.held entry.env.inst = some loan ∧ loan.ready = true ∧
      Leads (fun _ => True) ⟨s, g⟩ ⟨w, g'⟩ := by
  obtain ⟨g', loan, held, ready, lead⟩ := entry.leads_lent any (g := g) meanwhile
  exact ⟨g', loan, by rw [held, Function.update_self], ready, lead⟩

end

end

/-! ### Calls without some blocks -/

namespace Session.Short

variable {id : Nat} {s t : Session}

/-- The same change of an instance in both sessions. -/
theorem modifyInstance (short : s.Short id t) (j : Nat) (f : Instance → Instance) :
    Session.Short id (s.modifyInstance j f) (t.modifyInstance j f) :=
  { short with
    instances := fun k => by
      rw [Host.instance?_modifyInstance, Host.instance?_modifyInstance, short.instances] }

/-- The same change of a budget in both sessions. -/
theorem modifyBudget (short : s.Short id t) (j : Nat) (f : Budget → Budget) :
    Session.Short id (s.modifyBudget j f) (t.modifyBudget j f) :=
  { short with
    commons := congrArg (fun p : Pool Commons => p.modify j fun c => { c with budget := f c.budget })
      short.commons }

/-- The same change of an environment in both sessions. -/
theorem modifyEnvironment (short : s.Short id t) (j : Nat) (f : Environment → Environment) :
    Session.Short id (s.modifyEnvironment j f) (t.modifyEnvironment j f) where
  commons := short.commons
  runtimes := short.runtimes
  modules := short.modules
  instances := short.instances
  environments := congrArg (fun p : Pool Environment => p.modify j f) short.environments
  blocks := short.blocks
  runners := short.runners
  released := short.released
  hooks := short.hooks
  names slot := by
    rcases short.names slot with same | ⟨gone, block, belongs⟩
    · exact .inl same
    · obtain ⟨kind, name⟩ := slot
      subst block
      exact .inr ⟨gone, rfl, belongs⟩

/-- An instance that has other holders loses one in both sessions. -/
theorem releaseInstance (short : s.Short id t)
    (shared : ∃ c, s.instances.get? id = some c ∧ 1 < c.holders)
    (shared' : ∃ c, t.instances.get? id = some c ∧ 1 < c.holders) :
    Session.Short id (s.releaseInstance id) (t.releaseInstance id) := by
  have instance? : ∀ (u : Session) (c : Counted Instance), u.instances.get? id = some c →
      1 < c.holders → ∀ j, (u.releaseInstance id).instance? j = u.instance? j := by
    intro u c there several j
    rw [Host.releaseInstance_of_shared u there several]
    simp only [Host.instance?, Pool.get?_modify]
    split
    · rw [Option.map_map]
      rfl
    · rfl
  -- With other holders left, the same number is taken off in both sessions and nothing is freed.
  obtain ⟨c, there, several⟩ := shared
  obtain ⟨c', there', several'⟩ := shared'
  have instances : ∀ j, (t.releaseInstance id).instance? j = (s.releaseInstance id).instance? j := by
    intro j
    rw [instance? s c there several, instance? t c' there' several', short.instances]
  rw [Host.releaseInstance_of_shared s there several,
    Host.releaseInstance_of_shared t there' several'] at instances ⊢
  exact { short with instances }

/-- A call ends with and without the blocks. -/
theorem endCall (short : s.Short id t) (environment : Nat) (userData : Option UserData)
    (store : Store) (shared : ∃ c, s.instances.get? id = some c ∧ 1 < c.holders)
    (shared' : ∃ c, t.instances.get? id = some c ∧ 1 < c.holders) :
    Session.Short id (s.endCall id environment userData store)
      (t.endCall id environment userData store) := by
  have back : ∀ u : Session, (∃ c, u.instances.get? id = some c ∧ 1 < c.holders) →
      ∃ c, ((u.modifyEnvironment environment fun e => { e with
        userData := userData.getD e.userData }).modifyInstance id fun i => { i with
          store := some store }).instances.get? id = some c ∧ 1 < c.holders := by
    rintro u ⟨c, there, several⟩
    refine ⟨{ c with value := { c.value with store := some store } }, ?_, several⟩
    show (u.instances.modify id _).get? id = _
    rw [Pool.get?_modify, if_pos rfl, there]
    rfl
  exact ((short.modifyEnvironment _ _).modifyInstance _ _).releaseInstance (back s shared)
    (back t shared')

end Session.Short

/-! ### Flights with and without hooks -/

section

variable [HookRule] {s : Session} {environment : Nat} {name : String} {args : List HostValue}
  {results : List HostType}

omit [HookRule] in
/-- What is heard of hooks during a call is that their steps are turned away. -/
def Entry.Hears (entry : Entry s environment name args results) (t : Session) : Prop :=
  ∃ answers, t.app.heard = s.app.heard ++ answers ∧ ∀ heard ∈ answers,
    ∃ hook, s.app.hooks.get? entry.callee.caller.commons = some hook ∧
      List.Forall₂ Step.TurnedAway hook heard

/-- Two flights of one call, of which only the second one runs hooks, and these are turned away. -/
structure Entry.Tracks (entry : Entry s environment name args results) (g : Pending)
    (x y : Flight Slots) : Prop where
  lead : Leads (fun _ => True) ⟨s, g⟩
    (x.config g entry.callee.caller.inst entry.callee.caller.commons true)
  lead' : Leads (fun _ => True) ⟨s, g⟩
    (y.config g entry.callee.caller.inst entry.callee.caller.commons true)
  store : y.store = x.store
  short : Session.Short entry.callee.caller.inst x.host y.host
  bound : ∃ e, x.host.environments.get? environment = some e ∧ e.inst = entry.callee.caller.inst
  hooks : y.host.app.hooks = s.app.hooks
  aims : ∀ hook, s.app.hooks.get? entry.callee.caller.commons = some hook →
    ∀ st ∈ hook, st.Aims y.host entry.callee.caller.inst
  heard : entry.Hears y.host

variable (any : ∀ hook, HookRule.admits hook) {g : Pending}
  (entry : Entry s environment name args results)
include any

omit any in
/-- Whatever a call does without hooks, it makes nothing but changes. -/
theorem working_emit (allowed : Effect → Prop) (c : Caller) (g : Pending) :
    Working Host.emit c fun x y : Flight Slots => Leads allowed (x.config g c.inst c.commons true)
      (y.config g c.inst c.commons true) :=
  working_leads traced_emit c g true

/-- Whatever is printed to an output, its hook is turned away. -/
theorem Entry.Tracks.print [Engine] {x y : Flight Slots} (ha : Config.Orderly ⟨s, g⟩)
    (rel : entry.Tracks g x y) (bytes : Bytes) :
    entry.Tracks g { x with host := x.host.emit entry.callee.caller.commons bytes }
      { y with host := hookedPrinter entry.callee.caller.commons bytes y.host } := by
  have held : (g.lend entry.callee.caller.inst ⟨y.store, entry.callee.caller.commons, true⟩).held
      entry.callee.caller.inst = some ⟨y.store, entry.callee.caller.commons, true⟩ := by simp
  have traced : Traced (fun _ => True) (Host.emit : Printer Slots) := traced_emit
  obtain ⟨short, answers, heard, turned⟩ := short_hookedPrinter (rel.lead'.orderly ha) held rfl any
    bytes (fun hook hooked => rel.aims hook (rel.hooks ▸ hooked))
  -- What the hooks answer to this print comes after what they have answered so far.
  obtain ⟨before, heard', turned'⟩ := rel.heard
  exact
    { lead := rel.lead.trans (traced _ _ _ _)
      lead' := rel.lead'.trans (Session.traced_of_any any _ _ _ _)
      store := rel.store
      short := (rel.short.emit _ _).trans short
      bound := rel.bound
      hooks := short.hooks.trans rel.hooks
      aims := fun hook hooked st member =>
        short.aims (show st.Aims (y.host.emit _ bytes) _ from rel.aims hook hooked st member)
      heard := by
        refine ⟨before ++ answers, by rw [heard, heard', List.append_assoc], fun l member => ?_⟩
        rcases List.mem_append.1 member with member | member
        · exact turned' l member
        · rw [← rel.hooks]
          exact turned l member }

/-- What both flights do at a time keeps them on one track. -/
theorem Entry.lockstep [Engine] (ha : Config.Orderly ⟨s, g⟩) :
    Lockstep Host.emit hookedPrinter entry.callee.caller (entry.Tracks g) fun _ => False := by
  have quiet := working_emit (fun _ => True) entry.callee.caller g
  have loud := working_leads (Session.traced_of_any any) entry.callee.caller g true
  -- What both flights do is what each may do alone, so both stay on their way from the same
  -- beginning.
  constructor
  case lost => exact working_never hookedPrinter entry.callee.caller
  case like =>
    intro x y rel
    rw [rel.store]
    exact ⟨rfl, rfl, rfl, rfl⟩
  case charged =>
    intro x y rel
    rw [rel.short.instances]
  case store =>
    intro x y s' t' rel like guest heap active active'
    obtain ⟨guest', heap', latch', -⟩ := like
    have same : t' = s' := by
      have active : t'.active = s'.active := by rw [active', active, rel.store]
      cases s'
      cases t'
      simp_all
    subst same
    exact { rel with
      lead := rel.lead.trans (quiet.store x t' guest heap active)
      lead' := rel.lead'.trans (loud.store y t' (rel.store ▸ guest) (rel.store ▸ heap) active')
      store := rfl }
  case mark =>
    intro x y f event rel
    refine { rel with
      lead := rel.lead.trans (quiet.mark x f event)
      lead' := rel.lead'.trans (loud.mark y f event)
      store := ?_ }
    show (y.mark f).store = (x.mark f).store
    rw [Flight.mark, Flight.mark, rel.store]
  case print => exact fun bytes rel => .inr (rel.print any entry ha bytes)
  case clock =>
    intro x y rel
    obtain ⟨same, short⟩ := rel.short.readClock entry.callee.caller.commons
    refine ⟨same, ?_⟩
    have lead := rel.lead.trans (quiet.clock x)
    have lead' := rel.lead'.trans (loud.clock y)
    obtain ⟨p, hx⟩ := x.host.readClock_eq entry.callee.caller.commons
    obtain ⟨q, hy⟩ := y.host.readClock_eq entry.callee.caller.commons
    rw [hx] at lead short ⊢
    rw [hy] at lead' short ⊢
    exact ⟨lead, lead', rel.store, short, rel.bound, rel.hooks, rel.aims, rel.heard⟩

/-- A request for memory comes to the same in both flights. -/
theorem Entry.Tracks.growth {x y : Flight Slots} (rel : entry.Tracks g x y) (memory pages : Nat) :
    AlikeAt (entry.Tracks g) (fun _ => False) (FlightM.growMemory entry.callee.caller memory pages)
      (FlightM.growMemory entry.callee.caller memory pages) x y := by
  have same : y.growth? entry.callee.caller memory pages =
      x.growth? entry.callee.caller memory pages := by
    unfold Flight.growth? Host.commons?
    rw [rel.store, rel.short.instances, rel.short.commons]
  -- The growth depends on the store, the instance and its budget, which hooks leave alone.
  refine alikeAt_growMemory rel (by rw [same]) fun a b hx hy => ?_
  cases hx.symm.trans (same.symm.trans hy)
  have quiet := working_emit (fun _ => True) entry.callee.caller g
  have loud := working_leads (Session.traced_of_any any) entry.callee.caller g true
  have grown : ∀ u : Flight Slots, u.growth? entry.callee.caller memory pages = some a →
      u.growMemory? entry.callee.caller memory pages = some (a.before, u.grow entry.callee.caller a) := by
    intro u hu
    rw [Flight.growMemory?_eq_map, hu]
    rfl
  exact
    { lead := rel.lead.trans (quiet.grow _ _ _ _ _ (grown x hx))
      lead' := rel.lead'.trans (loud.grow _ _ _ _ _ (grown y hy))
      store := by
        show ({ y.store with guest := a.guest } : Store) = { x.store with guest := a.guest }
        rw [rel.store]
      short := (rel.short.modifyInstance _ fun i => { i with limiter := a.limiter }).modifyBudget _
        fun _ => a.budget
      bound := rel.bound
      hooks := rel.hooks
      aims := rel.aims
      heard := rel.heard }

omit any in
/-- A call begins on both tracks at once. -/
theorem Entry.tracks_flight (aims : ∀ hook,
      s.app.hooks.get? entry.callee.caller.commons = some hook →
        ∀ st ∈ hook, st.Aims s entry.callee.caller.inst) :
    entry.Tracks g entry.flight entry.flight := by
  have begun : Leads (fun _ => True) ⟨s, g⟩ (entry.flight.config g entry.callee.caller.inst
      entry.callee.caller.commons true) := entry.leads_flight trivial trivial
  have environments : entry.flight.host.environments =
      s.environments.modify environment fun e => { e with userData := .empty } := rfl
  refine ⟨begun, begun, rfl, .refl _, ⟨{ entry.env with userData := .empty }, ?_,
    entry.caller_inst.symm⟩, rfl, fun hook hooked st member => ?_, [], by simp; rfl, by simp⟩
  · rw [environments, Pool.get?_modify, if_pos rfl, entry.bound]
    rfl
  -- The aim of a hook is a name; the call changes no name, and no environment but its own.
  · obtain ⟨slot, target, belongs⟩ := aims hook hooked st member
    refine ⟨slot, target, fun j named => ?_⟩
    have before := belongs j named
    obtain ⟨kind, called⟩ := slot
    cases kind with
    | environment =>
      intro e there
      rw [environments, Pool.get?_modify] at there
      split at there
      · obtain ⟨e', there', rfl⟩ := Option.map_eq_some_iff.1 there
        exact before e' there'
      · exact before e there
    | _ => exact before

/-- **Calls.** A call whose hook is turned away ends as if the hook had not been there. -/
theorem Entry.tracks_run [Engine] (ha : Config.Orderly ⟨s, g⟩) (aims : ∀ hook,
      s.app.hooks.get? entry.callee.caller.commons = some hook →
        ∀ st ∈ hook, st.Aims s entry.callee.caller.inst) :
    (entry.run Host.emit).1 = (entry.run hookedPrinter).1 ∧
      entry.Tracks g (entry.run Host.emit).2 (entry.run hookedPrinter).2 :=
  (alikeAt_enter (entry.lockstep any ha) (entry.tracks_flight aims)
    fun memory pages _ _ rel _ _ => rel.growth any entry memory pages).of_never

/-- **Calls.** A call whose hook is turned away leaves the same results and the same session as if the
hook had not been there, but for blocks that were dropped. -/
theorem Entry.call_unseen [Engine] {v : Invoker} (entry : Entry s v.environment name args results)
    (ha : Config.Orderly ⟨s, g⟩) (aims : ∀ hook,
      s.app.hooks.get? entry.callee.caller.commons = some hook →
        ∀ st ∈ hook, st.Aims s entry.env.inst) :
    (v.call hookedPrinter name args results s).1 = (v.call Host.emit name args results s).1 ∧
      (v.call hookedPrinter name args results s).2.1 = (v.call Host.emit name args results s).2.1 ∧
        Session.Short entry.env.inst (v.call Host.emit name args results s).2.2
          (v.call hookedPrinter name args results s).2.2 ∧
        entry.Hears (v.call hookedPrinter name args results s).2.2 := by
  rw [← entry.caller_inst] at aims ⊢
  obtain ⟨same, rel⟩ := entry.tracks_run any ha aims
  obtain ⟨result, invoker, store, quiet, loud⟩ := entry.call_congr same.symm rel.store
  refine ⟨result, invoker, ?_⟩
  rw [quiet, loud]
  generalize entry.run Host.emit = x at rel
  generalize entry.run hookedPrinter = y at rel
  obtain ⟨e, bound, own⟩ := rel.bound
  -- The environment of the call holds the instance, too.
  have shared : ∀ u : Flight Slots, Leads (fun _ => True) ⟨s, g⟩ (u.config g
      entry.callee.caller.inst entry.callee.caller.commons true) →
      u.host.environments.get? v.environment = some e →
        ∃ c, u.host.instances.get? entry.callee.caller.inst = some c ∧ 1 < c.holders := by
    intro u lead bound
    have held : (g.lend entry.callee.caller.inst ⟨u.store, entry.callee.caller.commons, true⟩).held
        entry.callee.caller.inst = some ⟨u.store, entry.callee.caller.commons, true⟩ := by simp
    exact (lead.orderly ha).sound.shared_of_held held (own ▸ shared_of_environment bound)
  rw [Entry.landed, Entry.landed, rel.store]
  refine ⟨rel.short.endCall _ _ _ (shared x.2 rel.lead bound)
    (shared y.2 rel.lead' (rel.short.environments ▸ bound)), ?_⟩
  unfold Entry.Hears
  rw [Host.app_endCall]
  exact rel.heard

end

/-! ### Blocks that are dropped meanwhile -/

section

variable [HookRule]

/-- Printing that gives no block an owner whose instance is in a call. -/
def Withholds (printer : Printer Slots) : Prop :=
  ∀ {t : Session} {g : Pending} {id : Nat} {loan : Loan}, Config.Orderly ⟨t, g⟩ →
    g.held id = some loan → loan.ready = true → ∀ commons bytes,
      Leads (KeepsNone id) ⟨t, g⟩ ⟨printer commons bytes t, g⟩

/-- Printing without a hook gives no block an owner. -/
theorem withholds_emit : Withholds Host.emit :=
  fun _ _ _ _ _ => traced_emit _ _ _ _

/-- Nor do hooks, as long as the instance is in a call. -/
theorem withholds_hookedPrinter [Engine] (any : ∀ hook, HookRule.admits hook) :
    Withholds hookedPrinter :=
  fun ha held ready => leads_hookedPrinter_of_held ha held ready any

variable (any : ∀ hook, HookRule.admits hook) {s : Session} {g : Pending} {v : Invoker}
  {name : String} {args : List HostValue} {results : List HostType}
  (entry : Entry s v.environment name args results)

/-- **Blocks.** While a call is in flight on an instance, no block of the instance gets an owner. -/
theorem Entry.leads_call_of_held [Engine] {printer : Printer Slots} (withholds : Withholds printer)
    (ha : Config.Orderly ⟨s, g⟩) :
    Leads (KeepsNone entry.env.inst) ⟨s, g⟩ ⟨(v.call printer name args results s).2.2, g⟩ := by
  obtain ⟨i, there, idle, -, -⟩ := Host.callee_eq_ok entry.found
  refine entry.call_induct (P := fun c => Leads (KeepsNone entry.env.inst) ⟨s, g⟩ c)
    (ha.sound.free there idle) nofun nofun (fun later before => before.trans later) ?_ .refl
  intro t loan commons bytes ready lead
  exact lead.trans (withholds (lead.orderly ha) (by simp) ready commons bytes)

include any in
/-- A block that is dropped while a call is in flight on its instance is forfeited. -/
theorem Entry.forfeits [Engine] (ha : Config.Orderly ⟨s, g⟩) {j : Nat} {b : Block} {t : Session}
    (present : s.blocks.get? j = some b) (own : b.inst = entry.env.inst)
    (gone : (v.call hookedPrinter name args results s).2.2.blocks.get? j = none)
    (passes : Session.Passes hookedPrinter (v.call hookedPrinter name args results s).2.2 t) :
    t.Forfeits b := by
  obtain ⟨i, there, idle, -, -⟩ := Host.callee_eq_ok entry.found
  have lead := entry.leads_call_of_held (withholds_hookedPrinter any) ha
  obtain ⟨store, heap, back⟩ := entry.heap_call hookedPrinter
  generalize (v.call hookedPrinter name args results s).2.2 = u at gone passes lead back
  rw [← own] at there lead back
  have reserved := ha.reserves lead (fun keeps => keeps rfl) present gone there idle back heap
  have old : b.inst < u.instances.next := by
    obtain ⟨c, hc, -⟩ := Option.map_eq_some_iff.1 there
    exact Nat.lt_of_lt_of_le (Pool.lt_next_of_get?_eq_some hc) (lead.since ha.sound).instances.next
  obtain ⟨g', -, -, lead'⟩ := passes.leads any (g := g) (Session.traced_of_any any)
  have orderly := lead.orderly ha
  exact (lead'.orderly orderly).forfeits (lead'.reserves orderly old reserved)

end

/-! ### One call at a time -/

/-- While a call is in flight on an instance, it has the instance for itself. -/
structure Session.Exclusive [Engine] (s : Session) : Prop where
  /-- An operation on the instance that needs its store ends with what it finds wrong before it asks
  for the store, or else because the instance is busy, and changes nothing. -/
  busy : ∀ (v : Invoker) name args results (entry : Entry s v.environment name args results) w α x
    wrong, entry.Meanwhile w → Needs w entry.env.inst α x wrong →
      exec x w = (.error (wrong.getD .busy), w)
  /-- So does a further call, through whatever environment of the instance. -/
  calls : ∀ (v : Invoker) name args results (entry : Entry s v.environment name args results) w
    printer (v' : Invoker) e name' args' results', entry.Meanwhile w →
      w.environments.get? v'.environment = some e → e.inst = entry.env.inst →
        v'.call printer name' args' results' w = (.error .busy, v'.ready, w)
  /-- A block of the instance that is dropped is forgotten: none of its values is released, and it is
  not freed. -/
  drops : ∀ (v : Invoker) name args results (entry : Entry s v.environment name args results) w j b,
    entry.Meanwhile w → w.blocks.get? j = some b → b.inst = entry.env.inst →
      w.dropBlock j = { w with
        blocks := w.blocks.erase j
        instances := w.instances.modify entry.env.inst fun c => { c with holders := c.holders - 1 } }
  /-- Its bytes stay live and are never part of another block again, as long as the instance is
  there. -/
  lost : ∀ (v : Invoker) name args results (entry : Entry s v.environment name args results) j b t,
    s.blocks.get? j = some b → b.inst = entry.env.inst →
      (v.call hookedPrinter name args results s).2.2.blocks.get? j = none →
        Session.Passes hookedPrinter (v.call hookedPrinter name args results s).2.2 t → t.Forfeits b
  /-- A step that needs the store is turned away, and nothing happens but that a block may be
  forgotten. -/
  steps : ∀ (v : Invoker) name args results (entry : Entry s v.environment name args results) w
    printer st, entry.Meanwhile w → st.Aims w entry.env.inst →
      st.TurnedAway (stepWith printer st w).1 ∧ w.Short entry.env.inst (stepWith printer st w).2
  /-- A call whose hook is made of such steps ends with the same results, and leaves the same stores
  and user data behind, as if there were no hook; and the hook is turned away from all of them. -/
  unseen : ∀ (v : Invoker) name args results (entry : Entry s v.environment name args results),
    (∀ hook, s.app.hooks.get? entry.callee.caller.commons = some hook →
      ∀ st ∈ hook, st.Aims s entry.env.inst) →
        (v.call hookedPrinter name args results s).1 = (v.call Host.emit name args results s).1 ∧
        (v.call hookedPrinter name args results s).2.1 = (v.call Host.emit name args results s).2.1 ∧
        Session.Short entry.env.inst (v.call Host.emit name args results s).2.2
          (v.call hookedPrinter name args results s).2.2 ∧
        entry.Hears (v.call hookedPrinter name args results s).2.2

namespace Session

/-- In an orderly session, whatever asks for a store that is in flight is turned away. -/
theorem exclusive_of_orderly [Engine] [HookRule] (any : ∀ hook, HookRule.admits hook) {s : Session}
    {g : Pending} (ha : Config.Orderly ⟨s, g⟩) : s.Exclusive where
  -- All parts rest on one fact: the store is away from the host as long as the call is in flight.
  busy := by
    intro v name args results entry w α x wrong meanwhile needs
    obtain ⟨g', loan, held, ready, lead⟩ := entry.leads_meanwhile any (g := g) meanwhile
    exact needs.exec ((lead.orderly ha).locked held ready)
  calls := by
    intro v name args results entry w printer v' e name' args' results' meanwhile bound own
    obtain ⟨g', loan, held, ready, lead⟩ := entry.leads_meanwhile any (g := g) meanwhile
    exact call_of_locked ((lead.orderly ha).locked held ready) printer bound own name' args' results'
  drops := by
    intro v name args results entry w j b meanwhile present own
    obtain ⟨g', loan, held, ready, lead⟩ := entry.leads_meanwhile any (g := g) meanwhile
    exact (lead.orderly ha).dropBlock held ready present own
  lost _ _ _ _ entry _ _ _ present own gone passes :=
    entry.forfeits any ha present own gone passes
  steps := by
    intro v name args results entry w printer st meanwhile aims
    obtain ⟨g', loan, held, ready, lead⟩ := entry.leads_meanwhile any (g := g) meanwhile
    obtain ⟨turned, short, -⟩ := turnedAway_stepWith (lead.orderly ha) held ready printer aims
    exact ⟨turned, short⟩
  unseen _ _ _ _ entry aims := entry.call_unseen any ha aims

/-- The empty session is orderly. -/
theorem orderly_empty [HookRule] (since : HookRule.since = 0) : Config.Orderly ⟨empty, .none⟩ :=
  ⟨sound_empty since, fun _ _ h => (nomatch h), fun _ _ h => (nomatch h), fun _ _ => rfl⟩

/-- **One call at a time.** Between any two operations of a session that starts with nothing, whatever
hooks and guests have done meanwhile: a call that is made has its instance for itself. -/
theorem exclusive_of_passes [Engine] {s : Session} (passes : Passes hookedPrinter empty s) :
    s.Exclusive := by
  let rule : HookRule := .any
  have any : ∀ hook, HookRule.admits hook := fun _ => trivial
  obtain ⟨g, -, -, lead⟩ := passes.leads any (g := .none) (traced_of_any any)
  exact exclusive_of_orderly any (lead.orderly (orderly_empty rfl))

/-- What a session passes through when it runs steps. -/
theorem passes_runWith [Engine] (printer : Printer Slots) {s t : Session}
    (before : Passes printer s t)
    (steps : List Step) : Passes printer s (runWith printer steps t).2 := by
  induction steps generalizing t with
  | nil => exact before
  | cons st steps ih => exact ih (before.step st)

/-- A program whose function `go` starts a benchmark, and so prints. -/
def benchmarking : Bytes :=
  [0x00, 0x61, 0x73, 0x6d, 0x01, 0x00, 0x00, 0x00,
    -- one type: nothing in, nothing out
    0x01, 0x04, 0x01, 0x60, 0x00, 0x00,
    -- one function of that type is imported
    0x02, 0x1f, 0x01, 0x03] ++ Bytes.ofText nativeSpace ++
    [0x17] ++ Bytes.ofText "sandbox_start_benchmark" ++ [0x00, 0x00,
    -- another one is exported as `go`
    0x03, 0x02, 0x01, 0x00,
    0x07, 0x06, 0x01, 0x02, 0x67, 0x6f, 0x00, 0x01,
    -- its code
    0x0a, 0x06, 0x01, 0x04, 0x00, 0x10, 0x00, 0x0b]

/-- An environment of an instance whose guest prints, and a hook that asks the instance for the size
of its memory. -/
def hooked : List Step :=
  [.createRuntime "rt" {} [.all] [.ok 5] none [.inst "i" .memorySize],
    .runtime "rt" (.load "m" benchmarking),
    .module "m" (.instantiate "i" 1 0),
    .inst "i" (.createEnvironment "e" 1)]

theorem exclusive_of_hooked : Passes hookedPrinter empty (runWith hookedPrinter hooked empty).2 ∧
    (runWith hookedPrinter hooked empty).2.Exclusive :=
  ⟨passes_runWith _ .here hooked, exclusive_of_passes (passes_runWith _ .here hooked)⟩

/-- The hook that is run during the call is told that the instance is busy. -/
example : ((stepWith hookedPrinter (.environment "e" (.call ⟨"go", [], []⟩))
    (runWith hookedPrinter hooked empty).2).2.app.heard.map fun answers => answers.map fun
      | .result (.error .busy) => true
      | _ => false) = [[true]] := by
  decide +kernel

end Session

end Embedder
