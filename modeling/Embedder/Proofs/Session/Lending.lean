import Embedder.Proofs.Host.Loan
import Embedder.Proofs.Session.Steps

namespace Embedder

open Session (CallRequest Slot Slots Step callEach callWith empty hookedPrinter runWith stepWith)

/-!
# User data over a session

Whatever a session is asked, an environment owns its user data, except while a call through it has
it on loan. The callbacks of the call see this user data and no other, and however the call ends, the
environment has it again, with nothing changed but what callbacks have marked.

* `Step.Spares`, `Session.Sparing`: hooks that leave the user data of an environment alone.
* `Session.Lending`, `run_lends_user_data`: the loans of user data, and that they are always kept so.
-/

variable [Engine]

namespace Session

/-! ### What leaves user data alone -/

/-- A step that neither lends nor replaces the user data of an environment, whatever it finds, and
brings along only hooks that do so, too. -/
inductive Step.Spares (environment : Nat) : Step → Prop
  | intro {st : Step} (lends : ∀ s : Session, ¬ st.Lends s environment)
      (hooks : ∀ hook, st.Installs hook → ∀ st' ∈ hook, Spares environment st') :
      Spares environment st

/-- The calls that a step makes through an environment. -/
def EnvironmentStep.IsCall : EnvironmentStep → Prop
  | .call _ | .callDirectly _ | .callAll _ => True
  | _ => False

end Session

/-- No hook of a session lends or replaces the user data of an environment. -/
def Session.Sparing (s : Session) (environment : Nat) : Prop :=
  ∀ commons hook, s.app.hooks.get? commons = some hook → ∀ st ∈ hook, Step.Spares environment st

/-- The environment of a name is there, with user data that callbacks may have marked. -/
def Session.Owns (s : Session) (name : String) (environment : Nat) (u : UserData) : Prop :=
  s.app.names.get? ⟨.environment, name⟩ = some environment ∧
    ∃ e, s.environments.get? environment = some e ∧ u.Marked (fun _ _ => True) e.userData

/-! ### The loans -/

/-- The user data of a session is on loan as calls need it, and otherwise where it belongs. -/
structure Session.Lending (s : Session) : Prop where
  /-- Between calls, nothing is on loan. -/
  idle : ∀ id i store, s.instance? id = some i → i.store = some store → store.active = none
  /-- A callback that is called finds the user data of the calling environment on loan, changed by
  nothing but the marks of callbacks that are called during the same call. -/
  sees : ∀ (v : Invoker) name args results (entry : Entry s v.environment name args results)
    n given u, entry.Asks hookedPrinter n given u →
      ∃ w, u.store.active = some ⟨v.environment, w⟩ ∧
        entry.env.userData.Marked (entry.Calls hookedPrinter) w
  /-- Meanwhile the environment itself has none, unless a hook gives it some. -/
  away : ∀ (v : Invoker) name args results (entry : Entry s v.environment name args results)
    n given u e, s.Sparing v.environment → entry.Asks hookedPrinter n given u →
      u.host.environments.get? v.environment = some e → e.userData = .empty
  /-- However the guest ends, the environment has its user data again, with these marks and the same
  event. -/
  returned : ∀ (v : Invoker) name args results (entry : Entry s v.environment name args results) e,
    (v.call hookedPrinter name args results s).2.2.environments.get? v.environment = some e →
      entry.env.userData.Marked (entry.Calls hookedPrinter) e.userData ∧
        e.userData.eventId = entry.env.userData.eventId ∧
        e.userData.eventPayload = entry.env.userData.eventPayload
  /-- A guest that calls no callback that makes marks leaves the user data as it was. -/
  unmarked : ∀ (v : Invoker) name args results (entry : Entry s v.environment name args results) e,
    (∀ n given f, entry.Calls hookedPrinter n given → ¬ n.Marks given f) →
      (v.call hookedPrinter name args results s).2.2.environments.get? v.environment = some e →
        e.userData = entry.env.userData
  /-- A call that enters no guest changes nothing at all. -/
  refused : ∀ (v : Invoker) name args results,
    ¬ Nonempty (Entry s v.environment name args results) →
      (v.call hookedPrinter name args results s).2.2 = s
  /-- A call leaves the user data of every other environment alone, unless a hook does not. -/
  others : ∀ (v : Invoker) name args results other e e', other ≠ v.environment →
    s.Sparing other → s.environments.get? other = some e →
      (v.call hookedPrinter name args results s).2.2.environments.get? other = some e' →
        e'.userData = e.userData
  /-- After the calls of a step, the name still stands for the environment, which owns its user
  data, whatever hooks have done meanwhile. -/
  kept : ∀ name (c : Session.EnvironmentStep) id e, c.IsCall →
    s.app.names.get? ⟨.environment, name⟩ = some id → s.environments.get? id = some e →
      (stepWith hookedPrinter (.environment name c) s).2.Owns name id e.userData
  /-- Every other step leaves user data alone, unless it asks for something else. -/
  spared : ∀ st id e e', ¬ st.Lends s id → s.Sparing id →
    (∀ hook, st.Installs hook → ∀ st' ∈ hook, Step.Spares id st') →
      s.environments.get? id = some e →
        (stepWith hookedPrinter st s).2.environments.get? id = some e' → e'.userData = e.userData

namespace Session

/-! ### Hooks that leave user data alone -/

/-- What leaves the user data of an environment alone. -/
def LeavesData (environment : Nat) (e : Effect) : Prop :=
  e ≠ .lends environment

/-- The rule that hooks leave the user data of an environment alone. -/
def HookRule.IsSparing [HookRule] (environment : Nat) : Prop :=
  ∀ hook, HookRule.admits hook ↔ ∀ st ∈ hook, Step.Spares environment st

section

variable [HookRule] {s : Session} {id : Nat}

theorem traced_of_sparing (sparing : HookRule.IsSparing id) :
    Traced (LeavesData id) hookedPrinter := by
  refine traced_hookedPrinter nofun fun hook admitted st member => ?_
  obtain ⟨lends, hooks⟩ := (sparing hook).1 admitted st member
  refine ⟨fun s _ => ⟨fun _ _ => nofun, fun j lent eq => ?_, fun _ _ => nofun, fun _ _ => nofun⟩,
    fun hook installed => ?_⟩
  · cases eq
    exact lends s lent
  · exact (sparing hook).2 (hooks hook installed)

omit [Engine] in
/-- Where no hook touches the user data of an environment, the session keeps to the rule that none
does. -/
theorem sound_of_sparing (sound : Config.Sound ⟨s, .none⟩) (sparing : s.Sparing id) :
    ∃ _ : HookRule, HookRule.IsSparing id ∧ Config.Sound (⟨s, .none⟩ : Config Slots) := by
  obtain ⟨-, counted, runtimes, modules, instances, present, single, custody⟩ := sound
  let rule : HookRule := ⟨0, fun hook => ∀ st ∈ hook, Step.Spares id st⟩
  exact ⟨rule, fun _ => Iff.rfl,
    ⟨⟨Nat.zero_le _, sparing⟩, counted, runtimes, modules, instances, present, single, custody⟩⟩

end

/-! ### Calls of a step -/

section

variable [HookRule] {s : Session} {id : Nat} {u : UserData}

/-- While an environment is in hand, its user data is where it belongs. -/
structure InHand (s : Session) (id : Nat) (u : UserData) : Prop where
  sound : Config.Sound ⟨s, Pending.none.pin .environment id⟩
  owned : ∃ e, s.environments.get? id = some e ∧ u.Marked (fun _ _ => True) e.userData

omit [Engine] in
/-- A name that an environment is given stands for it from then on. -/
theorem InHand.put (hand : InHand s id u) (name : String) :
    (s.put ⟨.environment, name⟩ id).Owns name id u := by
  obtain ⟨e, present, marked⟩ := hand.owned
  have lead : Leads (fun e => e = .renames) ⟨s, Pending.none.pin .environment id⟩
      ⟨s.put ⟨.environment, name⟩ id, .none⟩ := leads_put ⟨.environment, name⟩ id rfl
  have named : (s.put ⟨.environment, name⟩ id).app.names.get? ⟨.environment, name⟩ = some id := by
    rw [Session.app_put, Table.get?_set_self]
  obtain ⟨e', there⟩ := Pool.get?_of_owned_pos
    (holders_pos_of_named (lead.sound hand.sound) named (by simp))
  refine ⟨named, e', there, ?_⟩
  rw [lead.userData hand.sound nofun present there]
  exact marked

variable (any : ∀ hook, HookRule.admits hook)
include any

/-- A call through an environment in hand gives its user data back. -/
theorem InHand.call (hand : InHand s id u) {v : Invoker} (own : v.environment = id) (name : String)
    (args : List HostValue) (results : List HostType) :
    InHand (v.call hookedPrinter name args results s).2.2 id u := by
  have lead : Leads (fun _ => True) ⟨s, Pending.none.pin .environment id⟩
      ⟨(v.call hookedPrinter name args results s).2.2, Pending.none.pin .environment id⟩ :=
    leads_call (traced_of_any any) v (fun _ _ => trivial) trivial name args results
  have sound := lead.sound hand.sound
  rcases v.exists_entry_or_same hookedPrinter name args results s with ⟨⟨entry⟩⟩ | same
  · obtain ⟨e, present, marked⟩ := hand.owned
    obtain ⟨w, marked', after⟩ := entry.userData_call hookedPrinter
    subst own
    cases present.symm.trans entry.bound
    obtain ⟨e', there⟩ := Pool.get?_of_owned_pos (sound.holders_pos .environment (by simp))
    refine ⟨sound, e', there, marked.trans ?_⟩
    rw [after, Pool.get?_modify, if_pos rfl] at there
    obtain ⟨_, -, rfl⟩ := Option.map_eq_some_iff.1 there
    exact marked'.mono fun _ _ _ => trivial
  · rw [same]
    exact hand

theorem InHand.callEach (hand : InHand s id u) {v : Invoker} (own : v.environment = id)
    (requests : List (CallRequest × List HostValue)) :
    InHand ((callEach hookedPrinter v requests).run s).2 id u := by
  induction requests generalizing v s with
  | nil => exact hand
  | cons first rest ih =>
    obtain ⟨request, args⟩ := first
    have same := environment_callWith hookedPrinter v request args s
    exact ih (hand.call any own request.function args request.results) (same.trans own)

omit [Engine] any in
/-- What is done with an environment while it has no name leaves it its user data. -/
theorem owns_away {α : Type} {name : String} {act : Nat → SessionM α}
    (named : s.app.names.get? ⟨.environment, name⟩ = some id)
    (acts : InHand ((act id).run.run (s.modifyNames (·.erase ⟨.environment, name⟩))).2 id u) :
    Yields (SessionM.away .environment name act) s (fun _ t => t.Owns name id u)
      fun t => t.Owns name id u := by
  simp only [SessionM.away, yields_bind_iff, yields_find, yields_modify, yields_lift, yields_keep,
    yields_ofOption]
  refine ⟨fun id' named' => ?_, fun missing => absurd (named.symm.trans missing) (Option.some_ne_none id)⟩
  cases named.symm.trans named'
  exact ⟨fun _ _ => acts.put name, fun _ => acts.put name⟩

/-- The calls of a step leave the environment of its name with its user data. -/
theorem owns_stepWith (sound : Config.Sound ⟨s, .none⟩) {name : String} {c : EnvironmentStep}
    {e : Environment} (call : c.IsCall)
    (named : s.app.names.get? ⟨.environment, name⟩ = some id)
    (present : s.environments.get? id = some e) :
    (stepWith hookedPrinter (.environment name c) s).2.Owns name id e.userData := by
  have owns : s.Owns name id e.userData := ⟨named, e, present, .same⟩
  -- Without its name, the environment is in hand.
  have erased : Leads (fun _ => True) ⟨s, .none⟩
      ⟨s.modifyNames (·.erase ⟨.environment, name⟩), Pending.none.pin .environment id⟩ :=
    leads_erase named trivial
  have hand : InHand (s.modifyNames (·.erase ⟨.environment, name⟩)) id e.userData :=
    ⟨erased.sound sound, e, present, .same⟩
  rw [stepWith_snd]
  refine (yields_snd (P := fun t => t.Owns name id e.userData)).1 ?_
  show Yields (actOnEnvironment hookedPrinter name c) s (fun _ t => t.Owns name id e.userData)
    fun t => t.Owns name id e.userData
  cases c with
  | call request =>
    refine yields_bind ((yields_mapM _ yields_argumentValue).mono (fun _ _ h => h.1)
      fun _ same => same ▸ owns) ?_
    rintro args _ rfl
    exact owns_away named (hand.call any rfl request.function args request.results)
  | callDirectly request =>
    refine yields_bind ((yields_mapM _ yields_argumentValue).mono (fun _ _ h => h.1)
      fun _ same => same ▸ owns) ?_
    rintro args _ rfl
    refine owns_away named ?_
    have called := hand.call any (v := .ofEnvironment id) rfl request.function args request.results
    show InHand (exec (HostM.call _ _ _ _ _) _).2 _ _
    rw [exec_call]
    exact called
  | callAll requests =>
    refine yields_bind ((yields_mapM _ fun r => yields_mapM _ yields_argumentValue).mono
      (fun _ _ h => h.1) fun _ same => same ▸ owns) ?_
    rintro args _ rfl
    exact owns_away named (hand.callEach any rfl (requests.zip args))
  | userData => exact call.elim
  | setUserData => exact call.elim
  | editUserData => exact call.elim
  | owner => exact call.elim

end

/-! ### A session at any time -/

theorem lending_of_sound [HookRule] (any : ∀ hook, HookRule.admits hook) {s : Session}
    (sound : Config.Sound ⟨s, .none⟩)
    (idle : ∀ id x, Config.custody? ⟨s, .none⟩ id = some x → x.Idle) : s.Lending where
  idle := by
    intro id i store there free
    obtain ⟨c, hc, rfl⟩ := Option.map_eq_some_iff.1 there
    exact idle id _ (Config.custody?_of_get? hc) store free
  sees _ _ _ _ entry _ _ _ asks := entry.sees asks
  -- During a call, and through hooks that spare it, the environment has the empty user data that
  -- it was left with.
  away := by
    intro v name args results entry n given u e sparing asks there
    obtain ⟨rule, spares, sound⟩ := sound_of_sparing sound sparing
    have begun : Leads (fun _ => True) ⟨s, .none⟩ (entry.flight.config .none
        entry.callee.caller.inst entry.callee.caller.commons true) :=
      entry.leads_flight trivial trivial
    have lead := entry.leads_asks (g := .none) (traced_of_sparing spares) asks
    have lent : entry.flight.host.environments.get? v.environment =
        some { entry.env with userData := .empty } := by
      show (s.environments.modify v.environment _).get? v.environment = _
      rw [Pool.get?_modify, if_pos rfl, entry.bound]
      rfl
    exact lead.userData (begun.sound sound) (fun leaves => leaves rfl) lent there
  returned _ _ _ _ entry _ there := ⟨entry.marked_call there, (entry.marked_call there).event⟩
  unmarked _ _ _ _ entry _ none there := (entry.marked_call there).eq_of_unmarked none
  refused v name args results none :=
    (v.exists_entry_or_same hookedPrinter name args results s).resolve_left none
  others := by
    intro v name args results other e e' apart sparing before after
    obtain ⟨rule, spares, sound⟩ := sound_of_sparing sound sparing
    have lead : Leads (LeavesData other) ⟨s, .none⟩
        ⟨(v.call hookedPrinter name args results s).2.2, .none⟩ :=
      leads_call (traced_of_sparing spares) v (fun _ _ => nofun)
        (fun eq => apart (Effect.lends.inj eq).symm) name args results
    exact lead.userData sound (fun leaves => leaves rfl) before after
  kept _ _ _ _ call named present := owns_stepWith any sound call named present
  spared := by
    intro st id e e' keeps sparing brings before after
    obtain ⟨rule, spares, sound⟩ := sound_of_sparing sound sparing
    have lead : Leads (LeavesData id) ⟨s, .none⟩ ⟨(stepWith hookedPrinter st s).2, .none⟩ :=
      leads_stepWith (traced_of_sparing spares) nofun st s
        ⟨fun _ _ => nofun, fun j lent eq => keeps (Effect.lends.inj eq ▸ lent), fun _ _ => nofun,
          fun _ _ => nofun⟩
        fun hook installed => (spares hook).2 (brings hook installed)
    exact lead.userData sound (fun leaves => leaves rfl) before after

/-- **User data.** After any steps and then any calls of one invoker, whatever hooks and guests have
done meanwhile, user data is on loan as calls need it, and otherwise where it belongs. -/
theorem run_lends_user_data (steps : List Step) (v : Invoker)
    (requests : List (CallRequest × List HostValue)) :
    Lending ((Session.callEach hookedPrinter v requests).run
      (runWith hookedPrinter steps empty).2).2 := by
  let rule : HookRule := .any
  have any : ∀ hook, HookRule.admits hook := fun _ => trivial
  have start := sound_empty rfl
  have lead := (leads_run any steps).trans
    (leads_callEach (traced_of_any any) v (fun _ _ _ _ => trivial) trivial requests)
  have idle := lead.induct
    (P := fun c => ∀ id x, c.custody? id = some x → x.Idle) start
    (fun _ _ sound step h => step.idle sound h) fun _ _ there => nomatch there
  exact lending_of_sound any (lead.sound start) idle

end Session

end Embedder
