import Embedder.Proofs.Session.Twins

namespace Embedder

open Session (CallRequest EnvironmentStep InstanceStep BlockStep Kind Slot Slots Step Answer Payload
  act actOnBlock actOnEnvironment actOnInstance blockOf callEach empty environmentOf hookedPrinter
  replaceUserData runWith stepWith)

/-!
# Instances are isolated

Guests of one runtime can get at each other by the budget alone: as long as no budget refuses what is
asked of one instance, all that is asked of it is answered as if nothing had been asked of others.

* `Step.Granted`: what a step asks of the budget is granted.
* `stepWith_alike`: a step about an instance, in two sessions that have the instance in common.
* `Session.Reached`, `Session.Still`, `Session.Allots`: sessions to begin with.
* `runWith_isolated`: any steps, with and without those about other instances.
-/

variable {α : Type} {s t : Session} {b : Nat} {l : List Slot}

/-! ### What budgets grant -/

/-- The budget refuses nothing that a step asks for: an environment that it creates, or memory that
the code asks for during a call. -/
def Session.Step.Granted [Engine] (s : Session) : Step → Prop
  | .inst name (.createEnvironment _ stack) => ∀ id, s.app.names.get? ⟨.inst, name⟩ = some id →
    ¬ Exhausted (exec (HostM.createEnvironment id stack) s).1
  | .environment name e => ∀ requests id args, e.requests? = some requests →
    s.app.names.get? ⟨.environment, name⟩ = some id →
      ((argumentsOf requests).run.run s).1 = some args →
        GrantedEach (.ofEnvironment id) (requests.zip args)
          (s.modifyNames (·.erase ⟨.environment, name⟩))
  | _ => True

/-! ### Steps about one instance -/

section

variable (paired : Session.Paired b l s t)
include paired

/-- What is asked of an instance has the same answer wherever the instance is the same, as long as
the budgets grant what it needs. -/
theorem conforms_actOnInstance [Engine] (shares : s.Shares b t) (name : String) (i : InstanceStep)
    (about : (Step.inst name i).slots? = some l) (granted : (Step.inst name i).Granted s)
    (granted' : (Step.inst name i).Granted t) :
    Conforms b l (actOnInstance name i) (actOnInstance name i) s t := by
  -- A step that makes nothing is local to the instance; one that makes something gives it a
  -- number, which may differ.
  cases makes : i.makes with
  | false =>
    obtain ⟨slots, x, own, acts⟩ := actOnInstance_of_not_makes makes name
    cases slots.symm.trans about
    rw [acts]
    refine conforms_bind_of_looks paired.toTwins (paired.looks_inst (by simp)) ?_
    rintro _ _ ⟨⟨rfl, rfl⟩, -⟩
    exact paired.conforms_local (own _)
  | true =>
    cases i with
    | createEnvironment into stack =>
      cases about
      refine conforms_bind_of_looks paired.toTwins (paired.looks_inst (by simp)) ?_
      rintro _ _ ⟨⟨rfl, rfl⟩, named, named'⟩
      exact paired.conforms_create rfl (by simp) (makes_createEnvironment _ stack)
        (createEnvironment_alike shares (granted _ named) (granted' _ named'))
        (showsAlike_const _ _)
    | allocate into type value =>
      cases about
      refine conforms_bind_of_looks paired.toTwins (paired.looks_inst (by simp)) ?_
      rintro _ _ ⟨⟨rfl, rfl⟩, -⟩
      refine conforms_bind_of_looks paired.toTwins (looks_ofOption _) ?_
      rintro d _ ⟨rfl, -⟩
      exact paired.conforms_create rfl (by simp) (numbers_allocate type _).makes
        ((numbers_allocate type _).alike paired.inst) showsAlike_blockView
    | allocateArray into type count =>
      cases about
      refine conforms_bind_of_looks paired.toTwins (paired.looks_inst (by simp)) ?_
      rintro _ _ ⟨⟨rfl, rfl⟩, -⟩
      exact paired.conforms_create rfl (by simp) (numbers_allocateArray type count).makes
        ((numbers_allocateArray type count).alike paired.inst) showsAlike_blockView
    | _ => cases makes

/-- The block of a name is the same in both sessions. -/
theorem Session.Paired.looks_blockOf {name : String} (listed : ⟨.block, name⟩ ∈ l) :
    Looks (blockOf name) (blockOf name) s t fun block block' =>
      block' = block ∧ block.inst = b ∧ s.thing? ⟨.block, name⟩ = some (.block block) := by
  refine (sees_blockOf (paired.things _ listed)).looks.mono ?_ fun _ _ same => same
  rintro block block' _ _ ⟨rfl, rfl, same, found, -⟩
  have stood := (thing?_block name _).trans (congrArg (Option.map Thing.block) found)
  exact ⟨rfl, rfl, same, paired.homes _ listed _ stood, stood⟩

/-- What is asked of a block has the same answer wherever its instance is the same. -/
theorem conforms_actOnBlock (name : String) (step : BlockStep)
    (about : (Step.block name step).slots? = some l) :
    Conforms b l (actOnBlock name step) (actOnBlock name step) s t := by
  -- To move a block is to change names; all else is about the block and its instance.
  by_cases moves : ∃ into, step = .move into
  · obtain ⟨into, rfl⟩ := moves
    cases about
    refine conforms_bind_of_looks paired.toTwins (paired.looks_blockOf (by simp)) ?_
    rintro block _ -
    refine conforms_bind_of_looks paired.toTwins (paired.looks_find rfl (by simp)) ?_
    rintro i j ⟨named, named', x, there, there', home⟩
    have offers := offers_of_erase paired.tidy (m := ⟨.block, name⟩) rfl nofun named (.refl _)
      ⟨x, there, home⟩
    have offers' := offers_of_erase paired.tidy' (m := ⟨.block, name⟩) rfl nofun named' (.refl _)
      ⟨x, there', home⟩
    exact ⟨rfl, paired.twins_put offers offers' rfl (by simp) (there'.trans there.symm) paired.inst⟩
  · obtain ⟨slots, x, own, acts⟩ := actOnBlock_of_not_move (fun into eq => moves ⟨into, eq⟩) name
    cases slots.symm.trans about
    rw [acts]
    refine conforms_bind_of_looks paired.toTwins (paired.looks_blockOf (by simp)) ?_
    rintro _ block ⟨rfl, rfl, -⟩
    exact paired.conforms_local (own block)

/-- The environment of a name is the same in both sessions, maybe under another number. -/
theorem Session.Paired.looks_environmentOf {name : String} (listed : ⟨.environment, name⟩ ∈ l) :
    Looks (environmentOf name) (environmentOf name) s t fun p q => q.2 = p.2 ∧ p.2.inst = b ∧
      s.app.names.get? ⟨.environment, name⟩ = some p.1 ∧
      t.app.names.get? ⟨.environment, name⟩ = some q.1 ∧
      s.environments.get? p.1 = some p.2 ∧ t.environments.get? q.1 = some p.2 := by
  refine yieldsBoth_bind (paired.looks_find rfl listed) ?_
  rintro i j s t ⟨rfl, rfl, named, named', x, there, there', home⟩
  obtain ⟨e, present, rfl⟩ := Option.map_eq_some_iff.1 there
  obtain ⟨_, present', eq⟩ := Option.map_eq_some_iff.1 there'
  cases eq
  refine yieldsBoth_bind (P := fun w w' u' v' => w = s ∧ w' = t ∧ u' = s ∧ v' = t)
    (x := get) (y := get) ⟨rfl, rfl, rfl, rfl⟩ ?_
  rintro _ _ _ _ ⟨rfl, rfl, rfl, rfl⟩
  rw [present, present']
  exact ⟨rfl, rfl, rfl, home, named, named', present, present'⟩

/-- User data is replaced in the same way, whatever the numbers of the environments are. -/
theorem conforms_replaceUserData {name : String} {i j : Nat} {e : Environment}
    (named : s.app.names.get? ⟨.environment, name⟩ = some i)
    (named' : t.app.names.get? ⟨.environment, name⟩ = some j)
    (there : s.environments.get? i = some e) (there' : t.environments.get? j = some e)
    (userData : Except Error UserData) (shown : UserData → Payload) :
    Conforms b l (replaceUserData i userData shown) (replaceUserData j userData shown) s t := by
  unfold replaceUserData
  cases userData with
  | error e => exact conforms_pure paired.toTwins _
  | ok userData => exact ⟨rfl, paired.twins_userData named named' there there' userData⟩

end

/-! ### Calls -/

theorem run_away (kind : Kind) (name : String) (x : Nat → SessionM α) (i : Nat) (u : Session) :
    (do
      modify (·.modifyNames (·.erase ⟨kind, name⟩))
      let result ← OptionT.lift (x i).run
      SessionM.keep kind name i
      SessionM.ofOption result : SessionM α).run.run u =
        (((x i).run.run (u.modifyNames (·.erase ⟨kind, name⟩))).1,
          ((x i).run.run (u.modifyNames (·.erase ⟨kind, name⟩))).2.put ⟨kind, name⟩ i) := rfl

section

variable [Engine] [HookRule] {s₀ : Session} (never : ∀ hook, ¬ HookRule.admits hook) (base : s₀.Base b)
include never base

omit [Engine] never base in
/-- A name is taken away from a session that comes from another one. -/
theorem Session.Stems.erase (stems : s₀.Stems s) {slot : Slot} {id : Nat}
    (named : s.app.names.get? slot = some id) :
    s₀.Stems (s.modifyNames (·.erase slot)) := by
  obtain ⟨⟨g, lead⟩, tells⟩ := stems
  exact ⟨⟨_, lead.trans (leads_erase named trivial)⟩, tells⟩

/-- Calls through an environment of the instance, which has no name meanwhile. -/
theorem conforms_calls (paired : Session.Paired b l s t) (stems : s₀.Stems s) (stems' : s₀.Stems t)
    {name : String} (listed : ⟨.environment, name⟩ ∈ l)
    (requests : List (CallRequest × List HostValue)) (f : List Session.CallAnswer → Answer)
    {x : Nat → SessionM Answer}
    (run : ∀ id (u : Session), (x id).run.run u =
      (some (f ((callEach hookedPrinter (.ofEnvironment id) requests).run u).1),
        ((callEach hookedPrinter (.ofEnvironment id) requests).run u).2))
    (granted : ∀ id, s.app.names.get? ⟨.environment, name⟩ = some id →
      GrantedEach (.ofEnvironment id) requests (s.modifyNames (·.erase ⟨.environment, name⟩)))
    (granted' : ∀ id, t.app.names.get? ⟨.environment, name⟩ = some id →
      GrantedEach (.ofEnvironment id) requests (t.modifyNames (·.erase ⟨.environment, name⟩))) :
    Conforms b l (SessionM.away .environment name x) (SessionM.away .environment name x) s t := by
  refine conforms_bind_of_looks paired.toTwins (paired.looks_find rfl listed) ?_
  rintro i j ⟨named, named', y, there, there', home⟩
  obtain ⟨e, present, rfl⟩ := Option.map_eq_some_iff.1 there
  obtain ⟨_, present', eq⟩ := Option.map_eq_some_iff.1 there'
  cases eq
  have own : e.inst = b := home
  have hookless := base.hookless never (stems.erase named)
  have hookless' := base.hookless never (stems'.erase named')
  -- The calls are told the same, and what they leave is confined to the instance and to what its
  -- names stand for.
  obtain ⟨answers, inst, last⟩ := callEach_alike never base (stems.erase named)
    (stems'.erase named') paired.inst (v := .ofEnvironment i) (w := .ofEnvironment j) rfl
    own present present' requests (granted i named) (granted' j named')
  obtain ⟨confined, userData, after⟩ :=
    confined_callEach hookless.silent (v := .ofEnvironment i) present requests
  obtain ⟨confined', userData', after'⟩ :=
    confined_callEach hookless'.silent (v := .ofEnvironment j) present' requests
  rw [own] at confined confined'
  have offers := offers_of_erase paired.tidy (m := ⟨.environment, name⟩) rfl nofun named confined
    ⟨_, congrArg (Option.map Thing.environment) after, own⟩
  have offers' := offers_of_erase paired.tidy' (m := ⟨.environment, name⟩) rfl nofun named'
    confined' ⟨_, congrArg (Option.map Thing.environment) after', own⟩
  unfold Conforms YieldsBoth
  rw [run_away, run_away, run, run]
  exact ⟨congrArg f answers, paired.twins_put offers offers' rfl listed
    (congrArg (Option.map Thing.environment) last) inst⟩

/-- What is asked of an environment has the same answer, calls included, as long as the budgets
grant what the code asks for. -/
theorem conforms_actOnEnvironment (paired : Session.Paired b l s t) (stems : s₀.Stems s)
    (stems' : s₀.Stems t) (name : String) (e : EnvironmentStep)
    (about : (Step.environment name e).slots? = some l) (granted : (Step.environment name e).Granted s)
    (granted' : (Step.environment name e).Granted t) :
    Conforms b l (actOnEnvironment hookedPrinter name e) (actOnEnvironment hookedPrinter name e)
      s t := by
  -- Steps that call are taken together; of the others, those about user data are left.
  cases calls : e.requests? with
  | some requests =>
    have names : l = ⟨.environment, name⟩ :: requests.flatMap CallRequest.blocks := by
      cases e <;> cases calls <;> exact (Option.some.inj about).symm
    obtain ⟨f, x, acts, run⟩ := actOnEnvironment_of_requests hookedPrinter calls name
    have sees : Sees (argumentsOf requests) s t :=
      sees_argumentsOf fun m member => paired.things m (by rw [names]; exact .tail _ member)
    rw [acts]
    refine conforms_bind_of_looks paired.toTwins sees.looks ?_
    rintro _ args ⟨rfl, passed, passed'⟩
    have same : args.length = requests.length := by
      have found := yields_argumentsOf (s := s) requests
      unfold Yields at found
      generalize (argumentsOf requests).run.run s = r at found passed
      obtain ⟨_, u⟩ := r
      cases passed
      exact found.2
    exact conforms_calls never base paired stems stems' (by rw [names]; exact .head _)
      (requests.zip args) f (fun id u => run args id u same)
      (fun id named => granted requests id args calls named passed)
      fun id named => granted' requests id args calls named passed'
  | none =>
    cases e with
    | userData =>
      cases about
      refine conforms_bind_of_looks paired.toTwins (paired.looks_environmentOf (by simp)) ?_
      rintro ⟨i, e⟩ ⟨j, _⟩ ⟨rfl, -⟩
      exact conforms_pure paired.toTwins _
    | setUserData eventId payload =>
      cases about
      refine conforms_bind_of_looks paired.toTwins (paired.looks_environmentOf (by simp)) ?_
      rintro ⟨i, e⟩ ⟨j, _⟩ ⟨rfl, -, named, named', present, present'⟩
      exact conforms_replaceUserData paired named named' present present' _ _
    | editUserData edit =>
      cases about
      refine conforms_bind_of_looks paired.toTwins (paired.looks_environmentOf (by simp)) ?_
      rintro ⟨i, e⟩ ⟨j, _⟩ ⟨rfl, -, named, named', present, present'⟩
      exact conforms_replaceUserData paired named named' present present' _ _
    | owner => cases about
    | _ => cases calls

/-! ### Single steps -/

omit [HookRule] never base in
/-- A step that conforms has the same answer in both sessions, and leaves them with as much in
common. -/
theorem stepWith_of_conforms {st : Step} (conforms : Conforms b l (act hookedPrinter st)
    (act hookedPrinter st) s t) :
    (stepWith hookedPrinter st t).1 = (stepWith hookedPrinter st s).1 ∧
      Session.Twins b l (stepWith hookedPrinter st s).2 (stepWith hookedPrinter st t).2 := by
  unfold Conforms YieldsBoth StateT.run at conforms
  unfold stepWith
  generalize (act hookedPrinter st).run s = r at conforms ⊢
  generalize (act hookedPrinter st).run t = r' at conforms ⊢
  obtain ⟨_ | a, s'⟩ := r <;> obtain ⟨_ | a', t'⟩ := r'
  · exact ⟨rfl, conforms⟩
  · exact conforms.elim
  · exact conforms.elim
  · exact conforms

/-- **Steps.** A step about the instance has the same answer in two sessions that have the instance in
common, and what the names stand for that it uses and gives. -/
theorem stepWith_alike (paired : Session.Paired b l s t) (stems : s₀.Stems s) (stems' : s₀.Stems t)
    {st : Step} (about : st.slots? = some l) (granted : st.Granted s) (granted' : st.Granted t) :
    (stepWith hookedPrinter st t).1 = (stepWith hookedPrinter st s).1 ∧
      Session.Twins b l (stepWith hookedPrinter st s).2 (stepWith hookedPrinter st t).2 := by
  refine stepWith_of_conforms ?_
  -- Steps that are not about the instance have no names, and those are the last case.
  cases st with
  | inst name i =>
    exact conforms_actOnInstance paired (base.shares stems stems' paired.inst) name i about granted
      granted'
  | block name step => exact conforms_actOnBlock paired name step about
  | environment name e =>
    exact conforms_actOnEnvironment never base paired stems stems' name e about granted granted'
  | drop slot =>
    simp only [Step.slots?] at about
    split at about
    case isFalse => cases about
    case isTrue plain =>
      cases about
      refine conforms_bind_of_looks paired.toTwins (paired.looks_find plain (by simp)) ?_
      rintro i j ⟨named, named', x, there, there', home⟩
      exact ⟨rfl, paired.twins_drop plain named named' there there' home⟩
  | clone slot into =>
    obtain ⟨kind, name⟩ := slot
    cases kind <;> cases about
    refine conforms_bind_of_looks paired.toTwins (paired.looks_inst (by simp)) ?_
    rintro _ b ⟨⟨rfl, rfl⟩, -⟩
    have offers : ∀ {u : Session}, u.Tidy → u.Offers none .inst b b (u.retainInstance b) :=
      fun tidy => offers_of_confined tidy (Host.confined_retainInstance _ _)
        (fun _ _ _ => Set.notMem_empty _) (fun _ _ _ => rfl) ⟨_, rfl, rfl⟩
    refine ⟨rfl, paired.twins_put (offers paired.tidy) (offers paired.tidy') rfl (by simp) rfl ?_⟩
    show (t.instances.modify b Counted.retain).get? b = (s.instances.modify b Counted.retain).get? b
    rw [Pool.get?_modify, Pool.get?_modify, paired.inst]
  | holders slot =>
    obtain ⟨kind, name⟩ := slot
    cases kind <;> cases about
    refine conforms_bind_of_looks paired.toTwins (paired.looks_inst (by simp)) ?_
    rintro _ b ⟨⟨rfl, rfl⟩, -⟩
    refine conforms_bind_of_looks (x := get) (y := get) (P := fun w w' => w = s ∧ w' = t)
      paired.toTwins ⟨rfl, rfl, rfl, rfl⟩ ?_
    rintro s t ⟨rfl, rfl⟩
    have same : Session.holders? t .inst b = Session.holders? s .inst b :=
      congrArg (Option.map Counted.holders) paired.inst
    rw [same]
    refine conforms_bind_of_looks paired.toTwins (looks_ofOption _) ?_
    rintro n _ ⟨rfl, -⟩
    exact conforms_pure paired.toTwins _
  | _ => cases about

/-- A session in which a step about some names was done comes from where the session before it came
from. -/
theorem Session.Stems.step (stems : s₀.Stems s) {st : Step} (about : st.slots? = some l) :
    s₀.Stems (stepWith hookedPrinter st s).2 := by
  have hookless := base.hookless never stems
  obtain ⟨⟨g, lead⟩, tells⟩ := stems
  have footprint :=
    footprint_stepWith (Session.tidy_of_sound (lead.sound base.sound)) hookless about
  have stepped : Leads (fun _ => True) ⟨s, g⟩ ⟨(stepWith hookedPrinter st s).2, g⟩ := by
    refine Session.leads_stepWith (traced_of_never never) trivial st s
      ⟨fun _ _ => trivial, fun _ _ => trivial, fun _ _ => trivial, fun _ _ => trivial⟩ fun hook installs => ?_
    cases st with
    | createRuntime => cases about
    | _ => exact installs.elim
  exact ⟨⟨g, lead.trans stepped⟩, fun j => (footprint.tells j).trans (tells j)⟩

end

/-! ### Runs with and without other steps -/

namespace Session

/-- Whether a step is about own names. -/
def Step.isOwn (own : Slot → Bool) (st : Step) : Bool :=
  st.slots?.any (·.all own)

/-- A step is about own names or about others, and not about both. -/
def Step.Apart (own : Slot → Bool) (st : Step) : Prop :=
  ∃ l, st.slots? = some l ∧ ∀ m ∈ l, own m = st.isOwn own

/-- The answers to those of some steps that are about own names. -/
def answersTo [Engine] (own : Slot → Bool) (steps : List Step) (s : Session) : List Answer :=
  ((steps.zip (runWith hookedPrinter steps s).1).filter fun p => p.1.isOwn own).map Prod.snd

/-- The budget refuses nothing that the steps about own names ask for. -/
def GrantedAll [Engine] (own : Slot → Bool) : List Step → Session → Prop
  | [], _ => True
  | st :: rest, s => (st.isOwn own → st.Granted s) ∧
      GrantedAll own rest (stepWith hookedPrinter st s).2

/-- The own names, and no others, stand for an instance and for what belongs to it. -/
def Allots (own : Slot → Bool) (b : Nat) (s : Session) : Prop :=
  ∀ m x, s.thing? m = some x → (own m ↔ x.home = b)

/-- Two sessions have an instance in common, and what the own names stand for, which is all that
belongs to it. -/
structure Divided (own : Slot → Bool) (b : Nat) (s t : Session) : Prop where
  inst : t.instances.get? b = s.instances.get? b
  things : ∀ m, own m → t.thing? m = s.thing? m
  allots : s.Allots own b

/-- A step on one side leaves each side with what is its own. -/
theorem Allots.footprint {own : Slot → Bool} {b : Nat} {s t : Session} {l : List Slot}
    (allots : s.Allots own b) (footprint : Footprint l s t) {side : Bool} (same : ∀ m ∈ l, own m = side) :
    t.Allots own b := by
  intro m x stands
  by_cases listed : m ∈ l
  · obtain ⟨m', listed', y, stood, home⟩ := footprint.homes m listed x stands
    rw [same m listed, ← same m' listed', ← home]
    exact allots m' y stood
  · exact allots m x (footprint.things m listed ▸ stands)

/-- The answers to steps of one side, one after the other. -/
theorem answersTo_cons [Engine] (st : Step) (steps : List Step) (s : Session) (own : Slot → Bool) :
    answersTo own (st :: steps) s =
      if st.isOwn own then
        (stepWith hookedPrinter st s).1 :: answersTo own steps (stepWith hookedPrinter st s).2
      else answersTo own steps (stepWith hookedPrinter st s).2 := by
  have ran : (runWith hookedPrinter (st :: steps) s).1 = (stepWith hookedPrinter st s).1 ::
      (runWith hookedPrinter steps (stepWith hookedPrinter st s).2).1 := rfl
  unfold answersTo
  rw [ran, List.zip_cons_cons, List.filter_cons]
  cases st.isOwn own <;> rfl

variable {own : Slot → Bool}

section

variable [HookRule] (never : ∀ hook, ¬ HookRule.admits hook) {s₀ : Session} (base : s₀.Base b)
include never base

/-- Steps about own names have the same answers whether or not steps about others are done between
them, by induction on the steps. -/
theorem answersTo_alike [Engine] (divided : Divided own b s t) (stems : s₀.Stems s)
    (stems' : s₀.Stems t)
    (steps : List Step) (apart : ∀ st ∈ steps, st.Apart own) (granted : GrantedAll own steps s)
    (granted' : GrantedAll own (steps.filter (·.isOwn own)) t) :
    answersTo own steps s = (runWith hookedPrinter (steps.filter (·.isOwn own)) t).1 := by
  -- By induction on the steps: the sessions stay divided, whether a step is for this instance or
  -- not.
  induction steps generalizing s t with
  | nil => rfl
  | cons st steps ih =>
    obtain ⟨l, about, side⟩ := apart st List.mem_cons_self
    have others : ∀ st ∈ steps, st.Apart own := fun st member => apart st (.tail _ member)
    have tidy : ∀ {u}, s₀.Stems u → u.Tidy := fun ⟨⟨_, lead⟩, _⟩ =>
      tidy_of_sound (lead.sound base.sound)
    have footprint : ∀ {u}, s₀.Stems u → Footprint l u (stepWith hookedPrinter st u).2 :=
      fun stems => footprint_stepWith (tidy stems) (base.hookless never stems) about
    have allots := divided.allots.footprint (footprint stems) side
    rw [answersTo_cons]
    cases mine : st.isOwn own with
    | false =>
      rw [mine] at side
      rw [if_neg Bool.false_ne_true, List.filter_cons_of_neg (by rw [mine]; exact Bool.false_ne_true)]
      rw [List.filter_cons_of_neg (by rw [mine]; exact Bool.false_ne_true)] at granted'
      -- A step for others is run in one session only, and its footprint misses what is divided.
      refine ih ⟨?_, fun m isOwn => ?_, allots⟩ (stems.step never base about) stems' others granted.2
        granted'
      · rw [divided.inst, (footprint stems).instances b fun m listed x stands home => ?_]
        exact absurd ((divided.allots m x stands).2 home) (by rw [side m listed]; exact Bool.false_ne_true)
      · rw [divided.things m isOwn, (footprint stems).things m fun listed => ?_]
        exact absurd isOwn (by rw [side m listed]; exact Bool.false_ne_true)
    | true =>
      rw [mine] at side
      rw [if_pos rfl, List.filter_cons_of_pos (by rw [mine])]
      rw [List.filter_cons_of_pos (by rw [mine])] at granted'
      -- A step for this instance is run in both, and all that it names is the same in them.
      have paired : Session.Paired b l s t := ⟨⟨divided.inst, fun m listed =>
        divided.things m (side m listed)⟩, tidy stems, tidy stems', fun m listed x stands =>
          (divided.allots m x stands).1 (side m listed)⟩
      obtain ⟨answer, twins⟩ := stepWith_alike never base paired stems stems' about
        (granted.1 mine) (granted'.1 mine)
      refine congrArg₂ List.cons answer.symm (ih ⟨twins.inst, fun m isOwn => ?_, allots⟩
        (stems.step never base about) (stems'.step never base about) others granted.2 granted'.2)
      by_cases listed : m ∈ l
      · exact twins.things m listed
      · exact ((footprint stems').things m listed).trans
          ((divided.things m isOwn).trans ((footprint stems).things m listed).symm)

end

/-! ### Sessions to begin with -/

/-- Sessions that steps lead to, whatever clocks come to say between them. -/
inductive Reached [Engine] : Session → Prop
  | empty : Reached empty
  | step {s : Session} (before : Reached s) (st : Step) : Reached (stepWith hookedPrinter st s).2
  | retime {s : Session} (before : Reached s) (commons : Nat) (clock : Clock) :
      Reached { s with commons := s.commons.modify commons fun c => { c with clock } }

/-- An instance is there, and the clock of its runtime always says the same. -/
def Still (b : Nat) (s : Session) : Prop :=
  ∃ i, s.instance? b = some i ∧ ∀ f, s.tells? i.commons = some f → ∃ r, ∀ n, f n = r

/-- What any steps reach is reached. -/
theorem Reached.runWith [Engine] {s : Session} (reached : s.Reached) (steps : List Step) :
    Reached (runWith hookedPrinter steps s).2 := by
  induction steps generalizing s with
  | nil => exact reached
  | cons st steps ih => exact ih (reached.step st)

/-- What is reached is sound. -/
theorem Reached.sound [Engine] [HookRule] (any : ∀ hook, HookRule.admits hook)
    (since : HookRule.since = 0)
    {s : Session} (reached : s.Reached) : Config.Sound ⟨s, .none⟩ ∧ Config.Chained ⟨s, .none⟩ := by
  induction reached with
  | empty => exact ⟨sound_empty since, chained_empty⟩
  | @step s _ st ih =>
    have lead : Leads (fun _ => True) ⟨s, .none⟩ ⟨(stepWith hookedPrinter st s).2, .none⟩ :=
      leads_stepWith (traced_of_any any) trivial st s
        ((Step.Fits.of_any any st).permitted s (by rw [since]; exact Nat.zero_le _)) fun hook _ =>
          any hook
    exact ⟨lead.sound ih.1, lead.induct ih.1 (fun _ _ _ step h => step.chained h) ih.2⟩
  | retime _ commons clock ih =>
    obtain ⟨⟨admitted, counted, runtimes, modules, instances, present, single, custody⟩,
      modules', instances', environments, runners⟩ := ih
    exact ⟨⟨admitted, counted, runtimes, modules, instances, present, single, custody⟩,
      modules', instances', environments, runners⟩

/-- An instance can be begun with where no print runs steps. -/
theorem Reached.begins [Engine] {s : Session} (reached : s.Reached) (hookless : s.Hookless)
    (still : s.Still b) :
    ∃ _ : HookRule, (∀ hook, ¬ HookRule.admits hook) ∧ s.Base b := by
  let any : HookRule := .any
  obtain ⟨⟨-, counted, runtimes, modules, instances, present, single, custody⟩, chained⟩ :=
    reached.sound (fun _ => trivial) rfl
  let never : HookRule := ⟨0, fun _ => False⟩
  refine ⟨never, fun _ => id, ⟨⟨Nat.zero_le _, fun commons hook hooked => ?_⟩, counted, runtimes,
    modules, instances, present, single, custody⟩, chained, still⟩
  rw [hookless commons] at hooked
  cases hooked

/-- **Instances are isolated.** What is asked of one instance is answered in the same way whether or not
other instances are asked for anything in between, if the budget refuses nothing that is asked for, with
and without the steps in between. -/
theorem runWith_isolated [Engine] {s : Session} (reached : s.Reached) (hookless : s.Hookless)
    (still : s.Still b) (allots : s.Allots own b) {steps : List Step}
    (apart : ∀ st ∈ steps, st.Apart own) (granted : GrantedAll own steps s)
    (granted' : GrantedAll own (steps.filter (·.isOwn own)) s) :
    answersTo own steps s = (runWith hookedPrinter (steps.filter (·.isOwn own)) s).1 := by
  obtain ⟨_, never, base⟩ := reached.begins hookless still
  have stems : s.Stems s := ⟨⟨.none, .refl⟩, fun _ => rfl⟩
  exact answersTo_alike never base ⟨rfl, fun _ _ => rfl, allots⟩ stems stems steps apart granted granted'

/-! ### Two neighbours -/

/-- A program that passes a callback on, which adds two numbers. -/
def summing : Bytes :=
  [0x00, 0x61, 0x73, 0x6d, 0x01, 0x00, 0x00, 0x00,
    -- one type: two numbers in, one number out
    0x01, 0x07, 0x01, 0x60, 0x02, 0x7f, 0x7f, 0x01, 0x7f,
    -- one function of that type is imported
    0x02, 0x13, 0x01, 0x03] ++ Bytes.ofText nativeSpace ++
    [0x0b] ++ Bytes.ofText "sandbox_sum" ++ [0x00, 0x00,
    -- and exported as `sum`
    0x07, 0x07, 0x01, 0x03, 0x73, 0x75, 0x6d, 0x00, 0x00]

/-- Two instances of one program that share a small budget. -/
def neighbours : Session :=
  (runWith hookedPrinter
    [.createRuntime "rt" { heapSizeBytes := 1000 } [.sum] [] none [],
      .runtime "rt" (.load "m" summing),
      .module "m" (.instantiate "a" 600 0),
      .module "m" (.instantiate "b" 100 0)] empty).2

/-- The names of the second one and of its environment. -/
def ofSecond (slot : Slot) : Bool :=
  slot = ⟨.inst, "b"⟩ || slot = ⟨.environment, "e"⟩

theorem reached_neighbours : neighbours.Reached :=
  Reached.empty.runWith _

theorem hookless_neighbours : neighbours.Hookless := by
  intro commons
  have none : neighbours.app.hooks.entries.length = 0 := by decide +kernel
  show (neighbours.app.hooks.entries.find? _).map Prod.snd = _
  rw [List.length_eq_zero_iff.1 none]
  rfl

/-- The clock of the second instance always says the same. -/
theorem still_neighbours : neighbours.Still 1 := by
  obtain ⟨i, there⟩ : ∃ i, neighbours.instance? 1 = some i :=
    Option.isSome_iff_exists.1 (by decide +kernel)
  refine ⟨i, there, fun f told => ?_⟩
  have commons : (neighbours.instance? 1).map Instance.commons = some 0 := by decide +kernel
  have silent : ((neighbours.commons.get? 0).map fun c => c.clock.readings.length) = some 0 := by
    decide +kernel
  rw [there] at commons
  rw [show i.commons = 0 from Option.some.inj commons] at told
  obtain ⟨c, present, rfl⟩ := Option.map_eq_some_iff.1 told
  rw [present] at silent
  refine ⟨c.clock.afterwards, fun n => ?_⟩
  rw [List.length_eq_zero_iff.1 (Option.some.inj silent)]
  rfl

theorem allots_neighbours : neighbours.Allots ofSecond 1 := by
  have all : ∀ e ∈ neighbours.app.names.entries,
      (neighbours.object? e.1.kind e.2).all fun x => ofSecond e.1 = (x.home == 1) := by
    decide +kernel
  intro m x stands
  obtain ⟨id, named, there⟩ := Option.bind_eq_some_iff.1 stands
  have same := all _ ((Table.get?_eq_some_iff _).1 named)
  rw [there] at same
  rw [show ofSecond m = (x.home == 1) by simpa using same, beq_iff_eq]

/-- Both are asked for something in turn, and the first one goes. -/
def visits : List Step :=
  [.inst "a" (.setException ⟨.trap, "stop"⟩),
    .inst "b" (.createEnvironment "e" 50),
    .inst "a" (.createEnvironment "f" 50),
    .environment "f" (.call ⟨"sum", [.value (.i32 1), .value (.i32 1)], [.i32]⟩),
    .environment "e" (.call ⟨"sum", [.value (.i32 2), .value (.i32 3)], [.i32]⟩),
    .drop ⟨.environment, "f"⟩,
    .drop ⟨.inst, "a"⟩,
    .inst "b" .exception]

theorem apart_visits : ∀ st ∈ visits, st.Apart ofSecond := by
  intro st member
  simp only [visits, List.mem_cons, List.not_mem_nil, or_false] at member
  rcases member with rfl | rfl | rfl | rfl | rfl | rfl | rfl | rfl <;>
    exact ⟨_, rfl, by decide⟩

/-- An environment that can be created is granted. -/
theorem granted_environment [Engine] {name into : String} {stack : Nat} {s : Session}
    (created : (s.app.names.get? ⟨.inst, name⟩).all fun id =>
      (exec (HostM.createEnvironment id stack) s).1.isOk) :
    (Step.inst name (.createEnvironment into stack)).Granted s := by
  rintro id named ⟨resource, needed, available, capacity, exhausted⟩
  rw [named] at created
  dsimp only [Option.all_some] at created
  rw [exhausted] at created
  cases created

/-- Whether a call would enter a callback that the guest passes on, or nothing at all. -/
def entersNative (s : Session) (environment : Environment) (function : String) : Bool :=
  match s.callee environment.inst function with
  | .ok callee =>
    match callee.store.guest.funcs[callee.function]? with
    | some (.code ..) => false
    | _ => true
  | .error _ => true

/-- A callback that a guest passes on asks for no memory. -/
theorem granted_native [Engine] {name : String} {request : CallRequest} {s : Session}
    (native : ((s.app.names.get? ⟨.environment, name⟩).bind s.environments.get?).all fun e =>
      entersNative s e request.function) :
    (Step.environment name (.call request)).Granted s := by
  rintro _ id args ⟨rfl⟩ named -
  rcases args with _ | ⟨args, _⟩
  · exact trivial
  refine ⟨fun entry memory pages u wants => ?_, trivial⟩
  have bound : s.environments.get? id = some entry.env := entry.bound
  have found : s.callee entry.env.inst request.function = .ok entry.callee := entry.found
  rw [named, Option.bind_some, bound, Option.all_some, entersNative, found] at native
  change match entry.callee.store.guest.funcs[entry.callee.function]? with
    | some (.code type code) => _
    | _ => False at wants
  -- The function that is entered is a callback, which has no step that grows a memory.
  dsimp only at native
  generalize entry.callee.store.guest.funcs[entry.callee.function]? = f at native wants
  rcases f with _ | (_ | _)
  · exact wants.elim
  · exact wants.elim
  · cases native

/-- The second one is not aware of the visits to the first one. -/
theorem isolated_neighbours : (neighbours.Reached ∧ neighbours.Hookless ∧ neighbours.Still 1 ∧
    neighbours.Allots ofSecond 1 ∧ ∀ st ∈ visits, st.Apart ofSecond) ∧
    answersTo ofSecond visits neighbours =
      (runWith hookedPrinter (visits.filter (·.isOwn ofSecond)) neighbours).1 := by
  refine ⟨⟨reached_neighbours, hookless_neighbours, still_neighbours, allots_neighbours, apart_visits⟩,
    runWith_isolated reached_neighbours hookless_neighbours still_neighbours allots_neighbours
      apart_visits ?_ ?_⟩
  · exact ⟨nofun, fun _ => granted_environment (by decide +kernel), nofun, nofun,
      fun _ => granted_native (by decide +kernel), nofun, nofun, fun _ => trivial, trivial⟩
  · exact ⟨fun _ => granted_environment (by decide +kernel),
      fun _ => granted_native (by decide +kernel), fun _ => trivial, trivial⟩

/-- Whether an answer says that something was done. -/
def Answer.isDone : Answer → Bool
  | .result (.ok _) => true
  | _ => false

/-- The first one goes, and the second one asks for the bytes that this has made free. -/
def succession : List Step :=
  [.drop ⟨.inst, "a"⟩, .inst "b" (.createEnvironment "e" 600)]

/-- The budget must have what is asked for without the steps in between, too: what another instance
has given up cannot be missing. -/
theorem unlike_without_succession :
    (neighbours.Reached ∧ neighbours.Hookless ∧ neighbours.Still 1 ∧ neighbours.Allots ofSecond 1 ∧
      (∀ st ∈ succession, st.Apart ofSecond) ∧ GrantedAll (fun _ => true) succession neighbours) ∧
    answersTo ofSecond succession neighbours ≠
      (runWith hookedPrinter (succession.filter (·.isOwn ofSecond)) neighbours).1 := by
  refine ⟨⟨reached_neighbours, hookless_neighbours, still_neighbours, allots_neighbours, ?_, ?_⟩, ?_⟩
  · intro st member
    simp only [succession, List.mem_cons, List.not_mem_nil, or_false] at member
    rcases member with rfl | rfl <;> exact ⟨_, rfl, by decide⟩
  · exact ⟨fun _ => trivial, fun _ => granted_environment (by decide +kernel), trivial⟩
  · intro same
    have done := congrArg (List.map Answer.isDone) same
    revert done
    decide +kernel

end Session

end Embedder
