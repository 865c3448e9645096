import Embedder.Proofs.Session.Footprint

namespace Embedder

open Session (CallRequest EnvironmentStep InstanceStep BlockStep Kind Slot Slots Step Answer Payload
  act actOnBlock actOnEnvironment actOnInstance argumentValue blockOf blockView callEach callWith
  hookedPrinter stepWith)

/-!
# Steps in two sessions

Where two sessions have an instance in common, and what some names stand for belongs to it and is the
same in both, a step about these names has the same answer in both sessions and leaves them with as
much in common, if no budget refuses what the step asks for.

* `YieldsBoth`: how a part of a step ends in two sessions.
* `Session.Twins`, `Conforms`: sessions with something in common, and parts of steps that have the
  same answer in both.
* `GrantedEach`, `callEach_alike`: calls one after another, where no budget refuses what they ask for.
-/

variable {α β γ δ : Type} {s t : Session}

/-! ### How parts of steps end in two sessions -/

/-- From two sessions, two parts of steps yield values as `Q` says, or both miss an object, and it is
as `F` says. -/
def YieldsBoth (x : SessionM α) (y : SessionM β) (s t : Session)
    (Q : α → β → Session → Session → Prop) (F : Session → Session → Prop) : Prop :=
  match x.run.run s, y.run.run t with
  | (some a, s), (some b, t) => Q a b s t
  | (none, s), (none, t) => F s t
  | _, _ => False

section

variable {x : SessionM α} {y : SessionM β} {F : Session → Session → Prop}

/-- One part after another. -/
theorem yieldsBoth_bind {f : α → SessionM γ} {f' : β → SessionM δ}
    {P : α → β → Session → Session → Prop} {Q : γ → δ → Session → Session → Prop}
    (first : YieldsBoth x y s t P F)
    (rest : ∀ a b s t, P a b s t → YieldsBoth (f a) (f' b) s t Q F) :
    YieldsBoth (x >>= f) (y >>= f') s t Q F := by
  unfold YieldsBoth at first ⊢
  rw [run_bind, run_bind]
  generalize x.run.run s = r at first ⊢
  generalize y.run.run t = r' at first ⊢
  obtain ⟨_ | a, s'⟩ := r <;> obtain ⟨_ | b, t'⟩ := r'
  · exact first
  · exact first.elim
  · exact first.elim
  · exact rest a b s' t' first

end

/-! ### Sessions with something in common -/

/-- Two sessions have an instance in common, and what some names stand for. -/
structure Session.Twins (b : Nat) (l : List Slot) (s t : Session) : Prop where
  inst : t.instances.get? b = s.instances.get? b
  things : ∀ m ∈ l, t.thing? m = s.thing? m

/-- Two sessions have something in common before a step: the names that the step uses or gives stand
for what belongs to the instance. -/
structure Session.Paired (b : Nat) (l : List Slot) (s t : Session) : Prop
    extends Session.Twins b l s t where
  tidy : s.Tidy
  tidy' : t.Tidy
  homes : ∀ m ∈ l, ∀ x, s.thing? m = some x → x.home = b

/-- Two parts of steps end with the same answer, or both miss an object, and leave two sessions with
something in common. -/
def Conforms (b : Nat) (l : List Slot) (x y : SessionM α) (s t : Session) : Prop :=
  YieldsBoth x y s t (fun a a' s t => a' = a ∧ Session.Twins b l s t) (Session.Twins b l)

/-- Two parts of steps only look at sessions, and find things as `P` says, or find nothing. -/
def Looks (x : SessionM α) (y : SessionM β) (s t : Session) (P : α → β → Prop) : Prop :=
  YieldsBoth x y s t (fun a a' s' t' => s' = s ∧ t' = t ∧ P a a') fun s' t' => s' = s ∧ t' = t

variable {b : Nat} {l : List Slot}

/-- Conditions on how both parts end may be weakened. -/
theorem YieldsBoth.mono {x : SessionM α} {y : SessionM β} {P Q : α → β → Session → Session → Prop}
    {E F : Session → Session → Prop} (h : YieldsBoth x y s t P E)
    (found : ∀ a b s t, P a b s t → Q a b s t) (missing : ∀ s t, E s t → F s t) :
    YieldsBoth x y s t Q F := by
  unfold YieldsBoth at h ⊢
  generalize x.run.run s = r at h ⊢
  generalize y.run.run t = r' at h ⊢
  obtain ⟨_ | a, s'⟩ := r <;> obtain ⟨_ | b, t'⟩ := r'
  · exact missing s' t' h
  · exact h.elim
  · exact h.elim
  · exact found a b s' t' h

/-- Where something is only looked up, what comes next conforms. -/
theorem conforms_bind_of_looks {x : SessionM α} {y : SessionM β} {f : α → SessionM γ}
    {f' : β → SessionM γ} {P : α → β → Prop} (twins : Session.Twins b l s t)
    (first : Looks x y s t P) (rest : ∀ a a', P a a' → Conforms b l (f a) (f' a') s t) :
    Conforms b l (x >>= f) (y >>= f') s t := by
  refine yieldsBoth_bind (P := fun a a' s' t' => s' = s ∧ t' = t ∧ P a a')
    (first.mono (fun _ _ _ _ found => found) ?_) ?_
  · rintro _ _ ⟨rfl, rfl⟩
    exact twins
  · rintro a a' _ _ ⟨rfl, rfl, found⟩
    exact rest a a' found

/-- To return the same conforms. -/
theorem conforms_pure (twins : Session.Twins b l s t) (a : α) :
    Conforms b l (pure a) (pure a) s t :=
  ⟨rfl, twins⟩

/-- The same is found, or missed, in both. -/
theorem looks_ofOption (a : Option α) :
    Looks (SessionM.ofOption a) (SessionM.ofOption a) s t fun v v' => v' = v ∧ a = some v := by
  cases a with
  | none => exact ⟨rfl, rfl⟩
  | some v => exact ⟨rfl, rfl, rfl, rfl⟩

/-- A name of both sessions stands for the same, or for nothing. -/
theorem Session.Paired.looks_find (paired : Session.Paired b l s t) {kind : Kind} {name : String}
    (plain : kind.isLocal) (listed : ⟨kind, name⟩ ∈ l) :
    Looks (SessionM.find kind name) (SessionM.find kind name) s t fun i j =>
      s.app.names.get? ⟨kind, name⟩ = some i ∧ t.app.names.get? ⟨kind, name⟩ = some j ∧
        ∃ x, s.object? kind i = some x ∧ t.object? kind j = some x ∧ x.home = b := by
  have same := paired.things _ listed
  have run : ∀ u : Session, (SessionM.find kind name).run.run u =
      (u.app.names.get? ⟨kind, name⟩, u) := fun _ => rfl
  unfold Looks YieldsBoth
  rw [run, run]
  cases named : s.app.names.get? ⟨kind, name⟩ with
  -- A name that stands for nothing here stands for nothing there, or the two would not show the
  -- same.
  | none =>
    have none : s.thing? ⟨kind, name⟩ = none := by rw [thing?, named, Option.bind_none]
    rw [paired.tidy'.unnamed plain (same.trans none)]
    exact ⟨rfl, rfl⟩
  | some i =>
    obtain ⟨x, there⟩ := Option.isSome_iff_exists.1 (paired.tidy.there named plain)
    have stood : s.thing? ⟨kind, name⟩ = some x := (thing?_of_named named).trans there
    cases named' : t.app.names.get? ⟨kind, name⟩ with
    | none =>
      rw [stood, thing?, named', Option.bind_none] at same
      cases same
    | some j =>
      refine ⟨rfl, rfl, rfl, rfl, x, there, ?_, paired.homes _ listed x stood⟩
      exact (thing?_of_named named').symm.trans (same.trans stood)

/-- A name of the instance stands for it in both sessions. -/
theorem Session.Paired.looks_inst (paired : Session.Paired b l s t) {name : String}
    (listed : ⟨.inst, name⟩ ∈ l) :
    Looks (SessionM.find .inst name) (SessionM.find .inst name) s t fun i j =>
      (i = b ∧ j = b) ∧ s.app.names.get? ⟨.inst, name⟩ = some b ∧
        t.app.names.get? ⟨.inst, name⟩ = some b := by
  refine (paired.looks_find rfl listed).mono ?_ fun _ _ same => same
  rintro i j _ _ ⟨rfl, rfl, named, named', x, there, there', home⟩
  cases there
  cases there'
  cases home
  exact ⟨rfl, rfl, ⟨rfl, rfl⟩, named, named'⟩

/-! ### Operations -/

/-- What goes by the instance conforms. -/
theorem Session.Paired.conforms_local (paired : Session.Paired b l s t) {x : SessionM α}
    (own : SessionM.Local b x) : Conforms b l x x s t := by
  obtain ⟨ended, after⟩ := own.alike paired.inst
  have confined := own.confined s
  have confined' := own.confined t
  have things : ∀ m ∈ l, (x.run.run t).2.thing? m = (x.run.run s).2.thing? m := by
    intro m member
    rw [thing?_eq_of_confined confined (by rw [confined.app]) fun _ _ => Set.notMem_empty _,
      thing?_eq_of_confined confined' (by rw [confined'.app]) fun _ _ => Set.notMem_empty _,
      paired.things m member]
  unfold Conforms YieldsBoth
  generalize x.run.run s = r at ended after things ⊢
  generalize x.run.run t = r' at ended after things ⊢
  obtain ⟨_ | a, s'⟩ := r <;> obtain ⟨_ | a', t'⟩ := r' <;> cases ended
  · exact ⟨after, things⟩
  · exact ⟨rfl, after, things⟩

/-- The same object gets a name in both sessions. -/
theorem Session.Paired.twins_put (paired : Session.Paired b l s t) {gone : Option Slot}
    {kind : Kind} {i j : Nat} {u v : Session} (offers : s.Offers gone kind i b u)
    (offers' : t.Offers gone kind j b v) (plain : kind.isLocal) {into : String}
    (listed : ⟨kind, into⟩ ∈ l) (same : v.object? kind j = u.object? kind i)
    (inst : v.instances.get? b = u.instances.get? b) :
    Session.Twins b l (u.put ⟨kind, into⟩ i) (v.put ⟨kind, into⟩ j) := by
  have before : ∀ m ∈ l, v.thing? m = u.thing? m := by
    intro m member
    rw [offers.things, offers'.things, paired.things m member]
  refine ⟨put_alike plain (before _ listed) (fun x stands => ?_) inst, fun m member => ?_⟩
  · rw [offers.things] at stands
    split at stands
    · cases stands
    · exact paired.homes _ listed x stands
  · rw [offers.thing?_put plain, offers'.thing?_put plain, same, before m member]

/-- What shows new objects shows the same of the same object. -/
def ShowsAlike (kind : Kind) (view : Nat → SessionM Payload) : Prop :=
  ∀ i j (u v : Session), (u.object? kind i).isSome → v.object? kind j = u.object? kind i →
    YieldsBoth (view i) (view j) u v (fun a a' u' v' => u' = u ∧ v' = v ∧ a' = a) fun _ _ => False

/-- What shows nothing of the object shows the same. -/
theorem showsAlike_const (kind : Kind) (shown : Payload) : ShowsAlike kind fun _ => pure shown :=
  fun _ _ _ _ _ _ => ⟨rfl, rfl, rfl⟩

/-- Blocks are shown by what they are. -/
theorem showsAlike_blockView : ShowsAlike .block blockView := by
  intro i j u v there same
  obtain ⟨x, there⟩ := Option.isSome_iff_exists.1 there
  obtain ⟨block, present, rfl⟩ := Option.map_eq_some_iff.1 there
  obtain ⟨_, present', eq⟩ := Option.map_eq_some_iff.1 (same.trans there)
  cases eq
  refine yieldsBoth_bind (P := fun w w' u' v' => w = u ∧ w' = v ∧ u' = u ∧ v' = v)
    ⟨rfl, rfl, rfl, rfl⟩ ?_
  rintro _ _ _ _ ⟨rfl, rfl, rfl, rfl⟩
  rw [present, present']
  exact ⟨rfl, rfl, rfl⟩

/-- The same is made of the instance in both sessions, and gets a name. -/
theorem Session.Paired.conforms_create (paired : Session.Paired b l s t) {kind : Kind}
    {into : String} (plain : kind.isLocal) (listed : ⟨kind, into⟩ ∈ l) {op : HostM Slots Nat}
    (makes : Makes kind b op) (alike : MadeAlike kind b (exec op s) (exec op t))
    {view : Nat → SessionM Payload} (shows : ShowsAlike kind view) :
    Conforms b l (SessionM.create kind into op view) (SessionM.create kind into op view) s t := by
  have made := makes s
  have made' := makes t
  unfold Ends at made made'
  refine yieldsBoth_bind (x := SessionM.host op) (y := SessionM.host op)
    (P := fun r r' u v => exec op s = (r, u) ∧ exec op t = (r', v)) ⟨rfl, rfl⟩ ?_
  -- Both make it or both fail with the same error, since the making goes by the instance alone.
  rintro r r' u v ⟨done, done'⟩
  rw [done] at made alike
  rw [done'] at made' alike
  obtain ⟨inst, same⟩ := alike
  cases r <;> cases r'
  case error.ok => exact same.elim
  case ok.error => exact same.elim
  case error.error e e' =>
    cases same
    refine ⟨rfl, inst, fun m member => ?_⟩
    rw [thing?_eq_of_confined made (by rw [made.app]) fun _ _ => Set.notMem_empty _,
      thing?_eq_of_confined made' (by rw [made'.app]) fun _ _ => Set.notMem_empty _,
      paired.things m member]
  case ok.ok i j =>
    obtain ⟨fresh, confined, y, there, home⟩ := made
    obtain ⟨fresh', confined', y', there', home'⟩ := made'
    have offers := offers_of_made paired.tidy plain fresh confined there home
    have offers' := offers_of_made paired.tidy' plain fresh' confined' there' home'
    refine yieldsBoth_bind ((shows i j u v (by rw [there]; rfl) same).mono
      (fun _ _ _ _ h => h) fun _ _ => False.elim) ?_
    rintro shown _ _ _ ⟨rfl, rfl, rfl⟩
    exact ⟨rfl, paired.twins_put offers offers' plain listed same inst⟩

/-- The user data of the same environment is replaced in both sessions. -/
theorem Session.Paired.twins_userData (paired : Session.Paired b l s t) {name : String}
    {i j : Nat} (named : s.app.names.get? ⟨.environment, name⟩ = some i)
    (named' : t.app.names.get? ⟨.environment, name⟩ = some j) {e : Environment}
    (there : s.environments.get? i = some e) (there' : t.environments.get? j = some e)
    (userData : UserData) :
    Session.Twins b l (s.modifyEnvironment i fun e => { e with userData })
      (t.modifyEnvironment j fun e => { e with userData }) := by
  refine ⟨paired.inst, fun m member => ?_⟩
  rw [thing?_userData paired.tidy.distinct named there,
    thing?_userData paired.tidy'.distinct named' there', paired.things m member]

/-- The same object is dropped in both sessions. -/
theorem Session.Paired.twins_drop (paired : Session.Paired b l s t) {slot : Slot}
    (plain : slot.kind.isLocal) {i j : Nat} (named : s.app.names.get? slot = some i)
    (named' : t.app.names.get? slot = some j) {x : Thing} (there : s.object? slot.kind i = some x)
    (there' : t.object? slot.kind j = some x) (home : x.home = b) :
    Session.Twins b l ((s.modifyNames (·.erase slot)).release slot.kind i)
      ((t.modifyNames (·.erase slot)).release slot.kind j) := by
  subst home
  refine ⟨?_, fun m member => ?_⟩
  · exact release_alike (s := s.modifyNames (·.erase slot)) (t := t.modifyNames (·.erase slot)) there
      there' paired.inst
  · rw [thing?_drop paired.tidy.distinct plain named there,
      thing?_drop paired.tidy'.distinct plain named' there', paired.things m member]

/-! ### What is only looked at -/

/-- A part of a step only looks at two sessions, and finds the same. -/
def Sees (x : SessionM α) (s t : Session) : Prop :=
  ∃ r, x.run.run s = (r, s) ∧ x.run.run t = (r, t)

/-- To return something is to see the same. -/
theorem sees_pure (a : α) : Sees (pure a) s t := ⟨some a, rfl, rfl⟩

/-- One look after another sees the same. -/
theorem sees_bind {x : SessionM α} {f : α → SessionM γ} (first : Sees x s t)
    (rest : ∀ a, Sees (f a) s t) : Sees (x >>= f) s t := by
  obtain ⟨r, run, run'⟩ := first
  unfold Sees
  rw [run_bind, run_bind, run, run']
  cases r with
  | none => exact ⟨none, rfl, rfl⟩
  | some a => exact rest a

/-- Looks one after another see the same, by induction on what they are for. -/
theorem sees_mapM (as : List α) {f : α → SessionM γ} (each : ∀ a ∈ as, Sees (f a) s t) :
    Sees (as.mapM f) s t := by
  induction as with
  | nil => exact sees_pure []
  | cons a as ih =>
    rw [List.mapM_cons]
    exact sees_bind (each a List.mem_cons_self) fun _ =>
      sees_bind (ih fun a member => each a (List.mem_cons_of_mem _ member)) fun _ => sees_pure _

/-- What sees the same only looks. -/
theorem Sees.looks {x : SessionM α} (sees : Sees x s t) :
    Looks x x s t fun a a' => a' = a ∧ (x.run.run s).1 = some a ∧ (x.run.run t).1 = some a := by
  obtain ⟨r, run, run'⟩ := sees
  unfold Looks YieldsBoth
  rw [run, run']
  cases r with
  | none => exact ⟨rfl, rfl⟩
  | some a => exact ⟨rfl, rfl, rfl, rfl, rfl⟩

/-- The block of a name is found by way of its number. -/
theorem run_blockOf (name : String) (u : Session) : (blockOf name).run.run u =
    ((u.app.names.get? ⟨.block, name⟩).bind u.blocks.get?, u) := by
  have start : (blockOf name).run.run u =
      (SessionM.ofOption (u.app.names.get? ⟨.block, name⟩) >>= fun id =>
        SessionM.ofOption (u.blocks.get? id)).run.run u := rfl
  rw [start, run_bind]
  cases u.app.names.get? ⟨.block, name⟩ <;> rfl

/-- What a name of a block stands for is the block. -/
theorem thing?_block (name : String) (u : Session) :
    u.thing? ⟨.block, name⟩ = (((blockOf name).run.run u).1).map .block := by
  rw [run_blockOf, Option.map_bind]
  rfl

/-- A block that stands for the same in both sessions is seen in both. -/
theorem sees_blockOf {name : String} (same : t.thing? ⟨.block, name⟩ = s.thing? ⟨.block, name⟩) :
    Sees (blockOf name) s t := by
  have injective : Function.Injective Thing.block := fun _ _ eq => by cases eq; rfl
  rw [thing?_block, thing?_block, run_blockOf, run_blockOf] at same
  have found := Option.map_injective injective same
  dsimp only at found
  exact ⟨_, run_blockOf name s, by rw [run_blockOf, found]⟩

/-- So are arguments, if the blocks that are passed do. -/
theorem sees_argumentsOf {requests : List CallRequest}
    (same : ∀ m ∈ requests.flatMap CallRequest.blocks, t.thing? m = s.thing? m) :
    Sees (argumentsOf requests) s t := by
  refine sees_mapM _ fun r asked => sees_mapM _ fun a passed => ?_
  cases a with
  | value v => exact sees_pure v
  | block name =>
    refine sees_bind (sees_blockOf (same _ (List.mem_flatMap.2 ⟨r, asked, ?_⟩))) fun _ => sees_pure _
    exact List.mem_filterMap.2 ⟨_, passed, rfl⟩

/-! ### Sessions that come from one session -/

variable [Engine]

section

variable [HookRule] {s₀ : Session}

/-- An instance of a session, where nothing is in progress. The clock of its runtime always says the
same. -/
structure Session.Base (s₀ : Session) (b : Nat) : Prop where
  sound : Config.Sound ⟨s₀, .none⟩
  chained : Config.Chained ⟨s₀, .none⟩
  there : ∃ i, s₀.instance? b = some i ∧
    ∀ f, s₀.tells? i.commons = some f → ∃ r, ∀ n, f n = r

/-- A session comes from another one, and its clocks say what they said. -/
structure Session.Stems (s₀ s : Session) : Prop where
  led : ∃ g, Leads (fun _ => True) ⟨s₀, .none⟩ ⟨s, g⟩
  tells : ∀ j, s.tells? j = s₀.tells? j

omit [Engine] in
/-- Two sessions that stem from one, and have an instance in common, share it. -/
theorem Session.Base.shares (base : s₀.Base b) (stems : s₀.Stems s) (stems' : s₀.Stems t)
    (inst : t.instances.get? b = s.instances.get? b) : s.Shares b t := by
  obtain ⟨g, lead⟩ := stems.led
  obtain ⟨g', lead'⟩ := stems'.led
  obtain ⟨i, there, steady⟩ := base.there
  exact lead.shares lead' base.sound base.chained there stems.tells stems'.tells steady inst

variable (never : ∀ hook, ¬ HookRule.admits hook)
include never

/-- Where no hook is ever brought along, prints lead anywhere they like. -/
theorem traced_of_never : Traced (fun _ => True) hookedPrinter :=
  Session.traced_hookedPrinter trivial fun hook admitted =>
    absurd admitted (never hook)

omit [Engine] in
/-- A session that stems from one without hooks has none. -/
theorem Session.Base.hookless (base : s₀.Base b) (stems : s₀.Stems s) : s.Hookless := by
  obtain ⟨g, lead⟩ := stems.led
  intro commons
  cases hooked : s.app.hooks.get? commons with
  | none => rfl
  | some hook => exact absurd ((lead.sound base.sound).admitted.2 commons hook hooked) (never hook)

/-! ### Calls -/

omit [HookRule] never in
/-- Whatever the code asks for during calls one after another, the budget has it. -/
def GrantedEach (v : Invoker) : List (CallRequest × List HostValue) → Session → Prop
  | [], _ => True
  | (request, args) :: rest, s =>
    v.Granted hookedPrinter s request.function args request.results ∧
      GrantedEach ((callWith hookedPrinter v request args).run s).1.2 rest
        ((callWith hookedPrinter v request args).run s).2

/-- Calls of the instance one after another end in the same way in both sessions, by induction on
what is asked for. -/
theorem callEach_alike (base : s₀.Base b) (stems : s₀.Stems s) (stems' : s₀.Stems t)
    (inst : t.instances.get? b = s.instances.get? b) {v w : Invoker} (phase : w.phase = v.phase)
    {e : Environment} (own : e.inst = b) (bound : s.environments.get? v.environment = some e)
    (bound' : t.environments.get? w.environment = some e)
    (requests : List (CallRequest × List HostValue)) (granted : GrantedEach v requests s)
    (granted' : GrantedEach w requests t) :
    ((callEach hookedPrinter w requests).run t).1 = ((callEach hookedPrinter v requests).run s).1 ∧
      ((callEach hookedPrinter w requests).run t).2.instances.get? b =
        ((callEach hookedPrinter v requests).run s).2.instances.get? b ∧
      ((callEach hookedPrinter w requests).run t).2.environments.get? w.environment =
        ((callEach hookedPrinter v requests).run s).2.environments.get? v.environment := by
  induction requests generalizing v w e s t with
  | nil => exact ⟨rfl, inst, bound'.trans bound.symm⟩
  | cons first rest ih =>
    obtain ⟨request, args⟩ := first
    have silent := (base.hookless never stems).silent
    have silent' := (base.hookless never stems').silent
    obtain ⟨result, phase, inst, back⟩ := Invoker.call_alike (base.shares stems stems' inst) silent
      silent' phase own bound bound' granted.1 granted'.1
    -- Each call leaves both sessions stemming from the same one, with the instance and the user
    -- data alike.
    have after : ∀ {u : Session} (x : Invoker) {d : Environment}, s₀.Stems u →
        Silent hookedPrinter u.app → u.environments.get? x.environment = some d →
          s₀.Stems ((callWith hookedPrinter x request args).run u).2 := by
      intro u x d ⟨⟨g, lead⟩, tells⟩ silent bound
      refine ⟨⟨g, lead.trans (Session.leads_callWith (traced_of_never never) x
        (fun _ _ => trivial) trivial request args)⟩, fun j => ?_⟩
      exact ((x.confined_call silent bound request.function args request.results).tells j).trans
        (tells j)
    obtain ⟨userData, there⟩ := v.get?_environment_call silent bound request.function args
      request.results
    have same := Session.environment_callWith hookedPrinter v request args s
    have same' := Session.environment_callWith hookedPrinter w request args t
    obtain ⟨answers, inst, last⟩ := ih (v := ((callWith hookedPrinter v request args).run s).1.2)
      (w := ((callWith hookedPrinter w request args).run t).1.2) (e := { e with userData })
      (after v stems silent bound) (after w stems' silent' bound') inst phase own
      (same.symm ▸ there) (same'.symm ▸ back.trans there) granted.2 granted'.2
    rw [same, same'] at last
    refine ⟨?_, inst, last⟩
    have head : ((callWith hookedPrinter w request args).run t).1.1 =
        ((callWith hookedPrinter v request args).run s).1.1 :=
      congrArg₂ Session.CallAnswer.mk result phase
    exact congrArg₂ List.cons head answers

end

end Embedder
