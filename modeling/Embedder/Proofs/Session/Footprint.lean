import Embedder.Proofs.Session.Naming
import Embedder.Proofs.Session.Steps

namespace Embedder

open Session (CallRequest EnvironmentStep InstanceStep BlockStep Kind Slot Slots Step Answer Payload
  act actOnBlock actOnEnvironment actOnInstance blockOf blockView callEach callWith stepWith)

/-!
# What a step leaves alone

A step that is about instances, or environments and blocks of them, uses some names and gives some.
What all other names stand for it leaves alone, and so it does with every instance to which nothing
belongs that the names stand for.

* `Step.slots?`: the names that such a step uses and gives.
* `Session.Footprint`: what a step leaves alone, and to which instances belongs what it makes.
* `footprint_stepWith`: one step.
-/

namespace Session

/-- The names of the blocks that are arguments of a call. -/
def CallRequest.blocks (r : CallRequest) : List Slot :=
  r.args.filterMap fun
    | .value _ => none
    | .block name => some ⟨.block, name⟩

/-- The calls that are asked for. -/
def EnvironmentStep.requests? : EnvironmentStep → Option (List CallRequest)
  | .call request => some [request]
  | .callDirectly request => some [request]
  | .callAll requests => some requests
  | _ => none

/-- The names that a step uses and gives, if it is about instances, or environments and blocks of
them. What tells who stands behind an environment is about more. -/
def Step.slots? : Step → Option (List Slot)
  | .inst name (.createEnvironment into _) => some [⟨.inst, name⟩, ⟨.environment, into⟩]
  | .inst name (.allocate into ..) => some [⟨.inst, name⟩, ⟨.block, into⟩]
  | .inst name (.allocateArray into ..) => some [⟨.inst, name⟩, ⟨.block, into⟩]
  | .inst name _ => some [⟨.inst, name⟩]
  | .block name (.move into) => some [⟨.block, name⟩, ⟨.block, into⟩]
  | .block name _ => some [⟨.block, name⟩]
  | .environment _ .owner => none
  | .environment name e =>
    some (⟨.environment, name⟩ :: (e.requests?.getD []).flatMap CallRequest.blocks)
  | .drop slot => if slot.kind.isLocal then some [slot] else none
  | .clone ⟨.inst, name⟩ into => some [⟨.inst, name⟩, ⟨.inst, into⟩]
  | .holders ⟨.inst, name⟩ => some [⟨.inst, name⟩]
  | _ => none

/-- What happens from one session to another one concerns some names only: what the other ones stand
for is left alone, and so is every instance to which nothing belongs that these names stand for. What
they stand for afterwards belongs to the same instances. -/
structure Footprint (l : List Slot) (s t : Session) : Prop where
  things : ∀ m, m ∉ l → t.thing? m = s.thing? m
  homes : ∀ m ∈ l, ∀ x, t.thing? m = some x →
    ∃ m' ∈ l, ∃ y, s.thing? m' = some y ∧ y.home = x.home
  instances : ∀ b, (∀ m ∈ l, ∀ x, s.thing? m = some x → x.home ≠ b) →
    t.instances.get? b = s.instances.get? b
  tells : ∀ j, t.tells? j = s.tells? j

end Session

open Session

variable {α β : Type} {s t u : Session} {l : List Slot}

/-- Where nothing happens, nothing is concerned. -/
theorem Session.Footprint.refl (l : List Slot) (s : Session) : Footprint l s s :=
  ⟨fun _ _ => rfl, fun m listed x stood => ⟨m, listed, x, stood, rfl⟩, fun _ _ => rfl, fun _ => rfl⟩

/-! ### What parts of steps leave alone -/

/-- What is confined to an instance to which something belongs that a name stands for. -/
theorem footprint_of_confined {m : Slot} (listed : m ∈ l) {x : Thing} (stood : s.thing? m = some x)
    (confined : Host.Confined {x.home} ∅ s t) : Footprint l s t := by
  have things : ∀ m, t.thing? m = s.thing? m := fun m =>
    thing?_eq_of_confined confined (by rw [confined.app]) fun _ _ => Set.notMem_empty _
  refine ⟨fun m _ => things m, fun m listed x after => ⟨m, listed, x, things m ▸ after, rfl⟩,
    fun b other => confined.instances b ?_, confined.tells⟩
  rintro rfl
  exact other m listed x stood rfl

/-- The user data of an environment changes. -/
theorem thing?_userData (distinct : s.Distinct) {name : String} {id : Nat}
    (named : s.app.names.get? ⟨.environment, name⟩ = some id) {e : Environment}
    (there : s.environments.get? id = some e) (userData : UserData) (m : Slot) :
    thing? (s.modifyEnvironment id fun e => { e with userData }) m =
      if m = ⟨.environment, name⟩ then some (.environment { e with userData }) else s.thing? m := by
  split
  case isTrue own =>
    subst own
    rw [thing?_of_named (s := s.modifyEnvironment id _) named]
    show ((s.environments.modify id _).get? id).map Thing.environment = _
    rw [Pool.get?_modify, if_pos rfl, there]
    rfl
  case isFalse other =>
    refine thing?_eq_of_confined (s.confined_modifyEnvironment id _) rfl fun i named' same => other ?_
    obtain ⟨kind, rfl⟩ := Prod.mk.injEq .. ▸ (show (m.kind, i) = (Kind.environment, id) from same)
    exact distinct named' named kind (kind ▸ rfl) (by rw [kind]; nofun)

/-- User data that is replaced concerns its environment alone, as no other name stands for it. -/
theorem footprint_userData (distinct : s.Distinct) {name : String}
    (listed : ⟨.environment, name⟩ ∈ l) {id : Nat}
    (named : s.app.names.get? ⟨.environment, name⟩ = some id) {e : Environment}
    (there : s.environments.get? id = some e) (userData : UserData) :
    Footprint l s (s.modifyEnvironment id fun e => { e with userData }) := by
  have things := thing?_userData distinct named there userData
  have stood : s.thing? ⟨.environment, name⟩ = some (.environment e) :=
    (thing?_of_named named).trans (congrArg (Option.map Thing.environment) there)
  refine ⟨fun m out => ?_, fun m member x stands => ?_, fun _ _ => rfl,
    (s.confined_modifyEnvironment id _).tells⟩
  · rw [things, if_neg]
    rintro rfl
    exact out listed
  · rw [things] at stands
    split at stands
    · cases stands
      exact ⟨_, listed, _, stood, rfl⟩
    · exact ⟨m, member, x, stands, rfl⟩

/-- An object is dropped. -/
theorem footprint_drop (tidy : s.Tidy) {slot : Slot} (plain : slot.kind.isLocal) (listed : slot ∈ l)
    {id : Nat} (named : s.app.names.get? slot = some id) :
    Footprint l s ((s.modifyNames (·.erase slot)).release slot.kind id) := by
  obtain ⟨x, there⟩ := Option.isSome_iff_exists.1 (tidy.there named plain)
  have stood : s.thing? slot = some x := (thing?_of_named named).trans there
  have confined := confined_release (s := s.modifyNames (·.erase slot)) there
  have things := thing?_drop tidy.distinct plain named there
  refine ⟨fun m out => ?_, fun m member z stands => ?_, fun b other => ?_, confined.tells⟩
  · rw [things, if_neg]
    rintro rfl
    exact out listed
  · rw [things] at stands
    split at stands
    · cases stands
    · exact ⟨m, member, z, stands, rfl⟩
  · refine confined.instances b ?_
    rintro rfl
    exact other slot listed x stood rfl

/-! ### Objects that are about to get a name -/

/-- From one session to another one, an object that belongs to an instance has become ready to get a
name. All that has happened is confined to the instance, and to a name that may have been taken away. -/
structure Session.Offers (s : Session) (gone : Option Slot) (kind : Kind) (id b : Nat)
    (u : Session) : Prop where
  things : ∀ m, u.thing? m = if gone = some m then none else s.thing? m
  instances : ∀ j, j ≠ b → u.instances.get? j = s.instances.get? j
  tells : ∀ j, u.tells? j = s.tells? j
  distinct : u.Distinct
  fresh : ∀ m, m.kind = kind → u.app.names.get? m = some id → kind = .inst
  made : ∃ y, u.object? kind id = some y ∧ y.home = b

section

variable {m : Slot} {gone : Option Slot} {kind : Kind} {id b : Nat}

/-- An object is made of an instance, or held once more. -/
theorem offers_of_confined (tidy : s.Tidy) {objects : Set (Kind × Nat)}
    (confined : Host.Confined {b} objects s u)
    (spared : ∀ m i, s.app.names.get? m = some i → (m.kind, i) ∉ objects)
    (fresh : ∀ m, m.kind = kind → s.app.names.get? m = some id → kind = .inst)
    (made : ∃ y, u.object? kind id = some y ∧ y.home = b) : s.Offers none kind id b u := by
  have names : ∀ m, u.app.names.get? m = s.app.names.get? m := fun m => by rw [confined.app]
  refine ⟨fun m => thing?_eq_of_confined confined (names m) (spared m), confined.instances,
    confined.tells, ?_, fun m same named => fresh m same ((names m).symm.trans named), made⟩
  intro m m' i named named'
  rw [names] at named named'
  exact tidy.distinct named named'

/-- An object is new, so no name stands for it yet. -/
theorem offers_of_made (tidy : s.Tidy) (plain : kind.isLocal) (fresh : s.object? kind id = none)
    (confined : Host.Confined {b} {(kind, id)} s u) {y : Thing} (there : u.object? kind id = some y)
    (home : y.home = b) : s.Offers none kind id b u := by
  have unnamed : ∀ m, m.kind = kind → s.app.names.get? m ≠ some id := by
    rintro m rfl named
    have there := tidy.there named plain
    rw [fresh] at there
    cases there
  refine offers_of_confined tidy confined ?_ (fun m same named => absurd named (unnamed m same))
    ⟨y, there, home⟩
  rintro m i named ⟨kind, rfl⟩
  exact unnamed m rfl named

/-- A name is taken away from an object, and something may happen to the object. -/
theorem offers_of_erase (tidy : s.Tidy) (plain : m.kind.isLocal) (single : m.kind ≠ .inst)
    (named : s.app.names.get? m = some id)
    (confined : Host.Confined {b} {(m.kind, id)} (s.modifyNames (·.erase m)) u)
    (made : ∃ y, u.object? m.kind id = some y ∧ y.home = b) : s.Offers (some m) m.kind id b u := by
  have names : ∀ m', u.app.names.get? m' = (s.modifyNames (·.erase m)).app.names.get? m' :=
    fun m' => by rw [confined.app]
  -- No other name stands for the object.
  have unnamed : ∀ m', m'.kind = m.kind →
      (s.modifyNames (·.erase m)).app.names.get? m' ≠ some id := by
    intro m' kind named'
    obtain ⟨other, named'⟩ := named_of_erase named'
    exact other (tidy.distinct named' named kind (kind ▸ plain) (kind ▸ single))
  refine ⟨fun m' => ?_, confined.instances, confined.tells, ?_,
    fun m' same named' => absurd ((names m').symm.trans named') (unnamed m' same), made⟩
  · simp only [Option.some.injEq, eq_comm (a := m)]
    rw [← thing?_erase]
    refine thing?_eq_of_confined confined (names m') fun i named' same => ?_
    obtain ⟨kind, rfl⟩ := Prod.mk.injEq .. ▸ (show (m'.kind, i) = (m.kind, id) from same)
    exact unnamed m' kind named'
  · intro n n' i named named'
    rw [names] at named named'
    exact tidy.distinct (named_of_erase named).2 (named_of_erase named').2

/-- What names stand for when the object gets its name. -/
theorem Session.Offers.thing?_put (offers : s.Offers gone kind id b u) (plain : kind.isLocal)
    (into : String) (m : Slot) : (u.put ⟨kind, into⟩ id).thing? m =
      if m = ⟨kind, into⟩ then u.object? kind id else u.thing? m := by
  split
  case isTrue own =>
    rw [own]
    exact thing?_put_self plain (offers.fresh _ rfl)
  case isFalse other => exact thing?_put_of_ne offers.distinct plain id other

/-- An object that belongs to an instance gets a name. -/
theorem footprint_put (offers : s.Offers gone kind id b u) (plain : kind.isLocal) {into : String}
    (source : m ∈ l) (listed : ⟨kind, into⟩ ∈ l) (inside : ∀ m, gone = some m → m ∈ l) {x : Thing}
    (stood : s.thing? m = some x) (home : x.home = b) : Footprint l s (u.put ⟨kind, into⟩ id) := by
  have kept : ∀ m z, u.thing? m = some z → s.thing? m = some z := by
    intro m z stands
    rw [offers.things] at stands
    split at stands
    · cases stands
    · exact stands
  refine ⟨fun m' out => ?_, fun m' member z stands => ?_, fun j other => ?_,
    fun j => (tells_put plain u id j).trans (offers.tells j)⟩
  · rw [offers.thing?_put plain, if_neg (by rintro rfl; exact out listed), offers.things,
      if_neg fun taken => out (inside m' taken)]
  · rw [offers.thing?_put plain] at stands
    split at stands
    · obtain ⟨y, there, belongs⟩ := offers.made
      cases there.symm.trans stands
      exact ⟨m, source, x, stood, home.trans belongs.symm⟩
    · exact ⟨m', member, z, kept m' z stands, rfl⟩
  -- What the new name stood for belongs to none of the other instances, so none of them loses it.
  · rw [instances_put plain id fun z stands => other ⟨kind, into⟩ listed z (kept _ z stands)]
    refine offers.instances j ?_
    rintro rfl
    exact other m source x stood home

end

/-! ### Parts of steps that go by one instance -/

/-- A part of a step goes by one instance, and changes nothing but this instance. -/
structure SessionM.Local (id : Nat) (x : SessionM α) : Prop where
  like : ∀ {n : Nat} {s t : Session},
    Option.Rel (Counted.Like n) (s.instances.get? id) (t.instances.get? id) →
      (x.run.run t).1 = (x.run.run s).1 ∧ Option.Rel (Counted.Like n)
        ((x.run.run s).2.instances.get? id) ((x.run.run t).2.instances.get? id)
  alone : ∀ s : Session, ∃ p, (x.run.run s).2 = { s with instances := p } ∧ s.instances.Aside id p

/-- In two sessions with the instance in common, such a part of a step ends in the same way. -/
theorem SessionM.Local.alike {id : Nat} {x : SessionM α} (own : SessionM.Local id x)
    {s t : Session} (same : t.instances.get? id = s.instances.get? id) :
    (x.run.run t).1 = (x.run.run s).1 ∧
      (x.run.run t).2.instances.get? id = (x.run.run s).2.instances.get? id := by
  obtain ⟨ended, after⟩ := own.like (Counted.rel_like_zero.2 same)
  exact ⟨ended, Counted.rel_like_zero.1 after⟩

/-- What goes by one instance is confined to it. -/
theorem SessionM.Local.confined {id : Nat} {x : SessionM α} (own : SessionM.Local id x)
    (s : Session) : Host.Confined {id} ∅ s (x.run.run s).2 := by
  obtain ⟨p, after, aside⟩ := own.alone s
  rw [after]
  exact Host.confined_instances s aside.others

section

variable {id : Nat}

/-- To return something goes by no instance. -/
theorem local_done (a : α) : SessionM.Local id (pure a) :=
  ⟨fun same => ⟨rfl, same⟩, fun s => ⟨s.instances, rfl, .refl _⟩⟩

/-- To miss something goes by no instance. -/
theorem local_failure : SessionM.Local id (failure : SessionM α) :=
  ⟨fun same => ⟨rfl, same⟩, fun s => ⟨s.instances, rfl, .refl _⟩⟩

/-- What is found goes on to go by the instance. -/
theorem local_found_bind (a : Option α) {f : α → SessionM β} (rest : ∀ a, SessionM.Local id (f a)) :
    SessionM.Local id (SessionM.ofOption a >>= f) := by
  cases a with
  | none => exact local_failure
  | some a => exact rest a

/-- What needs an array, or needs none. -/
theorem local_unless {c : Prop} [Decidable c] {x : Unit → SessionM α}
    (rest : SessionM.Local id (x ())) : SessionM.Local id (if c then failure >>= x else x ()) := by
  split
  · exact local_failure
  · exact rest

/-- What is answered to an operation goes by what the operation goes by. -/
theorem local_told {op : HostM Slots α} (own : Local id op) (told : Except Error α → Option β) :
    SessionM.Local id (SessionM.host op >>= fun ended => SessionM.ofOption (told ended)) where
  like := by
    intro n s t same
    obtain ⟨ended, after⟩ := own.like same
    refine ⟨?_, after⟩
    show told (exec op t).1 = told (exec op s).1
    rw [ended]
  alone s := own.alone s

/-- An operation on one instance, whose result is the answer. -/
theorem local_answer (view : α → Payload) {op : HostM Slots α} (own : Local id op) :
    SessionM.Local id (SessionM.answer view op) :=
  local_told own fun ended => some (Answer.result (ended.map view))

/-- So it is with an operation that may panic. -/
theorem local_attempt (view : α → Payload) {op : HostM Slots (Attempt α)} (own : Local id op) :
    SessionM.Local id (SessionM.attempt view op) :=
  local_told own (SessionM.attempted? view)

end

/-- Literals are written to the instance that the block is in. -/
theorem local_writeLiterals (b : Block) (contents : Session.Contents) :
    SessionM.Local b.inst (Session.writeLiterals b contents) := by
  unfold Session.writeLiterals
  cases contents with
  | one l =>
    exact local_unless (local_found_bind _ fun d => local_answer _ (local_writeValue b d))
  | all ls =>
    exact local_unless (local_found_bind _ fun ds => local_attempt _ (local_writeAll b ds))

/-! ### Parts of steps -/

/-- A part of a step concerns some names only, whether it finds its objects or not. -/
def Heeds (l : List Slot) (x : SessionM α) (s : Session) : Prop :=
  Yields x s (fun _ t => Footprint l s t) fun t => Footprint l s t

/-- To return something concerns nothing. -/
theorem heeds_pure (a : α) : Heeds l (pure a) s := .refl l s

/-- To look something up first concerns nothing more. -/
theorem heeds_bind_of_same {x : SessionM α} {f : α → SessionM β} {P : α → Prop}
    (first : Yields x s (fun a t => t = s ∧ P a) fun t => t = s)
    (rest : ∀ a, P a → Heeds l (f a) s) : Heeds l (x >>= f) s := by
  refine yields_bind (first.mono (fun _ _ found => found) fun _ same => same ▸ Footprint.refl l s) ?_
  rintro a _ ⟨rfl, found⟩
  exact rest a found

/-- To look up a name first concerns nothing more. -/
theorem heeds_find {kind : Kind} {name : String} {f : Nat → SessionM α}
    (rest : ∀ id, s.app.names.get? ⟨kind, name⟩ = some id → Heeds l (f id) s) :
    Heeds l (SessionM.find kind name >>= f) s :=
  heeds_bind_of_same (yields_find.2 ⟨fun _ named => ⟨rfl, named⟩, fun _ => rfl⟩) rest

/-- Nor does to miss something. -/
theorem heeds_ofOption {a : Option α} {f : α → SessionM β}
    (rest : ∀ v, a = some v → Heeds l (f v) s) : Heeds l (SessionM.ofOption a >>= f) s :=
  heeds_bind_of_same (yields_ofOption.2 ⟨fun _ found => ⟨rfl, found⟩, fun _ => rfl⟩) rest

/-- What goes by one instance concerns the names of what belongs to it. -/
theorem heeds_local {m : Slot} (listed : m ∈ l) {y : Thing} (stood : s.thing? m = some y)
    {x : SessionM α} (own : SessionM.Local y.home x) : Heeds l x s :=
  yields_snd.2 (footprint_of_confined listed stood (own.confined s))

/-- What is made of an instance gets a name. -/
theorem heeds_create (tidy : s.Tidy) {kind : Kind} {into : String} {m : Slot}
    (plain : kind.isLocal) (source : m ∈ l) (listed : ⟨kind, into⟩ ∈ l) {x : Thing}
    (stood : s.thing? m = some x) {op : HostM Slots Nat} (makes : Makes kind x.home op)
    {view : Nat → SessionM Payload}
    (shows : ∀ id t, (t.object? kind id).isSome → Shows view id t) :
    Heeds l (SessionM.create kind into op view) s := by
  simp only [Heeds, SessionM.create, yields_bind_iff, yields_host]
  have made := makes s
  unfold Ends at made
  generalize exec op s = r at made ⊢
  obtain ⟨e | id, t⟩ := r
  · exact footprint_of_confined source stood made
  · obtain ⟨fresh, confined, y, there, home⟩ := made
    refine yields_bind ((shows id t (by rw [there]; rfl)).mono (fun _ _ h => h)
      fun _ => False.elim) ?_
    rintro shown _ rfl
    exact footprint_put (offers_of_made tidy plain fresh confined there home) plain source listed
      nofun stood rfl

/-! ### Steps about instances and blocks -/

/-- Whether something new is asked of an instance. -/
def Session.InstanceStep.makes : InstanceStep → Bool
  | .createEnvironment .. | .allocate .. | .allocateArray .. => true
  | _ => false

/-- What else is asked of an instance goes by the instance alone. -/
theorem actOnInstance_of_not_makes {i : InstanceStep} (plain : i.makes = false) (name : String) :
    (Step.inst name i).slots? = some [⟨.inst, name⟩] ∧ ∃ x : Nat → SessionM Answer,
      (∀ id, SessionM.Local id (x id)) ∧
        actOnInstance name i = SessionM.find .inst name >>= x := by
  cases i with
  | createEnvironment => cases plain
  | allocate => cases plain
  | allocateArray => cases plain
  | getGlobal global type => exact ⟨rfl, _, fun _ => local_answer _ (local_getGlobal _ _), rfl⟩
  | setGlobal global value => exact ⟨rfl, _, fun _ => local_answer _ (local_setGlobal _ _), rfl⟩
  | memorySize => exact ⟨rfl, _, fun _ => local_answer _ local_memorySize, rfl⟩
  | heapStats => exact ⟨rfl, _, fun _ => local_answer _ local_heapStats, rfl⟩
  | hasException => exact ⟨rfl, _, fun _ => local_answer _ local_exception?, rfl⟩
  | exceptionMessage => exact ⟨rfl, _, fun _ => local_answer _ local_exception?, rfl⟩
  | exception => exact ⟨rfl, _, fun _ => local_answer _ local_exception?, rfl⟩
  | clearException => exact ⟨rfl, _, fun _ => local_answer _ local_clearException, rfl⟩
  | setException fault => exact ⟨rfl, _, fun _ => local_answer _ (local_setException _), rfl⟩
  | readCounter => exact ⟨rfl, _, fun _ => local_answer _ (local_getUInt64 _), rfl⟩
  | readCounters => exact ⟨rfl, _, fun _ => local_answer _ local_readCounters, rfl⟩
  | resetCounters => exact ⟨rfl, _, fun _ => local_answer _ local_resetCounters, rfl⟩

/-- What is asked of a block goes by the instance of the block alone, unless the block gets another
name. -/
theorem actOnBlock_of_not_move {b : BlockStep} (stays : ∀ into, b ≠ .move into) (name : String) :
    (Step.block name b).slots? = some [⟨.block, name⟩] ∧ ∃ x : Block → SessionM Answer,
      (∀ block, SessionM.Local block.inst (x block)) ∧ actOnBlock name b = blockOf name >>= x := by
  cases b with
  | read =>
    refine ⟨rfl, _, fun block => ?_, rfl⟩
    dsimp only
    split
    · exact local_answer _ (local_readValue block)
    · exact local_attempt _ (local_readAll block)
  | write contents => exact ⟨rfl, _, fun block => local_writeLiterals block contents, rfl⟩
  | get index =>
    exact ⟨rfl, _, fun block => local_unless (local_answer _ (local_getElement block index)), rfl⟩
  | set index value =>
    exact ⟨rfl, _, fun block => local_unless (local_found_bind _ fun d =>
      local_answer _ (local_setElement block index d)), rfl⟩
  | address => exact ⟨rfl, _, fun _ => local_done _, rfl⟩
  | move into => exact absurd rfl (stays into)

/-- A block that a name stands for can be shown. -/
theorem shows_block {id : Nat} {t : Session} (there : (t.object? .block id).isSome) :
    Shows blockView id t :=
  shows_blockView (Option.isSome_map ▸ there)

/-- What is asked of an instance concerns its name, and that of what is made. -/
theorem heeds_actOnInstance (tidy : s.Tidy) (name : String) (i : InstanceStep)
    (about : (Step.inst name i).slots? = some l) : Heeds l (actOnInstance name i) s := by
  have stood : ∀ {id}, s.app.names.get? ⟨.inst, name⟩ = some id →
      s.thing? ⟨.inst, name⟩ = some (.inst id) := thing?_of_named
  -- What makes an object has two names to it; all else has one and is about the instance alone.
  cases makes : i.makes with
  | false =>
    obtain ⟨slots, x, own, acts⟩ := actOnInstance_of_not_makes makes name
    cases slots.symm.trans about
    rw [acts]
    exact heeds_find fun id named => heeds_local (by simp) (stood named) (own id)
  | true =>
    cases i with
    | createEnvironment into stack =>
      cases about
      exact heeds_find fun id named => heeds_create tidy rfl (by simp) (by simp) (stood named)
        (makes_createEnvironment id stack) fun _ _ _ => rfl
    | allocate into type value =>
      cases about
      exact heeds_find fun id named => heeds_ofOption fun d _ => heeds_create tidy rfl (by simp)
        (by simp) (stood named) (numbers_allocate type d).makes fun _ _ => shows_block
    | allocateArray into type count =>
      cases about
      exact heeds_find fun id named => heeds_create tidy rfl (by simp) (by simp) (stood named)
        (numbers_allocateArray type count).makes fun _ _ => shows_block
    | _ => cases makes

/-- The block of a name. -/
theorem yields_blockOf_thing {name : String} :
    Yields (blockOf name) s (fun b t => t = s ∧ s.thing? ⟨.block, name⟩ = some (.block b))
      fun t => t = s := by
  simp only [blockOf, yields_bind_iff, yields_get, yields_find, yields_ofOption]
  refine ⟨fun id named => ⟨fun b there => ⟨trivial, ?_⟩, fun _ => trivial⟩, fun _ => trivial⟩
  rw [thing?_of_named named]
  exact congrArg (Option.map Thing.block) there

/-- What is asked of a block concerns its name. -/
theorem heeds_actOnBlock (tidy : s.Tidy) (name : String) (b : BlockStep)
    (about : (Step.block name b).slots? = some l) : Heeds l (actOnBlock name b) s := by
  by_cases moves : ∃ into, b = .move into
  · obtain ⟨into, rfl⟩ := moves
    cases about
    refine heeds_bind_of_same yields_blockOf_thing fun block stood => heeds_find fun id named => ?_
    simp only [Heeds, yields_bind_iff, yields_modify, yields_keep, yields_pure]
    have offers := offers_of_erase tidy (m := ⟨.block, name⟩) rfl (by simp) named (.refl _)
      ⟨_, (thing?_of_named named).symm.trans stood, rfl⟩
    exact footprint_put offers rfl (by simp) (by simp) (by simp) stood rfl
  · obtain ⟨slots, x, own, acts⟩ := actOnBlock_of_not_move (fun into eq => moves ⟨into, eq⟩) name
    cases slots.symm.trans about
    rw [acts]
    exact heeds_bind_of_same yields_blockOf_thing fun block stood =>
      heeds_local (by simp) stood (own block)

/-! ### Steps about environments -/

/-- No print runs steps. -/
def Session.Hookless (s : Session) : Prop :=
  ∀ commons, s.app.hooks.get? commons = none

/-- Without hooks, nothing that is printed runs anything. -/
theorem Session.Hookless.silent [Engine] (hookless : s.Hookless) : Silent hookedPrinter s.app := by
  intro commons bytes t same
  have none : (Host.emit commons bytes t).app.hooks.get? commons = none := by
    show t.app.hooks.get? commons = none
    rw [same]
    exact hookless commons
  unfold hookedPrinter
  dsimp only
  rw [none]

/-- Calls through an environment are confined to it and its instance, and change nothing of it but the
user data, by induction on what is asked for. -/
theorem confined_callEach [Engine] {printer : Printer Slots} (silent : Silent printer s.app)
    {v : Invoker} {e : Environment} (bound : s.environments.get? v.environment = some e)
    (requests : List (CallRequest × List HostValue)) :
    Host.Confined {e.inst} {(.environment, v.environment)} s
        ((callEach printer v requests).run s).2 ∧
      ∃ userData, ((callEach printer v requests).run s).2.environments.get? v.environment =
        some { e with userData } := by
  induction requests generalizing v e s with
  | nil => exact ⟨.refl s, e.userData, bound⟩
  | cons first rest ih =>
    obtain ⟨request, args⟩ := first
    have same := environment_callWith printer v request args s
    have called : Host.Confined {e.inst} {(.environment, v.environment)} s
        ((callWith printer v request args).run s).2 :=
      v.confined_call silent bound request.function args request.results
    obtain ⟨userData, back⟩ := v.get?_environment_call silent bound request.function args
      request.results
    -- The next call finds the environment as the last one left it, so the induction is on all
    -- environments.
    have others := ih (called.app.symm ▸ silent) (v := ((callWith printer v request args).run s).1.2)
      (e := { e with userData }) (same ▸ back)
    rw [same] at others
    obtain ⟨confined, userData', after⟩ := others
    exact ⟨called.trans confined, userData', after⟩

/-- An environment has no name while something happens to it and to its instance. -/
theorem heeds_away (tidy : s.Tidy) {name : String} (listed : ⟨.environment, name⟩ ∈ l)
    {x : Nat → SessionM α}
    (acts : ∀ id e, s.environments.get? id = some e →
      Host.Confined {e.inst} {(.environment, id)} (s.modifyNames (·.erase ⟨.environment, name⟩))
          ((x id).run.run (s.modifyNames (·.erase ⟨.environment, name⟩))).2 ∧
        ∃ userData, ((x id).run.run (s.modifyNames (·.erase ⟨.environment, name⟩))).2.environments.get?
          id = some { e with userData }) :
    Heeds l (SessionM.away .environment name x) s := by
  simp only [Heeds, SessionM.away, yields_bind_iff, yields_find, yields_modify, yields_lift,
    yields_keep, yields_ofOption]
  refine ⟨fun id named => ?_, fun _ => .refl l s⟩
  obtain ⟨y, there⟩ := Option.isSome_iff_exists.1 (tidy.there named rfl)
  obtain ⟨e, present, rfl⟩ := Option.map_eq_some_iff.1 there
  obtain ⟨confined, userData, after⟩ := acts id e present
  have offers := offers_of_erase tidy (m := ⟨.environment, name⟩) rfl (by simp) named confined
    ⟨_, congrArg (Option.map Thing.environment) after, rfl⟩
  have footprint : Footprint l s (Session.put _ ⟨.environment, name⟩ id) :=
    footprint_put offers rfl listed listed (fun m same => Option.some.inj same ▸ listed)
      ((thing?_of_named named).trans there) rfl
  exact ⟨fun _ _ => footprint, fun _ => footprint⟩

/-- The environment of a name. -/
theorem yields_environmentOf_there {name : String} :
    Yields (Session.environmentOf name) s
      (fun found t => t = s ∧ s.app.names.get? ⟨.environment, name⟩ = some found.1 ∧
        s.environments.get? found.1 = some found.2) fun t => t = s := by
  simp only [Session.environmentOf, yields_bind_iff, yields_find, yields_get, yields_ofOption,
    yields_pure]
  exact ⟨fun id named => ⟨fun _ there => ⟨trivial, named, there⟩, fun _ => trivial⟩, fun _ => trivial⟩

/-- User data is replaced in the environment of the name. -/
theorem heeds_replaceUserData (tidy : s.Tidy) {name : String} (listed : ⟨.environment, name⟩ ∈ l)
    {id : Nat} {e : Environment} (named : s.app.names.get? ⟨.environment, name⟩ = some id)
    (there : s.environments.get? id = some e) (userData : Except Error UserData)
    (shown : UserData → Payload) : Heeds l (Session.replaceUserData id userData shown) s := by
  unfold Session.replaceUserData
  split
  · exact heeds_pure _
  · exact footprint_userData tidy.distinct listed named there _

/-- What is passed in calls. -/
def argumentsOf (requests : List CallRequest) : SessionM (List (List HostValue)) :=
  requests.mapM fun r => r.args.mapM Session.argumentValue

/-- Each request gets its arguments, and nothing changes. -/
theorem yields_argumentsOf (requests : List CallRequest) :
    Yields (argumentsOf requests) s (fun args t => t = s ∧ args.length = requests.length)
      fun t => t = s :=
  (Session.yields_mapM _ fun _ => Session.yields_mapM _ Session.yields_argumentValue).mono
    (fun _ _ found => ⟨found.1, found.2.length_eq.symm⟩) fun _ same => same

/-- A single call takes its arguments from the one request. -/
theorem argumentsOf_singleton (request : CallRequest) (f : List (List HostValue) → SessionM α) :
    argumentsOf [request] >>= f =
      request.args.mapM Session.argumentValue >>= fun args => f [args] := by
  simp only [argumentsOf, List.mapM_cons, List.mapM_nil, pure_bind, bind_assoc]

variable [Engine]

/-- A step that asks for calls makes them one after another, and its answer says how they ended. -/
theorem actOnEnvironment_of_requests (printer : Printer Slots) {e : EnvironmentStep}
    {requests : List CallRequest} (calls : e.requests? = some requests) (name : String) :
    ∃ (f : List Session.CallAnswer → Answer) (x : List (List HostValue) → Nat → SessionM Answer),
      actOnEnvironment printer name e =
        argumentsOf requests >>= (fun args => SessionM.away .environment name (x args)) ∧
      ∀ args id (u : Session), args.length = requests.length → (x args id).run.run u =
        (some (f ((callEach printer (.ofEnvironment id) (requests.zip args)).run u).1),
          ((callEach printer (.ofEnvironment id) (requests.zip args)).run u).2) := by
  -- Three ways to ask for calls; they differ in how they put what the calls return.
  cases e with
  | call request =>
    cases calls
    refine ⟨fun cs => ((cs.head?).map Answer.called).getD .absent, fun args id => do
      let ended ← OptionT.lift (callWith printer (.ofEnvironment id) request (args.headD []))
      pure (.called ended.1), ?_, ?_⟩
    · rw [argumentsOf_singleton]
      rfl
    · rintro (_ | ⟨args, _ | _⟩) id u same <;> cases same
      rfl
  | callDirectly request =>
    cases calls
    refine ⟨fun cs => ((cs.head?).map fun c => .result (c.result.map singleResult)).getD .absent,
      fun args id => SessionM.answer singleResult (HostM.call printer id request.function
        (args.headD []) request.results), ?_, ?_⟩
    · rw [argumentsOf_singleton]
      rfl
    · rintro (_ | ⟨args, _ | _⟩) id u same <;> cases same
      have answered : (SessionM.answer singleResult (HostM.call printer id request.function args
          request.results)).run.run u =
            (some (.result ((exec (HostM.call printer id request.function args request.results)
              u).1.map singleResult)), (exec (HostM.call printer id request.function args
                request.results) u).2) := rfl
      show (SessionM.answer singleResult (HostM.call printer id request.function args
          request.results)).run.run u = _
      rw [answered, exec_call]
      rfl
  | callAll requests' =>
    cases calls
    exact ⟨.calledAll, fun args id => do
      let results ← OptionT.lift (callEach printer (.ofEnvironment id) (requests.zip args))
      pure (.calledAll results), rfl, fun _ _ _ _ => rfl⟩
  | _ => cases calls

/-- What is asked of an environment concerns its name, and those of the blocks that are passed. -/
theorem heeds_actOnEnvironment (tidy : s.Tidy) (hookless : s.Hookless) (name : String)
    (e : EnvironmentStep) (about : (Step.environment name e).slots? = some l) :
    Heeds l (actOnEnvironment hookedPrinter name e) s := by
  have silent : Silent hookedPrinter (s.modifyNames (·.erase ⟨.environment, name⟩)).app :=
    Session.Hookless.silent (s := s.modifyNames _) hookless
  -- Calls run guest code; the other steps read or replace user data.
  cases calls : e.requests? with
  | some requests =>
    have listed : ⟨.environment, name⟩ ∈ l := by
      cases e <;> cases about <;> simp
    obtain ⟨f, x, acts, run⟩ := actOnEnvironment_of_requests hookedPrinter calls name
    rw [acts]
    refine heeds_bind_of_same (yields_argumentsOf requests) fun args same => ?_
    refine heeds_away tidy listed fun id e there => ?_
    rw [run args id _ same]
    exact confined_callEach silent (v := .ofEnvironment id) there _
  | none =>
    cases e with
    | userData =>
      exact heeds_bind_of_same yields_environmentOf_there fun _ _ => heeds_pure _
    | setUserData eventId payload =>
      cases about
      exact heeds_bind_of_same yields_environmentOf_there fun found there =>
        heeds_replaceUserData tidy (by simp) there.1 there.2 _ _
    | editUserData edit =>
      cases about
      exact heeds_bind_of_same yields_environmentOf_there fun found there =>
        heeds_replaceUserData tidy (by simp) there.1 there.2 _ _
    | owner => cases about
    | _ => cases calls

/-! ### All steps -/

/-- **Footprints.** A step about some names leaves alone what all other names stand for, and all
instances to which nothing belongs that these names stand for. -/
theorem footprint_stepWith (tidy : s.Tidy) (hookless : s.Hookless) {st : Step}
    (about : st.slots? = some l) : Footprint l s (stepWith hookedPrinter st s).2 := by
  rw [stepWith_snd]
  -- A step is run in a monad of lookups that may be absent; it is enough to look at what it does
  -- there.
  suffices heeds : Heeds l (act hookedPrinter st) s from yields_snd.1 heeds
  cases st with
  | inst name i => exact heeds_actOnInstance tidy name i about
  | block name b => exact heeds_actOnBlock tidy name b about
  | environment name e => exact heeds_actOnEnvironment tidy hookless name e about
  | drop slot =>
    simp only [Step.slots?] at about
    split at about
    case isFalse => cases about
    case isTrue plain =>
      cases about
      refine heeds_find fun id named => ?_
      simp only [Heeds, yields_bind_iff, yields_modify, yields_pure]
      exact footprint_drop tidy plain (by simp) named
  | clone slot into =>
    obtain ⟨kind, name⟩ := slot
    cases kind <;> cases about
    refine heeds_find fun id named => ?_
    simp only [Heeds, yields_bind_iff, yields_modify, yields_keep, yields_pure]
    have offers := offers_of_confined tidy (Host.confined_retainInstance s id)
      (fun _ _ _ => Set.notMem_empty _) (fun _ _ _ => rfl) ⟨_, rfl, rfl⟩
    exact footprint_put offers rfl (by simp) (by simp) (by simp) (thing?_of_named named) rfl
  | holders slot =>
    obtain ⟨kind, name⟩ := slot
    cases kind <;> cases about
    refine heeds_find fun id named => ?_
    refine heeds_bind_of_same (P := fun t => t = s) (yields_get.2 ⟨rfl, rfl⟩) fun t _ => ?_
    exact heeds_ofOption fun n _ => heeds_pure _
  | _ => cases about

end Embedder
