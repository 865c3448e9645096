import Embedder.Proofs.Host.Local
import Embedder.Proofs.Host.Lockstep

namespace Embedder

open Session (Kind)

/-!
# Hosts that are alike

Two hosts have the same objects under the same numbers. What was printed may be different in them, and
so may be the applications that embed them, and the first one may have more holders of some objects.
The same change of both keeps them alike, until an object is gone from the second one that has more
holders in the first.

* `Pool.Like`, `Pool.Gone`: pools with related values, and numbers that stand for nothing any more.
* `Difference`, `Host.Like`: in what hosts may differ, and hosts that differ in nothing else.
* `Host.Lost`: whether an object is gone that has more holders in the other host.
* `Fair`: changes that keep hosts alike, with `fair_releaseInstance` and `fair_dropRunner`.
* `Shelf`: the pools whose objects can have several holders, each a part of hosts in the same way.
-/

/-! ### Pools -/

namespace Pool

variable {α β : Type} {rel : Nat → α → β → Prop} {p : Pool α} {q : Pool β}

/-- Two pools hand out the same numbers, and have related values under them. -/
structure Like (rel : Nat → α → β → Prop) (p : Pool α) (q : Pool β) : Prop where
  next : q.next = p.next
  get : ∀ id, Option.Rel (rel id) (p.get? id) (q.get? id)

/-- A pool is like itself, as long as every value is related to itself. -/
theorem Like.refl {rel : Nat → α → α → Prop} (p : Pool α) (same : ∀ id a, rel id a a) :
    p.Like rel p where
  next := rfl
  get id := by
    cases p.get? id with
    | none => exact .none
    | some a => exact .some (same id a)

/-- Related values get the same number. -/
theorem Like.insert (like : p.Like rel q) {a : α} {b : β} (new : rel p.next a b) :
    (p.insert a).1.Like rel (q.insert b).1 where
  next := congrArg (· + 1) like.next
  get id := by
    rw [get?_insert, get?_insert, like.next]
    split
    case isTrue same => exact .some (same ▸ new)
    case isFalse => exact like.get id

/-- A number that is given up in both pools is given up alike. -/
theorem Like.erase (like : p.Like rel q) (j : Nat) : (p.erase j).Like rel (q.erase j) where
  next := like.next
  get id := by
    rw [get?_erase, get?_erase]
    split
    · exact .none
    · exact like.get id

/-- The values of a number change alike, if the changes keep them related. -/
theorem Like.modify (like : p.Like rel q) {j : Nat} {f : α → α} {g : β → β}
    (keeps : ∀ a b, rel j a b → rel j (f a) (g b)) : (p.modify j f).Like rel (q.modify j g) where
  next := by rw [next_modify, next_modify, like.next]
  get id := by
    rw [get?_modify, get?_modify]
    split
    case isTrue same =>
      subst same
      have found := like.get id
      generalize p.get? id = a at found ⊢
      generalize q.get? id = b at found ⊢
      cases found with
      | some related => exact .some (keeps _ _ related)
      | none => exact .none
    case isFalse => exact like.get id

/-- Pools that differ in one place from pools that are alike are so, too, if they are in that place. -/
theorem Like.aside {p' : Pool α} {q' : Pool β} {id : Nat} (like : p.Like rel q)
    (aside : p.Aside id p') (aside' : q.Aside id q')
    (place : Option.Rel (rel id) (p'.get? id) (q'.get? id)) : p'.Like rel q' where
  next := aside'.next.trans (like.next.trans aside.next.symm)
  get j := by
    by_cases other : j = id
    · exact other ▸ place
    · rw [aside.others j other, aside'.others j other]
      exact like.get j

/-- Two pools have the same under the same numbers, but the first one counts more holders of what some
of the numbers handed out stand for. -/
structure Holding (more : Nat → Nat) (p q : Pool (Counted α)) : Prop
    extends p.Like (fun id => Counted.Like (more id)) q where
  old : ∀ id, p.next ≤ id → more id = 0

namespace Holding

/-- A pool has as many holders as it has. -/
theorem refl (p : Pool (Counted α)) : p.Holding 0 p :=
  ⟨⟨rfl, fun _ => Counted.rel_like_zero.2 rfl⟩, fun _ _ => rfl⟩

variable {more : Nat → Nat} {p q : Pool (Counted α)} (holding : p.Holding more q)
include holding

/-- A value that is put into both pools has as many holders in both. -/
theorem insert (c : Counted α) : (p.insert c).1.Holding more (q.insert c).1 where
  toLike := holding.toLike.insert ⟨rfl, by rw [holding.old _ (Nat.le_refl _), Nat.add_zero]⟩
  old id le := holding.old id (Nat.le_of_succ_le le)

/-- What is taken out of both pools leaves the other holders as they were. -/
theorem erase (j : Nat) : (p.erase j).Holding more (q.erase j) :=
  ⟨holding.toLike.erase j, holding.old⟩

/-- A change of a counted value that keeps the difference of its holders. -/
theorem modify {j : Nat} {f g : Counted α → Counted α}
    (keeps : ∀ c c' : Counted α, c.Like (more j) c' → (f c).Like (more j) (g c')) :
    (p.modify j f).Holding more (q.modify j g) :=
  ⟨holding.toLike.modify keeps, fun id le => holding.old id (p.next_modify j f ▸ le)⟩

/-- Pools that are changed in one place count holders as before, if they do so in that place. -/
theorem aside {p' q' : Pool (Counted α)} {id : Nat} (aside : p.Aside id p') (aside' : q.Aside id q')
    (place : Option.Rel (Counted.Like (more id)) (p'.get? id) (q'.get? id)) :
    p'.Holding more q' :=
  ⟨holding.toLike.aside aside aside' place, fun id le => holding.old id (aside.next ▸ le)⟩

end Holding

/-- A number was handed out, and stands for nothing any more. -/
def Gone (p : Pool α) (id : Nat) : Prop :=
  id < p.next ∧ p.get? id = none

variable {id : Nat}

/-- A number that is gone is not handed out again. -/
theorem Gone.insert (gone : p.Gone id) (a : α) : (p.insert a).1.Gone id := by
  refine ⟨Nat.lt_succ_of_lt gone.1, ?_⟩
  rw [get?_insert, if_neg (Nat.ne_of_lt gone.1)]
  exact gone.2

/-- What is gone stays gone when something else is taken out. -/
theorem Gone.erase (gone : p.Gone id) (j : Nat) : (p.erase j).Gone id := by
  refine ⟨gone.1, ?_⟩
  rw [get?_erase]
  split
  · rfl
  · exact gone.2

/-- What is gone is not there to be changed. -/
theorem Gone.modify (gone : p.Gone id) (j : Nat) (f : α → α) : (p.modify j f).Gone id := by
  refine ⟨by rw [next_modify]; exact gone.1, ?_⟩
  rw [get?_modify, gone.2]
  split <;> rfl

/-- What is gone stays gone in a pool that has the same numbers. -/
theorem Gone.aside {q : Pool α} {j : Nat} (gone : p.Gone id) (aside : p.Aside j q) : q.Gone id := by
  refine ⟨by rw [aside.next]; exact gone.1, ?_⟩
  by_cases same : id = j
  · subst same
    have there := aside.there
    rw [gone.2] at there
    exact Option.isNone_iff_eq_none.1 (by simpa using there)
  · rw [aside.others id same]
    exact gone.2

/-- What is taken out is gone. -/
theorem gone_erase {a : α} (there : p.get? id = some a) : (p.erase id).Gone id :=
  ⟨(lt_next_of_get?_eq_some there : id < p.next), by rw [get?_erase, if_pos rfl]⟩

end Pool

/-! ### Hosts -/

/-- In what two hosts may differ: how many more holders of each object the first one has, how their
outputs are related, and how their applications are. The same print to both keeps outputs related. The
application of the second host is one of those that are `calm`. -/
structure Difference (σ : Type) where
  more : Holds
  output : Nat → Output → Output → Prop
  app : σ → σ → Prop
  calm : σ → Prop
  calms : ∀ {a b : σ}, app a b → calm b
  printed : ∀ {commons : Nat} {o o' : Output}, output commons o o' →
    ∀ bytes, output commons (o.print bytes) (o'.print bytes)

/-- Guests share the same, but for what was printed. -/
structure Commons.Like (rel : Output → Output → Prop) (c d : Commons) : Prop where
  budget : d.budget = c.budget
  clock : d.clock = c.clock
  output : rel c.output d.output

/-- Commons that are alike are the same, once their outputs are. -/
theorem Commons.eq_of_like {rel : Output → Output → Prop} {c c' : Commons} (like : c.Like rel c')
    (output : c'.output = c.output) : c' = c := by
  obtain ⟨budget, clock, -⟩ := like
  cases c
  cases c'
  cases budget
  cases clock
  cases output
  rfl

variable {σ : Type} {d : Difference σ} {h k : Host σ}

namespace Host

/-- Two hosts are the same, up to a difference. -/
structure Like (d : Difference σ) (h k : Host σ) : Prop where
  commons : h.commons.Like (fun id => Commons.Like (d.output id)) k.commons
  runtimes : h.runtimes.Holding (d.more .runtime) k.runtimes
  modules : h.modules.Holding (d.more .module) k.modules
  instances : h.instances.Holding (d.more .inst) k.instances
  environments : k.environments = h.environments
  blocks : k.blocks = h.blocks
  runners : k.runners = h.runners
  released : k.released = h.released
  app : d.app h.app k.app

/-- An object that can have several holders is gone. -/
def Gone (h : Host σ) : Kind → Nat → Prop
  | .runtime, id => h.runtimes.Gone id
  | .module, id => h.modules.Gone id
  | .inst, id => h.instances.Gone id
  | _, _ => False

/-- An object is gone that has more holders in the other host, though the application is still one of
those that are calm. -/
structure Lost (d : Difference σ) (h : Host σ) : Prop where
  calm : d.calm h.app
  gone : ∃ kind id, 0 < d.more kind id ∧ h.Gone kind id

/-- What is gone stays so. -/
theorem Lost.mono (lost : h.Lost d) (app : k.app = h.app)
    (runtimes : ∀ id, h.runtimes.Gone id → k.runtimes.Gone id)
    (modules : ∀ id, h.modules.Gone id → k.modules.Gone id)
    (instances : ∀ id, h.instances.Gone id → k.instances.Gone id) : k.Lost d := by
  obtain ⟨calm, kind, id, pos, gone⟩ := lost
  refine ⟨app ▸ calm, kind, id, pos, ?_⟩
  cases kind with
  | runtime => exact runtimes id gone
  | module => exact modules id gone
  | inst => exact instances id gone
  | _ => exact gone

/-- Where the first host has no more holders, nothing is ever lost. -/
theorem not_lost (none : d.more = 0) : ¬ h.Lost d := by
  rintro ⟨-, kind, id, pos, -⟩
  rw [none] at pos
  exact Nat.lt_irrefl 0 pos

/-! ### Look-ups -/

namespace Like

variable (like : h.Like d k)
include like

/-- Runtimes are found in both hosts, whoever holds them. -/
theorem runtime? (id : Nat) : k.runtime? id = h.runtime? id :=
  Counted.map_value_of_rel (like.runtimes.get id)

/-- Modules are found in both hosts, whoever holds them. -/
theorem module? (id : Nat) : k.module? id = h.module? id :=
  Counted.map_value_of_rel (like.modules.get id)

/-- Instances are found in both hosts, whoever holds them. -/
theorem instance? (id : Nat) : k.instance? id = h.instance? id :=
  Counted.map_value_of_rel (like.instances.get id)

/-- What is said of some commons is said of both, if it does not tell two that are alike apart. -/
theorem map_commons? {β : Type} {id : Nat} {u v : Commons → β}
    (same : ∀ c c', Commons.Like (d.output id) c c' → v c' = u c) :
    (k.commons? id).map v = (h.commons? id).map u := by
  have found := like.commons.get id
  unfold commons?
  generalize h.commons.get? id = a at found ⊢
  generalize k.commons.get? id = b at found ⊢
  cases found with
  | some alike => exact congrArg some (same _ _ alike)
  | none => rfl

/-- Commons that are alike only if they are the same are the same in both. -/
theorem commons?_eq {id : Nat} (same : ∀ c c', Commons.Like (d.output id) c c' → c' = c) :
    k.commons? id = h.commons? id := by
  have eq : (k.commons? id).map (fun c => c) = (h.commons? id).map fun c => c :=
    like.map_commons? same
  simpa only [Option.map_id'] using eq

/-- Budgets are the same in both hosts, whatever was printed. -/
theorem budget? (id : Nat) :
    (k.commons? id).map Commons.budget = (h.commons? id).map Commons.budget :=
  like.map_commons? fun _ _ same => same.budget

/-- Clocks have the same readings left in both hosts. -/
theorem clock? (id : Nat) :
    (k.commons? id).map Commons.clock = (h.commons? id).map Commons.clock :=
  like.map_commons? fun _ _ same => same.clock

/-! ### Changes of both -/

/-- A change of commons that does not go by what was printed. -/
theorem modifyCommons (id : Nat) {f : Commons → Commons}
    (keeps : ∀ c c', Commons.Like (d.output id) c c' → Commons.Like (d.output id) (f c) (f c')) :
    Host.Like d { h with commons := h.commons.modify id f }
      { k with commons := k.commons.modify id f } :=
  { like with commons := like.commons.modify keeps }

/-- They tell the same time. -/
theorem reading (commons : Nat) : (k.readClock commons).1 = (h.readClock commons).1 := by
  have clock := like.clock? commons
  unfold Host.commons? at clock
  unfold Host.readClock
  generalize h.commons.get? commons = a at clock
  generalize k.commons.get? commons = b at clock
  rcases a with _ | c <;> rcases b with _ | c'
  · rfl
  · cases clock
  · cases clock
  · exact congrArg (fun clock : Clock => clock.read.1) (Option.some.inj clock)

/-- A reading is taken from both clocks. -/
theorem readClock (commons : Nat) :
    (h.readClock commons).2.Like d (k.readClock commons).2 := by
  have found := like.commons.get commons
  unfold Host.readClock
  generalize hc : h.commons.get? commons = a at found
  generalize kc : k.commons.get? commons = b at found
  cases found with
  | none => exact like
  | @some c c' same =>
    dsimp only
    rw [same.clock]
    exact like.modifyCommons commons fun _ _ same => ⟨same.budget, rfl, same.output⟩

/-- Budgets change alike. -/
theorem modifyBudget (id : Nat) (f : Budget → Budget) :
    (h.modifyBudget id f).Like d (k.modifyBudget id f) :=
  like.modifyCommons id fun _ _ same => ⟨congrArg f same.budget, same.clock, same.output⟩

/-- A change of an instance and of its holders that keeps the difference of the holders. -/
theorem modifyInstances (id : Nat) {f : Counted Instance → Counted Instance}
    (keeps : ∀ n (c c' : Counted Instance), c.Like n c' → (f c).Like n (f c')) :
    Host.Like d { h with instances := h.instances.modify id f }
      { k with instances := k.instances.modify id f } :=
  { like with instances := like.instances.modify (keeps _) }

/-- Instances change alike. -/
theorem modifyInstance (id : Nat) (f : Instance → Instance) :
    (h.modifyInstance id f).Like d (k.modifyInstance id f) :=
  like.modifyInstances id fun _ _ _ same => same.map f

end Like

end Host

/-! ### The same change of both -/

/-- The same change of both keeps hosts alike, unless the second one loses an object that it must not
lose. What it has lost it does not get back. -/
structure Fair (d : Difference σ) (f : Host σ → Host σ) : Prop where
  like : ∀ {h k}, h.Like d k → (f k).Lost d ∨ (f h).Like d (f k)
  lost : ∀ {k : Host σ}, k.Lost d → (f k).Lost d

/-- To do nothing is fair. -/
theorem fair_id : Fair d fun h => h :=
  ⟨.inr, id⟩

/-- One fair change after another is fair. -/
theorem Fair.comp {f g : Host σ → Host σ} (second : Fair d g) (first : Fair d f) :
    Fair d fun h => g (f h) where
  like like := (first.like like).elim (.inl ∘ second.lost) second.like
  lost lost := second.lost (first.lost lost)

/-- A change of what guests share that does not depend on the outputs. -/
theorem fair_modifyCommons (id : Nat) {f : Commons → Commons}
    (keeps : ∀ c c', Commons.Like (d.output id) c c' → Commons.Like (d.output id) (f c) (f c')) :
    Fair d fun h => { h with commons := h.commons.modify id f } where
  like like := .inr (like.modifyCommons id keeps)
  lost lost := lost.mono rfl (fun _ gone => gone) (fun _ gone => gone) fun _ gone => gone

/-- Printing without a hook adds the same bytes to both outputs. -/
theorem fair_emit (commons : Nat) (bytes : Bytes) : Fair d (Host.emit commons bytes) :=
  fair_modifyCommons commons fun _ _ same => ⟨same.budget, same.clock, d.printed same.output bytes⟩

/-- A change of a budget is fair. -/
theorem fair_modifyBudget (commons : Nat) (f : Budget → Budget) :
    Fair d fun h => h.modifyBudget commons f :=
  fair_modifyCommons commons fun _ _ same => ⟨congrArg f same.budget, same.clock, same.output⟩

/-- Bytes go back to the same budget in both hosts. -/
theorem fair_giveBack (commons bytes : Nat) : Fair d fun h => h.giveBack commons bytes :=
  fair_modifyBudget commons _

/-- One of the pools whose objects can have several holders, as a part of hosts that may differ. -/
structure Shelf (d : Difference σ) (α : Type) where
  kind : Kind
  pool : Host σ → Pool (Counted α)
  put : Host σ → Pool (Counted α) → Host σ
  holding : ∀ {h k}, h.Like d k → (pool h).Holding (d.more kind) (pool k)
  like : ∀ {h k p q}, h.Like d k → p.Holding (d.more kind) q → (put h p).Like d (put k q)
  app : ∀ k p, (put k p).app = k.app
  gone : ∀ {k p id}, p.Gone id → (put k p).Gone kind id
  lost : ∀ {k p}, k.Lost d → (∀ id, (pool k).Gone id → p.Gone id) → (put k p).Lost d

namespace Shelf

def runtimes : Shelf d Runtime where
  kind := .runtime
  pool h := h.runtimes
  put h p := { h with runtimes := p }
  holding like := like.runtimes
  like like same := { like with runtimes := same }
  app _ _ := rfl
  gone gone := gone
  lost lost stays := lost.mono rfl stays (fun _ gone => gone) fun _ gone => gone

def modules : Shelf d LoadedModule where
  kind := .module
  pool h := h.modules
  put h p := { h with modules := p }
  holding like := like.modules
  like like same := { like with modules := same }
  app _ _ := rfl
  gone gone := gone
  lost lost stays := lost.mono rfl (fun _ gone => gone) stays fun _ gone => gone

def instances : Shelf d Instance where
  kind := .inst
  pool h := h.instances
  put h p := { h with instances := p }
  holding like := like.instances
  like like same := { like with instances := same }
  app _ _ := rfl
  gone gone := gone
  lost lost stays := lost.mono rfl (fun _ gone => gone) (fun _ gone => gone) stays

variable {α : Type} (s : Shelf d α)

/-- A change of what a number stands for, which keeps how many holders it has in one host beyond the
other. -/
theorem fair_modify (id : Nat) {f : Counted α → Counted α}
    (keeps : ∀ n (c c' : Counted α), c.Like n c' → (f c).Like n (f c')) :
    Fair d fun h => s.put h ((s.pool h).modify id f) where
  like like := .inr (s.like like ((s.holding like).modify (keeps _)))
  lost lost := s.lost lost fun _ gone => gone.modify id f

/-- A new object has the same number and the same first holders in both hosts. -/
theorem fair_insert (c : Counted α) : Fair d fun h => s.put h ((s.pool h).insert c).1 where
  like like := .inr (s.like like ((s.holding like).insert c))
  lost lost := s.lost lost fun _ gone => gone.insert c

end Shelf

/-- A change of an instance is fair. -/
theorem fair_modifyInstance (id : Nat) (f : Instance → Instance) :
    Fair d fun h => h.modifyInstance id f :=
  Shelf.instances.fair_modify id fun _ _ _ same => same.map f

/-- Both hosts count one more holder of an instance. -/
theorem fair_retainInstance (id : Nat) : Fair d fun h => h.retainInstance id :=
  Shelf.instances.fair_modify id fun _ _ _ same => same.retain

/-- Both hosts count one more holder of a module. -/
theorem fair_retainModule (id : Nat) : Fair d fun h => h.retainModule id :=
  Shelf.modules.fair_modify id fun _ _ _ same => same.retain

/-- Both hosts count one more holder of a runtime. -/
theorem fair_retainRuntime (id : Nat) : Fair d fun h => h.retainRuntime id :=
  Shelf.runtimes.fair_modify id fun _ _ _ same => same.retain

/-- A change of what has one owner. -/
theorem fair_owned {f : Host σ → Host σ} (like : ∀ {h k}, h.Like d k → (f h).Like d (f k))
    (same : ∀ h, (f h).app = h.app ∧ (f h).runtimes = h.runtimes ∧ (f h).modules = h.modules ∧
      (f h).instances = h.instances) : Fair d f where
  like alike := .inr (like alike)
  lost {k} lost := by
    obtain ⟨app, runtimes, modules, instances⟩ := same k
    exact lost.mono app (fun _ gone => runtimes ▸ gone) (fun _ gone => modules ▸ gone)
      fun _ gone => instances ▸ gone

/-- A change of an environment is fair. -/
theorem fair_modifyEnvironment (id : Nat) (f : Environment → Environment) :
    Fair d fun h => h.modifyEnvironment id f :=
  fair_owned (fun like => { like with
    environments := congrArg (Pool.modify · id f) like.environments }) fun _ => ⟨rfl, rfl, rfl, rfl⟩

/-- A change of a runner is fair. -/
theorem fair_modifyRunner (id : Nat) (f : Runner → Runner) :
    Fair d fun h => { h with runners := h.runners.modify id f } :=
  fair_owned (fun like => { like with runners := congrArg (Pool.modify · id f) like.runners })
    fun _ => ⟨rfl, rfl, rfl, rfl⟩

/-! ### New objects -/

theorem fair_insertModule (c : Counted LoadedModule) :
    Fair d fun h => { h with modules := (h.modules.insert c).1 } :=
  Shelf.modules.fair_insert c

theorem fair_insertInstance (c : Counted Instance) :
    Fair d fun h => { h with instances := (h.instances.insert c).1 } :=
  Shelf.instances.fair_insert c

theorem fair_insertEnvironment (e : Environment) :
    Fair d fun h => { h with environments := (h.environments.insert e).1 } :=
  fair_owned (fun like => { like with
    environments := congrArg (fun p => (Pool.insert p e).1) like.environments })
    fun _ => ⟨rfl, rfl, rfl, rfl⟩

theorem fair_insertBlock (b : Block) :
    Fair d fun h => { h with blocks := (h.blocks.insert b).1 } :=
  fair_owned (fun like => { like with
    blocks := congrArg (fun p => (Pool.insert p b).1) like.blocks }) fun _ => ⟨rfl, rfl, rfl, rfl⟩

theorem fair_insertRunner (r : Runner) :
    Fair d fun h => { h with runners := (h.runners.insert r).1 } :=
  fair_owned (fun like => { like with
    runners := congrArg (fun p => (Pool.insert p r).1) like.runners }) fun _ => ⟨rfl, rfl, rfl, rfl⟩

/-- A new runtime and what its guests share, if both hosts may have its output. -/
theorem fair_insertRuntime {c : Commons} (related : ∀ id, d.output id c.output c.output)
    (runtime : Nat → Counted Runtime) :
    Fair d fun h => { h with
      commons := (h.commons.insert c).1
      runtimes := (h.runtimes.insert (runtime h.commons.next)).1 } where
  like {h k} like := by
    have same := like.runtimes.insert (runtime h.commons.next)
    rw [← like.commons.next] at same ⊢
    exact .inr { like with commons := like.commons.insert ⟨rfl, rfl, related _⟩, runtimes := same }
  lost lost := lost.mono rfl (fun _ gone => gone.insert _) (fun _ gone => gone) fun _ gone => gone

/-! ### Holds given up -/

/-- What one holder less means to the same object in two hosts: it is gone from the second one in
spite of more holders in the first, or gone from both, or has a holder less in both. -/
theorem Counted.Like.release {α : Type} {n : Nat} {c c' : Counted α} (like : c.Like n c') :
    (c'.release? = none ∧ 0 < n) ∨ (c.release? = none ∧ c'.release? = none) ∨
      ∃ e e', c.release? = some e ∧ c'.release? = some e' ∧ e.Like n e' := by
  have holders := like.holders
  unfold Counted.release?
  by_cases last : c'.holders ≤ 1
  · by_cases more : 0 < n
    · exact .inl ⟨if_pos last, more⟩
    · exact .inr (.inl ⟨if_pos (by omega), if_pos last⟩)
  · refine .inr (.inr ⟨_, _, if_neg (by omega), if_neg last, like.value, ?_⟩)
    show c.holders - 1 = c'.holders - 1 + n
    omega

/-- One holder less is fair if what follows when the last one is gone is so. -/
theorem Shelf.fair_release {α : Type} (s : Shelf d α) {f : Host σ → Host σ}
    {ending : α → Host σ → Host σ} (ends : ∀ a, Fair d (ending a)) (id : Nat)
    (eq : ∀ h, f h = ((s.pool h).get? id).elim h fun c =>
      c.release?.elim (ending c.value (s.put h ((s.pool h).erase id))) fun c =>
        s.put h ((s.pool h).modify id fun _ => c)) : Fair d f where
  like {h k} like := by
    rw [eq h, eq k]
    have found := (s.holding like).get id
    cases there : (s.pool h).get? id <;> cases there' : (s.pool k).get? id <;>
      rw [there, there'] at found
    case none.none => exact .inr like
    case none.some => cases found
    case some.none => cases found
    case some.some c c' =>
      obtain ⟨same⟩ := found
      dsimp only [Option.elim_some]
      rcases same.release with ⟨last, more⟩ | ⟨last, last'⟩ | ⟨e, e', rest, rest', same⟩
      · -- The object that has more holders in the first host is gone from the second one.
        rw [last]
        refine .inl ((ends c'.value).lost ⟨?_, s.kind, id, more, s.gone (Pool.gone_erase there')⟩)
        rw [s.app]
        exact d.calms like.app
      · rw [last, last', same.value]
        exact (ends c.value).like (s.like like ((s.holding like).erase id))
      · rw [rest, rest']
        exact .inr (s.like like ((s.holding like).modify fun _ _ _ => same))
  lost {k} lost := by
    rw [eq k]
    cases (s.pool k).get? id with
    | none => exact lost
    | some c =>
      dsimp only [Option.elim_some]
      cases c.release? with
      | none => exact (ends c.value).lost (s.lost lost fun _ gone => gone.erase id)
      | some c => exact s.lost lost fun _ gone => gone.modify id _

/-- A runtime loses a holder in both hosts, and goes with the last one. It goes in both, or it is
one that the first host has more holders of: that is the loss that fairness allows for. -/
theorem fair_releaseRuntime (id : Nat) : Fair d fun h => h.releaseRuntime id := by
  refine Shelf.runtimes.fair_release (fun _ => fair_id) id fun h => ?_
  show h.releaseRuntime id = (h.runtimes.get? id).elim h _
  unfold Host.releaseRuntime
  cases h.runtimes.get? id with
  | none => rfl
  | some c =>
    dsimp only [Option.elim_some]
    cases c.release? <;> rfl

/-- What goes with the last holder of a module. -/
theorem fair_endModule (m : LoadedModule) :
    Fair d fun h => (h.giveBack m.commons m.bytecode.length).releaseRuntime m.runtime :=
  (fair_releaseRuntime _).comp (fair_giveBack _ _)

/-- A module loses a holder in both hosts, and takes its runtime along when it goes. -/
theorem fair_releaseModule (id : Nat) : Fair d fun h => h.releaseModule id := by
  refine Shelf.modules.fair_release fair_endModule id fun h => ?_
  show h.releaseModule id = (h.modules.get? id).elim h _
  unfold Host.releaseModule
  cases h.modules.get? id with
  | none => rfl
  | some c =>
    dsimp only [Option.elim_some]
    cases c.release? <;> rfl

/-- What goes with the last holder of an instance. -/
theorem fair_endInstance (i : Instance) :
    Fair d fun h => ((h.giveBack i.commons i.limiter.charged.value).giveBack i.commons
      i.stackSize).releaseModule i.module :=
  (fair_releaseModule _).comp ((fair_giveBack _ _).comp (fair_giveBack _ _))

/-- An instance loses a holder in both hosts, and takes its module along when it goes. -/
theorem fair_releaseInstance (id : Nat) : Fair d fun h => h.releaseInstance id := by
  refine Shelf.instances.fair_release fair_endInstance id fun h => ?_
  show h.releaseInstance id = (h.instances.get? id).elim h _
  unfold Host.releaseInstance
  cases h.instances.get? id with
  | none => rfl
  | some c =>
    dsimp only [Option.elim_some]
    cases c.release? <;> rfl

/-! ### The end of what has one owner -/

/-- What is done to hosts goes by something that both have. -/
theorem Fair.of_look {α : Type} {f : Host σ → Host σ} (look : Host σ → α) {g : α → Host σ → Host σ}
    (same : ∀ {h k}, h.Like d k → look k = look h) (eq : ∀ h, f h = g (look h) h)
    (fair : ∀ a, Fair d (g a)) : Fair d f where
  like {h k} like := by
    rw [eq h, eq k, same like]
    exact (fair _).like like
  lost {k} lost := by
    rw [eq k]
    exact (fair _).lost lost

/-- A reading of the clock is fair. -/
theorem fair_readClock (commons : Nat) : Fair d fun h => (h.readClock commons).2 where
  like like := .inr (like.readClock commons)
  lost {k} lost := by
    obtain ⟨p, read⟩ := k.readClock_eq commons
    rw [read]
    exact lost.mono rfl (fun _ gone => gone) (fun _ gone => gone) fun _ gone => gone

/-- An environment has one owner in both hosts, and lets go of its instance. -/
theorem fair_dropEnvironment (id : Nat) : Fair d fun h => h.dropEnvironment id := by
  refine .of_look (fun h => h.environments.get? id) (g := fun found h =>
    found.elim h fun e =>
      (({ h with environments := h.environments.erase id } : Host σ).giveBack e.commons
        e.stackSize).releaseInstance e.inst) (fun like => by rw [like.environments])
    (fun h => ?_) fun found => ?_
  · unfold Host.dropEnvironment
    cases h.environments.get? id <;> rfl
  cases found with
  | none => exact fair_id
  | some e =>
    refine (fair_releaseInstance _).comp ((fair_giveBack _ _).comp (fair_owned (fun like => ?_)
      fun _ => ⟨rfl, rfl, rfl, rfl⟩))
    exact { like with environments := congrArg (Pool.erase · id) like.environments }

/-- What an operation on one instance does to a host. -/
theorem Local.fair {α : Type} {id : Nat} {x : HostM σ α} (own : Local id x) :
    Fair d fun h => (exec x h).2 where
  like {h k} like := by
    have found := (own.like (like.instances.get id)).2
    obtain ⟨p, after, aside⟩ := own.alone h
    obtain ⟨q, after', aside'⟩ := own.alone k
    rw [after, after'] at found ⊢
    exact .inr { like with instances := like.instances.aside aside aside' found }
  lost {k} lost := by
    obtain ⟨q, after, aside⟩ := own.alone k
    rw [after]
    exact lost.mono rfl (fun _ gone => gone) (fun _ gone => gone) fun _ gone => gone.aside aside

/-- The app heap of the same instance takes the block back. -/
theorem fair_freeBlock (id address : Nat) : Fair d fun h => h.freeBlock id address :=
  (local_freeBlock address).fair

/-- The values of a block are released in both hosts. -/
theorem fair_releaseValues (b : Block) : Fair d fun h => h.releaseValues b := by
  refine .of_look (fun h => (exec (HostM.readBytes b.inst b.address.value (Host.blockBytes b)) h).1)
    (g := fun read h =>
      if !b.type.released then h
      else
        (read.toOption.elim (.returns []) (Host.blockSlots b)).casesOn
          (fun slots => { h with released := h.released ++ slots }) fun _ => h)
    (fun like => ((local_readBytes _ _).like (like.instances.get b.inst)).1) (fun h => ?_)
    fun read => ?_
  -- The bytes are read from the instance, which is the same; what is released depends on them
  -- alone.
  · dsimp only [Host.releaseValues, Host.releasedSlots, exec, StateT.run]
    split
    · rfl
    · cases ((HostM.readBytes b.inst b.address.value (Host.blockBytes b)).run h).1 with
      | error e => rfl
      | ok bytes =>
        dsimp only [Except.toOption, Option.elim]
        cases Host.blockSlots b bytes <;> rfl
  by_cases released : b.type.released
  · cases read.toOption.elim (.returns []) (Host.blockSlots b) with
    | panics message => simpa [released] using fair_id
    | returns slots =>
      simp only [released]
      exact fair_owned (fun like => { like with
        released := congrArg (· ++ slots) like.released }) fun _ => ⟨rfl, rfl, rfl, rfl⟩
  · simpa [released] using fair_id

/-- A block is dropped in both hosts, as far as its instance is at rest in both. -/
theorem fair_dropBlock (id : Nat) : Fair d fun h => h.dropBlock id := by
  refine .of_look (fun h => h.blocks.get? id) (g := fun found h =>
    found.elim h fun b =>
      let h : Host σ := { h with blocks := h.blocks.erase id }
      let h := if b.address.isNull then h else h.releaseValues b
      let h := b.address.deleted.elim h (h.freeBlock b.inst)
      h.releaseInstance b.inst) (fun like => by rw [like.blocks]) (fun h => ?_) fun found => ?_
  · unfold Host.dropBlock
    cases h.blocks.get? id with
    | none => rfl
    | some b =>
      dsimp only [Option.elim_some]
      cases b.address.deleted <;> rfl
  cases found with
  | none => exact fair_id
  | some b =>
    -- Three steps and the hold on the instance, each of them fair.
    have erased : Fair d fun h : Host σ => { h with blocks := h.blocks.erase id } :=
      fair_owned (fun like => { like with blocks := congrArg (Pool.erase · id) like.blocks })
        fun _ => ⟨rfl, rfl, rfl, rfl⟩
    have recorded : Fair d fun h : Host σ =>
        if b.address.isNull then h else h.releaseValues b := by
      split
      · exact fair_id
      · exact fair_releaseValues b
    have returned : Fair d fun h : Host σ => b.address.deleted.elim h (h.freeBlock b.inst) := by
      cases b.address.deleted with
      | none => exact fair_id
      | some address => exact fair_freeBlock _ _
    exact (fair_releaseInstance _).comp (returned.comp (recorded.comp erased))

/-- A runner lets go of its environment, of its instance and of its module. -/
theorem fair_dropRunner (id : Nat) : Fair d fun h => h.dropRunner id := by
  refine .of_look (fun h => h.runners.get? id) (g := fun found h =>
    found.elim h fun r =>
      ((({ h with runners := h.runners.erase id } : Host σ).dropEnvironment
        r.environment).releaseInstance r.inst).releaseModule r.module)
    (fun like => by rw [like.runners]) (fun h => ?_) fun found => ?_
  · unfold Host.dropRunner
    cases h.runners.get? id <;> rfl
  cases found with
  | none => exact fair_id
  | some r =>
    refine (fair_releaseModule _).comp ((fair_releaseInstance _).comp
      ((fair_dropEnvironment _).comp (fair_owned (fun like => ?_) fun _ => ⟨rfl, rfl, rfl, rfl⟩)))
    exact { like with runners := congrArg (Pool.erase · id) like.runners }

end Embedder
