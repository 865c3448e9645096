import Embedder.Proofs.Session.Indifference
import Embedder.Proofs.Session.Reckoning

namespace Embedder

open Session (Kind Slot Slots Step empty hookedPrinter runWith stepWith unmindful)

/-!
# Who owns what in a session

When nothing is in flight, an object that can have several holders has one for every name, for every
runner that goes by it, and for every object that was made from it and lives. It goes with the last of
them, and does not come back. So a name can be given up as long as somebody else holds the object: what
happens later cannot tell.

* `Session.AtRest`: sessions in which nothing is in flight.
* `Session.handles`, `Session.dependents`: who holds an object.
* `lost_or_like_of_drop`: what giving up a name changes.
* `Session.Owned`, `owned_of_atRest`: the counts, the end of objects, and names that nobody misses.
-/

/-! ### Holders by kind -/

/-- Commons are not held as other objects are. -/
theorem ne_commons_of_isShared {kind : Kind} (shared : kind.isShared) : kind ≠ .commons := by
  rintro rfl
  cases shared

/-- To count what has a property is to add up ones. -/
theorem Pool.total_ite {α : Type} (p : Pool α) (P : α → Prop) [DecidablePred P] :
    (p.total fun a => if P a then 1 else 0) = p.values.countP P := by
  show (p.table.entries.map fun e => if P e.2 then 1 else 0).sum =
    (p.table.entries.map Prod.snd).countP P
  induction p.table.entries with
  | nil => rfl
  | cons e es ih =>
    rw [List.map_cons, List.sum_cons, ih, List.map_cons, List.countP_cons, Nat.add_comm]
    simp only [decide_eq_true_eq]

/-- Whether a runner goes by an object. -/
def Runner.GoesBy (r : Runner) : Kind → Nat → Prop
  | .environment, id => r.environment = id
  | .inst, id => r.inst = id
  | .module, id => r.module = id
  | _, _ => False

instance (r : Runner) (kind : Kind) (id : Nat) : Decidable (r.GoesBy kind id) :=
  match kind with
  | .environment => inferInstanceAs (Decidable (r.environment = id))
  | .inst => inferInstanceAs (Decidable (r.inst = id))
  | .module => inferInstanceAs (Decidable (r.module = id))
  | .runtime | .commons | .block | .runner => inferInstanceAs (Decidable False)

/-- A runner holds what it goes by once. -/
theorem Runner.refs_eq (r : Runner) (kind : Kind) (id : Nat) :
    r.refs kind id = if r.GoesBy kind id then 1 else 0 := by
  cases kind <;> simp [refs, GoesBy, Holds.on, eq_comm]

namespace Session

/-- How many names and runners go by an object. -/
def handles (s : Session) (kind : Kind) (id : Nat) : Nat :=
  (s.app.names.tally fun e => if e.1.kind = kind ∧ e.2 = id then 1 else 0) +
    s.runners.values.countP fun r => r.GoesBy kind id

/-- How many objects were made from an object, and live. -/
def dependents (s : Session) (kind : Kind) (id : Nat) : Nat :=
  match kind with
  | .runtime => s.modules.values.countP fun m => m.value.runtime = id
  | .module => s.instances.values.countP fun i => i.value.module = id
  | .inst => (s.environments.values.countP fun e => e.inst = id) +
      s.blocks.values.countP fun b => b.inst = id
  | _ => 0

/-- What is held is held by a name or a runner, or by an object that was made from it. -/
theorem holds_add_inner (s : Session) (kind : Kind) (id : Nat) :
    Holder.holds s.app kind id + s.inner kind id = s.handles kind id + s.dependents kind id := by
  simp only [Holder.holds, Host.inner, LoadedModule.refs, Instance.refs, Environment.refs, Block.refs,
    Runner.refs_eq, Holds.on, Pool.total_ite, handles, dependents]
  cases kind <;> simp [eq_comm] <;> omega

end Session

variable {s : Session} {slot : Slot} {id : Nat}

/-! ### Objects that are gone -/

section

variable {α β : Type} {static : α → β} {p q r : Pool α}

/-- What was there, and is missing later, is gone. -/
theorem Pool.gone_of_since (there : (p.get? id).isSome) (since : p.Since static q)
    (missing : ¬ (q.get? id).isSome) : q.Gone id := by
  obtain ⟨a, found⟩ := Option.isSome_iff_exists.1 there
  exact ⟨Nat.lt_of_lt_of_le (lt_next_of_get?_eq_some found) since.next,
    Option.not_isSome_iff_eq_none.1 missing⟩

/-- What is there in the end was there all the time since it came. -/
theorem Pool.isSome_of_since (there : (p.get? id).isSome) (since : p.Since static q)
    (later : q.Since static r) (back : (r.get? id).isSome) : (q.get? id).isSome := by
  obtain ⟨a, found⟩ := Option.isSome_iff_exists.1 there
  obtain ⟨b, again⟩ := Option.isSome_iff_exists.1 back
  have old := Nat.lt_of_lt_of_le (lt_next_of_get?_eq_some found) since.next
  obtain ⟨c, meanwhile, -⟩ := later.old id b old again
  exact Option.isSome_iff_exists.2 ⟨c, meanwhile⟩

end

section

variable {t u : Session} {kind : Kind}

/-- What is there at first and at last was there all the time, as numbers are not handed out
again. -/
theorem Host.has_of_since (hk : kind ≠ .commons) (there : s.has kind id) (since : s.Since t)
    (later : t.Since u) (back : u.has kind id) : t.has kind id := by
  cases kind with
  | runtime => exact Pool.isSome_of_since there since.runtimes later.runtimes back
  | commons => exact absurd rfl hk
  | module => exact Pool.isSome_of_since there since.modules later.modules back
  | inst => exact Pool.isSome_of_since there since.instances later.instances back
  | environment => exact Pool.isSome_of_since there since.environments later.environments back
  | block => exact Pool.isSome_of_since there since.blocks later.blocks back
  | runner => exact Pool.isSome_of_since there since.runners later.runners back

/-- An object that was there, and is missing later, is gone. -/
theorem Host.gone_of_since (shared : kind.isShared) (there : s.has kind id) (since : s.Since t)
    (missing : ¬ t.has kind id) : t.Gone kind id := by
  cases kind with
  | runtime => exact Pool.gone_of_since there since.runtimes missing
  | module => exact Pool.gone_of_since there since.modules missing
  | inst => exact Pool.gone_of_since there since.instances missing
  | _ => cases shared

/-- What is gone is not there. -/
theorem Host.Gone.not_has (gone : s.Gone kind id) : ¬ s.has kind id := by
  cases kind with
  | runtime => exact Option.not_isSome_iff_eq_none.2 gone.2
  | module => exact Option.not_isSome_iff_eq_none.2 gone.2
  | inst => exact Option.not_isSome_iff_eq_none.2 gone.2
  | _ => cases gone

/-- How many hold an object, if it is there. -/
theorem Session.holders?_eq (s : Session) (shared : kind.isShared) (id : Nat) :
    s.holders? kind id = if s.has kind id then some (s.holders kind id) else none := by
  have map {α : Type} (p : Pool (Counted α)) : (p.get? id).map Counted.holders =
      if (p.get? id).isSome then some (p.count id) else none := by
    unfold Pool.count
    cases p.get? id <;> rfl
  cases kind with
  | runtime => exact map s.runtimes
  | module => exact map s.modules
  | inst => exact map s.instances
  | _ => cases shared

end

/-! ### Holds that are given up -/

/-- A holder that lets go leaves one less, and the last one leaves nothing. -/
theorem Counted.holders_release? {α : Type} (c : Counted α) :
    c.release?.map Counted.holders = if c.holders ≤ 1 then none else some (c.holders - 1) := by
  unfold release?
  split <;> rfl

/-- A hold that is given up is one less, and the last one takes the object along. -/
theorem Session.holders?_release (s : Session) (kind : Kind) (id : Nat) :
    Session.holders? (s.release kind id) kind id =
      (s.holders? kind id).bind fun n => if n ≤ 1 then none else some (n - 1) := by
  cases kind with
  | runtime =>
    simp only [holders?, release, Host.get?_releaseRuntime, Option.map_bind, Option.bind_map,
      Function.comp_def, Counted.holders_release?]
  | module =>
    simp only [holders?, release, Host.get?_releaseModule, Option.map_bind, Option.bind_map,
      Function.comp_def, Counted.holders_release?]
  | inst =>
    simp only [holders?, release, Host.get?_releaseInstance, Option.map_bind, Option.bind_map,
      Function.comp_def, Counted.holders_release?]
  | _ => rfl

/-- Where one holder less is left, the first pool has one more. -/
theorem Pool.holding_release {α : Type} {p : Pool (Counted α)} {c c' : Counted α} (kind : Kind)
    (there : p.get? id = some c) (left : c.release? = some c') :
    p.Holding (Holds.on kind id 1 kind) (p.modify id fun _ => c') where
  next := p.next_modify id _
  get j := by
    rw [Pool.get?_modify]
    split
    case isTrue same =>
      subst same
      rw [there]
      refine .some ?_
      unfold Counted.release? at left
      split at left <;> cases left
      exact ⟨rfl, by simp only [Holds.on, and_self, if_true]; omega⟩
    case isFalse other =>
      rw [show Holds.on kind id 1 kind j = 0 from if_neg fun both => other both.2]
      exact Counted.rel_like_zero.2 rfl
  old j le := if_neg fun both : kind = kind ∧ j = id =>
    absurd (Pool.lt_next_of_get?_eq_some there) (both.2 ▸ Nat.not_lt.2 le)

/-- A name that is given up with a hold leaves a session that is the same without it, if the object has
other holders. -/
theorem like_of_drop (ignore : s.app.Ignore slot) {n : Nat}
    (many : s.holders? slot.kind id = some n) (more : 1 < n) :
    s.Like (.without slot id) ((s.modifyNames (·.erase slot)).release slot.kind id) := by
  have app : Slots.Like slot s.app { s.app with names := s.app.names.erase slot } :=
    ⟨fun _ other => Table.get?_erase_of_ne _ other, rfl, rfl, ignore⟩
  have commons : s.commons.Like (fun i => Commons.Like ((Difference.without slot id).output i))
      s.commons := .refl _ fun _ _ => ⟨rfl, rfl, rfl⟩
  -- Others hold the object, so that it only loses a holder.
  have left {α : Type} {c : Counted α} (counted : c.holders = n) :
      c.release? = some { c with holders := c.holders - 1 } :=
    if_neg (by omega)
  obtain ⟨kind, name⟩ := slot
  cases kind with
  | runtime =>
    obtain ⟨c, there, counted⟩ := Option.map_eq_some_iff.1 many
    simp only [Session.release, Host.releaseRuntime, Session.modifyNames, there, left counted]
    exact ⟨commons, Pool.holding_release .runtime there (left counted), .refl _, .refl _, rfl, rfl, rfl,
      rfl, app⟩
  | module =>
    obtain ⟨c, there, counted⟩ := Option.map_eq_some_iff.1 many
    simp only [Session.release, Host.releaseModule, Session.modifyNames, there, left counted]
    exact ⟨commons, .refl _, Pool.holding_release .module there (left counted), .refl _, rfl, rfl, rfl,
      rfl, app⟩
  | inst =>
    obtain ⟨c, there, counted⟩ := Option.map_eq_some_iff.1 many
    simp only [Session.release, Host.releaseInstance, Session.modifyNames, there, left counted]
    exact ⟨commons, .refl _, .refl _, Pool.holding_release .inst there (left counted), rfl, rfl, rfl,
      rfl, app⟩
  | _ => cases many

/-- A name that is dropped lets go of its object. -/
theorem leads_drop [HookRule] (named : s.app.names.get? slot = some id) :
    Leads (fun _ => True) ⟨s, .none⟩ ⟨(s.modifyNames (·.erase slot)).release slot.kind id, .none⟩ :=
  (leads_erase named trivial).trans (leads_release slot.kind id)

/-- Giving up a name loses the object, or nothing but a hold on it. -/
theorem lost_or_like_of_drop [HookRule] (ha : Config.Sound ⟨s, .none⟩) (shared : slot.kind.isShared)
    (named : s.app.names.get? slot = some id) (ignore : s.app.Ignore slot) :
    ((s.modifyNames (·.erase slot)).release slot.kind id).Lost (.without slot id) ∨
      s.Like (.without slot id) ((s.modifyNames (·.erase slot)).release slot.kind id) := by
  have hk := ne_commons_of_isShared shared
  have there : s.has slot.kind id := (ha.has_iff hk).2 (holders_pos_of_named ha named hk)
  have many : s.holders? slot.kind id = some (s.holders slot.kind id) := by
    rw [s.holders?_eq shared, if_pos there]
  by_cases more : 1 < s.holders slot.kind id
  · exact .inr (like_of_drop ignore many more)
  · have erased : Session.holders? (s.modifyNames (·.erase slot)) slot.kind id =
        some (s.holders slot.kind id) := many
    -- The last holder goes, so the object goes with it.
    have missing : ¬ ((s.modifyNames (·.erase slot)).release slot.kind id).has slot.kind id := by
      intro still
      have left := Session.holders?_release (s.modifyNames (·.erase slot)) slot.kind id
      rw [erased, Option.bind_some, if_pos (Nat.not_lt.1 more), Session.holders?_eq _ shared,
        if_pos still] at left
      cases left
    refine .inl ⟨?_, slot.kind, id, Holds.on_pos.2 ⟨rfl, rfl⟩,
      Host.gone_of_since shared there ((leads_drop named).since ha) missing⟩
    rw [Session.app_release]
    exact ignore

/-! ### Sessions in which nothing is in flight -/

section

variable [Engine]

namespace Session

/-- Sessions in which nothing is in flight: between the steps of a run, and between the steps of a hook
whose print no call has made. -/
inductive AtRest : Session → Prop
  | start : AtRest empty
  | step {s : Session} (st : Step) (rests : AtRest s) : AtRest (stepWith hookedPrinter st s).2
  | print {s : Session} (commons : Nat) (bytes : Bytes) (rests : AtRest s) :
      AtRest (s.emit commons bytes)
  | hook {s : Session} (st : Step) (rests : AtRest s) : AtRest (stepWith Host.emit st s).2

/-- Sessions stay at rest over any steps, by induction. -/
theorem atRest_runWith (steps : List Step) {s : Session} (rests : AtRest s) :
    AtRest (runWith hookedPrinter steps s).2 := by
  induction steps generalizing s with
  | nil => exact rests
  | cons st steps ih => exact ih (.step st rests)

/-- Whatever has happened up to a session at rest, it leads there from the empty session. -/
theorem AtRest.leads [HookRule] (any : ∀ hook, HookRule.admits hook) (rests : AtRest s) :
    Leads (fun _ => True) ⟨empty, .none⟩ ⟨s, .none⟩ := by
  induction rests with
  | start => exact .refl
  | @step s st _ ih =>
    exact ih.trans (leads_runWith (traced_of_any any) trivial [st] s fun st _ => .of_any any st)
  | @print s commons bytes _ ih => exact ih.trans (traced_emit commons bytes s .none)
  | @hook s st _ ih =>
    exact ih.trans (leads_runWith traced_emit trivial [st] s fun st _ => .of_any any st)

/-- What becomes of a run if a name is given up before it: it has the same answers, and the session after
it differs in nothing but the name and its hold. Environments tell the same of their owners besides how
many hold them. -/
structure Unmissed (s : Session) (slot : Slot) (id : Nat) (more : List Step) : Prop where
  answers : (runWith hookedPrinter (.drop slot :: more) s).1 =
    .plain .nothing :: (runWith hookedPrinter more s).1
  alike : (runWith hookedPrinter more s).2.Like (.without slot id)
    (runWith hookedPrinter (.drop slot :: more) s).2
  told : ∀ name, (stepWith hookedPrinter (.environment name .owner)
      (runWith hookedPrinter (.drop slot :: more) s).2).1.told =
    (stepWith hookedPrinter (.environment name .owner) (runWith hookedPrinter more s).2).1.told

/-- Who owns what, and what that means for names that are given up. -/
structure Owned (s : Session) : Prop where
  /-- An object that can have several holders has one for every name and every runner that goes by it,
  and for every object that was made from it and lives. -/
  counted : ∀ kind id, kind.isShared → s.holders? kind id =
    if s.has kind id then some (s.handles kind id + s.dependents kind id) else none
  /-- An object is there as long as it has holders. -/
  there : ∀ kind id, kind ≠ .commons →
    (s.has kind id ↔ 0 < s.handles kind id + s.dependents kind id)
  /-- What an object that lives holds is there. -/
  backed : ∀ kind id kind' id', 0 < s.refs kind id kind' id' → s.has kind' id'
  /-- A hold that is given up is one less, and the last one takes the object along at once. -/
  released : ∀ kind id n, s.holders? kind id = some n →
    (s.release kind id).holders? kind id = if n ≤ 1 then none else some (n - 1)
  /-- What is gone after some steps does not come back. -/
  once : ∀ more again kind id, kind ≠ .commons → s.has kind id →
    ¬ (runWith hookedPrinter more s).2.has kind id →
    ¬ (runWith hookedPrinter again (runWith hookedPrinter more s).2).2.has kind id
  /-- As long as an object is there, nobody misses a name that it had: steps cannot tell that neither use
  the name nor ask how many hold such objects. -/
  unmissed : ∀ slot id more, slot.kind.isShared → s.app.names.get? slot = some id →
    s.app.Ignore slot → (∀ st ∈ more, st.Ignores slot) →
    (runWith hookedPrinter (.drop slot :: more) s).2.has slot.kind id → s.Unmissed slot id more

end Session

omit [Engine] in
/-- The holders of an object are the handles that go by it, and what was made from it. -/
theorem Config.Sound.holders_eq_add [HookRule] (ha : Config.Sound ⟨s, .none⟩) {kind : Kind}
    (hk : kind ≠ .commons) : s.holders kind id = s.handles kind id + s.dependents kind id :=
  (ha.holders_eq hk).trans (s.holds_add_inner kind id)

/-- A drop takes the name away and releases the object. -/
theorem stepWith_drop (printer : Printer Slots) (named : s.app.names.get? slot = some id) :
    stepWith printer (.drop slot) s =
      (.plain .nothing, (s.modifyNames (·.erase slot)).release slot.kind id) := by
  have yields : Yields (Session.act printer (.drop slot)) s (fun a t =>
      a = .plain .nothing ∧ t = (s.modifyNames (·.erase slot)).release slot.kind id) fun _ => False := by
    simp only [Session.act, yields_bind_iff, yields_find, yields_modify, yields_pure]
    refine ⟨fun i found => ?_, fun missing => absurd (named.symm.trans missing) (Option.some_ne_none id)⟩
    cases named.symm.trans found
    exact ⟨trivial, rfl⟩
  obtain ⟨answer, after⟩ := stepWith_of_yields yields fun _ missing => False.elim missing
  exact Prod.ext answer after

/-- A name that is given up is not missed, as long as the object is there to the end. -/
theorem unmissed_of_sound [HookRule] (ha : Config.Sound ⟨s, .none⟩) (shared : slot.kind.isShared)
    (named : s.app.names.get? slot = some id) (ignore : s.app.Ignore slot) {more : List Step}
    (ignores : ∀ st ∈ more, st.Ignores slot)
    (there : (runWith hookedPrinter (.drop slot :: more) s).2.has slot.kind id) :
    s.Unmissed slot id more := by
  have dropped : runWith hookedPrinter (.drop slot :: more) s = (.plain .nothing ::
      (runWith hookedPrinter more ((s.modifyNames (·.erase slot)).release slot.kind id)).1,
        (runWith hookedPrinter more ((s.modifyNames (·.erase slot)).release slot.kind id)).2) := by
    rw [runWith, stepWith_drop hookedPrinter named]
  have kept : ¬ (runWith hookedPrinter more ((s.modifyNames (·.erase slot)).release slot.kind id)).2.Lost
      (.without slot id) := by
    rintro ⟨-, kind, i, pos, gone⟩
    obtain ⟨rfl, rfl⟩ := Holds.on_pos.1 pos
    rw [dropped] at there
    exact gone.not_has there
  -- Either the object is lost at once, against the premise, or the two runs stay alike.
  rcases lost_or_like_of_drop ha shared named ignore with lost | like
  · exact absurd (lost_runWith evenhanded_hookedPrinter more ignores lost) kept
  · obtain ⟨same, after⟩ := (runWith_like evenhanded_hookedPrinter more ignores like).resolve_left kept
    refine ⟨?_, ?_, fun name => ?_⟩
    · rw [dropped, same]
    · rwa [dropped]
    · rw [dropped, told_owner, told_owner]
      exact after.owners (by rintro rfl; cases shared)

/-- **Ownership.** Between any two steps of a session that starts with nothing, everything has the holders
that names, runners and dependents make, it goes with the last one, and names are not missed. -/
theorem Session.owned_of_atRest (rests : s.AtRest) : s.Owned := by
  let rule : HookRule := .any
  have any : ∀ hook, HookRule.admits hook := fun _ => trivial
  have ha : Config.Sound ⟨s, .none⟩ := (rests.leads any).sound (sound_empty rfl)
  have leads (more : List Step) (t : Session) :
      Leads (fun _ => True) ⟨t, .none⟩ ⟨(runWith hookedPrinter more t).2, .none⟩ :=
    leads_runWith (traced_of_any any) trivial more t fun st _ => .of_any any st
  exact {
    counted := fun kind id shared => by
      rw [s.holders?_eq shared, ha.holders_eq_add (ne_commons_of_isShared shared)]
    there := fun kind id hk => by rw [ha.has_iff hk, ha.holders_eq_add hk]
    backed := fun _ _ _ _ refs => ha.has_of_refs refs
    released := fun kind id n many => by rw [s.holders?_release, many, Option.bind_some]
    once := fun more again kind id hk there missing back => missing <|
      Host.has_of_since hk there ((leads more s).since ha)
        ((leads again _).since ((leads more s).sound ha)) back
    unmissed := fun slot id more shared named ignore ignores there =>
      unmissed_of_sound ha shared named ignore ignores there }

end

theorem Session.owned_of_unmindful : AtRest (runWith hookedPrinter unmindful empty).2 ∧
    (runWith hookedPrinter unmindful empty).2.Owned :=
  ⟨atRest_runWith unmindful .start, owned_of_atRest (atRest_runWith unmindful .start)⟩

/-- A runtime outlives its name for as long as a module has it. -/
example : (runWith hookedPrinter unmindful empty).2.holders? .runtime 0 = some 2 ∧
    (runWith hookedPrinter (unmindful ++ [.drop ⟨.runtime, "rt"⟩])
      empty).2.holders? .runtime 0 = some 1 ∧
    (runWith hookedPrinter (unmindful ++ [.drop ⟨.runtime, "rt"⟩, .drop ⟨.module, "m"⟩])
      empty).2.holders? .runtime 0 = none := by
  decide +kernel

end Embedder
