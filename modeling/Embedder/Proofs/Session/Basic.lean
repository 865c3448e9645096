import Embedder.Proofs.Host.Release
import Embedder.Proofs.Host.Runs
import Embedder.Session.Run

namespace Embedder

open Session (Kind Slot Slots)

/-!
# Parts of a session's steps

A session owns one hold for every name. Naming an object takes a hold in hand, taking a name away
puts one there, and what is done to the host in between leaves in hand what was.

* `Yields`: what holds when a part of a step is done, or an object was missing.
* `leads_put`, `leads_erase`: names given and taken away.
* `Steers`: parts of a step that leave in hand what was.
* `steers_create`, `steers_away`, `steers_holding`: the ways in which steps use operations.
-/

variable {α β : Type} {allowed : Effect → Prop} {s : Session} {g : Pending}

/-! ### How parts of steps end -/

/-- From a state, a part of a step yields a value as `Q` says, or misses an object as `F` says. -/
def Yields (x : SessionM α) (s : Session) (Q : α → Session → Prop) (F : Session → Prop) : Prop :=
  match x.run.run s with
  | (some a, t) => Q a t
  | (none, t) => F t

section

variable {Q : α → Session → Prop} {F : Session → Prop}

@[simp] theorem yields_pure {a : α} : Yields (pure a) s Q F ↔ Q a s := Iff.rfl

@[simp] theorem yields_failure : Yields (failure : SessionM α) s Q F ↔ F s := Iff.rfl

@[simp] theorem yields_get {Q : Session → Session → Prop} : Yields get s Q F ↔ Q s s := Iff.rfl

@[simp] theorem yields_modify {Q : PUnit → Session → Prop} {f : Session → Session} :
    Yields (modify f) s Q F ↔ Q ⟨⟩ (f s) := Iff.rfl

@[simp] theorem yields_lift {x : StateM Session α} :
    Yields (OptionT.lift x : SessionM α) s Q F ↔ Q (x.run s).1 (x.run s).2 := Iff.rfl

@[simp] theorem yields_ofOption {a : Option α} :
    Yields (SessionM.ofOption a) s Q F ↔ (∀ v, a = some v → Q v s) ∧ (a = none → F s) := by
  cases a with
  | none => exact ⟨fun h => ⟨nofun, fun _ => h⟩, fun h => h.2 rfl⟩
  | some v => exact ⟨fun h => ⟨fun w e => by cases e; exact h, nofun⟩, fun h => h.1 v rfl⟩

@[simp] theorem yields_find {Q : Nat → Session → Prop} {kind : Kind} {name : String} :
    Yields (SessionM.find kind name) s Q F ↔
      (∀ id, s.app.names.get? ⟨kind, name⟩ = some id → Q id s) ∧
        (s.app.names.get? ⟨kind, name⟩ = none → F s) :=
  yields_ofOption (a := s.app.names.get? ⟨kind, name⟩)

@[simp] theorem yields_keep {Q : Unit → Session → Prop} {kind : Kind} {name : String} {id : Nat} :
    Yields (SessionM.keep kind name id) s Q F ↔ Q () (s.put ⟨kind, name⟩ id) := Iff.rfl

/-- An operation on the host never misses an object. -/
@[simp] theorem yields_host {x : HostM Slots α} {Q : Except Error α → Session → Prop} :
    Yields (SessionM.host x) s Q F ↔ Q (exec x s).1 (exec x s).2 := Iff.rfl

/-- One part of a step after another. -/
theorem run_bind (x : SessionM α) (f : α → SessionM β) (s : Session) : (x >>= f).run.run s =
    match x.run.run s with
    | (some a, t) => (f a).run.run t
    | (none, t) => (none, t) := by
  rw [OptionT.run_bind, Option.elimM, StateT.run_bind]
  rcases x.run.run s with ⟨_ | a, t⟩ <;> rfl

/-- One part of a step after another, as one condition: the second part starts from whatever the
first one yields. -/
theorem yields_bind_iff {x : SessionM α} {f : α → SessionM β} {Q : β → Session → Prop} :
    Yields (x >>= f) s Q F ↔ Yields x s (fun a t => Yields (f a) t Q F) F := by
  unfold Yields
  rw [run_bind]
  rcases x.run.run s with ⟨_ | a, t⟩ <;> rfl

/-- Conditions on how a part ends may be weakened. -/
theorem Yields.mono {x : SessionM α} {P : α → Session → Prop} {E : Session → Prop}
    (h : Yields x s P E) (found : ∀ a t, P a t → Q a t) (missing : ∀ t, E t → F t) :
    Yields x s Q F := by
  unfold Yields at h ⊢
  generalize x.run.run s = r at h ⊢
  obtain ⟨_ | a, t⟩ := r
  · exact missing t h
  · exact found a t h

/-- One part of a step after another, with a condition in between. -/
theorem yields_bind {x : SessionM α} {f : α → SessionM β} {P : α → Session → Prop}
    {Q : β → Session → Prop} (first : Yields x s P F) (rest : ∀ a t, P a t → Yields (f a) t Q F) :
    Yields (x >>= f) s Q F :=
  yields_bind_iff.2 (first.mono rest fun _ h => h)

end

/-- What holds of a part of a step whether it misses an object or not. -/
theorem yields_snd {x : SessionM α} {P : Session → Prop} :
    Yields x s (fun _ => P) P ↔ P (x.run.run s).2 := by
  unfold Yields
  rcases x.run.run s with ⟨_ | a, t⟩ <;> exact Iff.rfl

/-! ### Names -/

/-- An object that loses a holder is nothing to names and hooks. -/
theorem Session.app_release (s : Session) (kind : Kind) (id : Nat) :
    (s.release kind id).app = s.app := by
  cases kind with
  | runtime =>
    exact (Host.undisturbed_releaseRuntime s id).app
  | commons => rfl
  | module => exact (Host.undisturbed_releaseModule s id).app
  | inst => exact (Host.undisturbed_releaseInstance s id).app
  | environment => exact Host.app_dropEnvironment s id
  | block => exact Host.app_dropBlock s id
  | runner => exact Host.app_dropRunner s id

/-- A name that gets an object is the one change to names and hooks. -/
theorem Session.app_put (s : Session) (slot : Slot) (id : Nat) :
    (s.put slot id).app = { s.app with names := s.app.names.set slot id } := by
  unfold Session.put
  dsimp only
  split
  · exact Session.app_release _ _ _
  · rfl

/-- What a session holds of an object once a name is taken away. -/
theorem Session.holds_erase {t : Table Slot Nat} {slot : Slot} {id : Nat}
    (named : t.get? slot = some id) (k : Kind) (i : Nat) :
    ((t.erase slot).tally fun e => if e.1.kind = k ∧ e.2 = i then 1 else 0) +
        Holds.on slot.kind id 1 k i =
      t.tally fun e => if e.1.kind = k ∧ e.2 = i then 1 else 0 := by
  rw [← Table.tally_erase t named]
  simp only [Holds.on, eq_comm]

/-- What has a name has a holder. -/
theorem holds_pos_of_named {slot : Slot} {id : Nat} (named : s.app.names.get? slot = some id) :
    0 < Holder.holds s.app slot.kind id := by
  have le := Table.le_tally named fun e => if e.1.kind = slot.kind ∧ e.2 = id then 1 else 0
  simp only [and_self, if_true] at le
  exact le

section

variable [HookRule]

/-- A name that is taken away leaves its hold in hand. -/
theorem leads_erase {slot : Slot} {id : Nat} (named : s.app.names.get? slot = some id)
    (renames : allowed .renames) :
    Leads allowed ⟨s, g⟩ ⟨s.modifyNames (·.erase slot), g.pin slot.kind id⟩ := by
  refine .of_change (.app (fun k i _ => ?_) (fun _ h => h) (.inr renames))
  have holds := Session.holds_erase named k i
  simp only [Pi.add_apply, Holder.holds] at *
  omega

/-- A hold in hand is given up. -/
theorem leads_release (kind : Kind) (id : Nat) :
    Leads allowed ⟨s, g.pin kind id⟩ ⟨s.release kind id, g⟩ := by
  cases kind with
  | runtime => exact leads_releaseRuntime id
  | commons =>
    refine .of_change (.app (fun k i hk => ?_) (fun _ h => h) (.inl rfl))
    simp [Holds.on, hk]
  | module => exact leads_releaseModule id
  | inst => exact leads_releaseInstance id
  | environment => exact leads_dropEnvironment id
  | block => exact leads_dropBlock id
  | runner => exact leads_dropRunner id

/-- A name takes over a hold in hand. What had the name before is given up. -/
theorem leads_put (slot : Slot) (id : Nat) (renames : allowed .renames) :
    Leads allowed ⟨s, g.pin slot.kind id⟩ ⟨s.put slot id, g⟩ := by
  have set := fun k i => Table.tally_set s.app.names slot id
    fun e => if e.1.kind = k ∧ e.2 = i then 1 else 0
  unfold Session.put
  dsimp only
  split
  -- The old hold comes back into hand and is then released, so the two moves have to be taken in
  -- this order.
  case h_1 old named =>
    refine Leads.trans (b := ⟨_, g.pin slot.kind old⟩) (.of_change ?_) (leads_release _ old)
    refine .app (fun k i _ => ?_) (fun _ h => h) (.inr renames)
    have holds := Session.holds_erase named k i
    have set := set k i
    simp only [Pending.pin_pins, Pi.add_apply, Holder.holds, Holds.on, eq_comm] at *
    omega
  case h_2 fresh =>
    refine .of_change (.app (fun k i _ => ?_) (fun _ h => h) (.inr renames))
    have set := set k i
    rw [Table.erase_eq_self _ fresh] at set
    simp only [Pending.pin_pins, Holder.holds, Holds.on, eq_comm] at *
    omega

/-- An object that has a name is there. -/
theorem holders_pos_of_named {slot : Slot} {id : Nat} (ha : Config.Sound ⟨s, g⟩)
    (named : s.app.names.get? slot = some id) (hk : slot.kind ≠ .commons) :
    0 < s.holders slot.kind id := by
  have counted : s.holders slot.kind id = Holder.holds s.app slot.kind id + g.pins slot.kind id +
      s.inner slot.kind id + g.loaned slot.kind id := ha.counted slot.kind id hk
  have pos := holds_pos_of_named named
  omega

/-- One more holder of an object that has a name. -/
theorem leads_retain {slot : Slot} {id : Nat} (named : s.app.names.get? slot = some id)
    (shared : slot.kind.isShared) :
    Leads allowed ⟨s, g⟩ ⟨s.retain slot.kind id, g.pin slot.kind id⟩ := by
  refine .of_sound fun ha => ?_
  obtain ⟨kind, name⟩ := slot
  cases kind <;> simp only [Kind.isShared, Bool.false_eq_true] at shared
  · obtain ⟨c, hc⟩ := Pool.get?_of_count_pos (holders_pos_of_named ha named (by simp))
    exact leads_retainRuntime (r := c.value) (by simp [Host.runtime?, hc])
  · obtain ⟨c, hc⟩ := Pool.get?_of_count_pos (holders_pos_of_named ha named (by simp))
    exact leads_retainModule (m := c.value) (by simp [Host.module?, hc])
  · refine leads_retainInstance ?_
    have pos : 0 < Holder.holds s.app .inst id := holds_pos_of_named named
    show 0 < Holder.holds s.app .inst id + g.pins .inst id + s.inner .inst id
    omega

/-! ### What leaves in hand what was -/

/-- A part of a step leaves in hand what was, whether it finds its objects or not. -/
def Steers (allowed : Effect → Prop) (x : SessionM α) (s : Session) (g : Pending) : Prop :=
  Yields x s (fun _ t => Leads allowed ⟨s, g⟩ ⟨t, g⟩) fun t => Leads allowed ⟨s, g⟩ ⟨t, g⟩

/-- Whether a part finds its objects or not, it leads to the session after it. -/
theorem steers_iff {x : SessionM α} :
    Steers allowed x s g ↔ Leads allowed ⟨s, g⟩ ⟨(x.run.run s).2, g⟩ :=
  yields_snd

/-- To return something leads nowhere. -/
theorem steers_pure (a : α) : Steers allowed (pure a) s g := Leads.refl

/-- One part of a step after another. -/
theorem steers_bind {x : SessionM α} {f : α → SessionM β} (first : Steers allowed x s g)
    (rest : ∀ a t, Steers allowed (f a) t g) : Steers allowed (x >>= f) s g :=
  yields_bind first fun a t lead =>
    (rest a t).mono (fun _ _ => lead.trans) fun _ => lead.trans

/-- A part of a step that only looks. -/
theorem steers_of_same {x : SessionM α} (same : Yields x s (fun _ t => t = s) fun t => t = s) :
    Steers allowed x s g :=
  same.mono (fun _ _ eq => eq ▸ .refl) fun _ eq => eq ▸ .refl

/-- What follows a part of a step that only looks. -/
theorem steers_bind_of_same {x : SessionM α} {f : α → SessionM β} {P : α → Prop}
    (first : Yields x s (fun a t => t = s ∧ P a) fun t => t = s)
    (rest : ∀ a, P a → Steers allowed (f a) s g) : Steers allowed (x >>= f) s g := by
  refine yields_bind (first.mono (fun _ _ found => found) fun _ same => same ▸ Leads.refl) ?_
  rintro a _ ⟨rfl, found⟩
  exact rest a found

/-- To look at the session leads nowhere. -/
theorem steers_get : Steers allowed (get : SessionM Session) s g := Leads.refl

/-- To miss something leads nowhere. -/
theorem steers_ofOption (a : Option α) : Steers allowed (SessionM.ofOption a) s g :=
  steers_of_same (by simp)

/-- To look up a name leads nowhere. -/
theorem steers_find (kind : Kind) (name : String) :
    Steers allowed (SessionM.find kind name) s g :=
  steers_of_same (by simp)

/-- A change that leads on. -/
theorem steers_modify {f : Session → Session} (lead : Leads allowed ⟨s, g⟩ ⟨f s, g⟩) :
    Steers allowed (modify f : SessionM PUnit) s g := lead

/-! ### Operations in steps -/

/-- An operation of the host that leads on. -/
theorem steers_host {x : HostM Slots α} (keeps : Keeps allowed x ⟨s, g⟩) :
    Steers allowed (SessionM.host x) s g := by
  simp only [Steers, yields_host]
  unfold Keeps Takes Ends at keeps
  generalize exec x s = r at keeps ⊢
  obtain ⟨e | a, t⟩ := r <;> exact keeps

/-- An operation of the host whose result is the answer. -/
theorem steers_answer (view : α → Session.Payload) {x : HostM Slots α}
    (keeps : Keeps allowed x ⟨s, g⟩) : Steers allowed (SessionM.answer view x) s g :=
  steers_bind (steers_host keeps) fun _ _ => steers_pure _

/-- An operation that may panic: if it does, the step ends there. -/
theorem steers_attempt (view : α → Session.Payload) {x : HostM Slots (Attempt α)}
    (keeps : Keeps allowed x ⟨s, g⟩) : Steers allowed (SessionM.attempt view x) s g :=
  steers_bind (steers_host keeps) fun _ _ => steers_ofOption _

/-- A view that can be taken of an object, and changes nothing. -/
def Shows (view : Nat → SessionM α) (id : Nat) (s : Session) : Prop :=
  Yields (view id) s (fun _ t => t = s) fun _ => False

/-- The hold on a new object goes to its name. -/
theorem steers_create {kind : Kind} {name : String} {x : HostM Slots Nat}
    {view : Nat → SessionM Session.Payload} (renames : allowed .renames)
    (made : Ends x s (fun id t => Shows view id t ∧ Leads allowed ⟨s, g⟩ ⟨t, g.pin kind id⟩)
      fun _ t => Leads allowed ⟨s, g⟩ ⟨t, g⟩) :
    Steers allowed (SessionM.create kind name x view) s g := by
  simp only [Steers, SessionM.create, yields_bind_iff, yields_host]
  unfold Ends at made
  generalize exec x s = r at made ⊢
  obtain ⟨e | id, t⟩ := r
  · exact made
  · obtain ⟨shows, lead⟩ := made
    refine yields_bind (shows.mono (fun _ _ h => h) fun _ => False.elim) ?_
    rintro shown _ rfl
    simp only [yields_bind_iff, yields_keep, yields_pure]
    exact lead.trans (leads_put ⟨kind, name⟩ id renames)

/-- While an object has no name, its hold is in hand. -/
theorem steers_away {kind : Kind} {name : String} {act : Nat → SessionM α}
    (renames : allowed .renames) (acts : ∀ id, s.app.names.get? ⟨kind, name⟩ = some id →
      Steers allowed (act id) (s.modifyNames (·.erase ⟨kind, name⟩)) (g.pin kind id)) :
    Steers allowed (SessionM.away kind name act) s g := by
  simp only [Steers, SessionM.away, yields_bind_iff, yields_find, yields_modify, yields_lift,
    yields_keep, yields_ofOption]
  refine ⟨fun id named => ?_, fun _ => .refl⟩
  have lead := ((leads_erase named renames).trans (steers_iff.1 (acts id named))).trans
    (leads_put ⟨kind, name⟩ id renames)
  exact ⟨fun _ _ => lead, fun _ => lead⟩

/-- While something is done with an object, another hold on it is in hand. -/
theorem steers_holding {kind : Kind} {name : String} {id : Nat} {act : SessionM α}
    (named : s.app.names.get? ⟨kind, name⟩ = some id) (shared : kind.isShared)
    (acts : Steers allowed act (s.retain kind id) (g.pin kind id)) :
    Steers allowed (SessionM.holding kind id act) s g := by
  simp only [Steers, SessionM.holding, yields_bind_iff, yields_modify, yields_lift,
    yields_ofOption]
  have lead := ((leads_retain named shared).trans (steers_iff.1 acts)).trans
    (leads_release kind id)
  exact ⟨fun _ _ => lead, fun _ => lead⟩

end

end Embedder
