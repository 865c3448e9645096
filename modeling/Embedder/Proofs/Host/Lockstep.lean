import Embedder.Proofs.Alike
import Embedder.Proofs.Host.Course

namespace Embedder

/-!
# Two calls in lockstep

What a call does depends on the contents of its store, on what the clock says, and on how it is
answered when it asks for memory. Two calls for which these are the same take the same steps,
whatever else is different around them, the printers that they use included.

* `Store.Like`: stores with the same contents.
* `Lockstep`: relations that what two calls do at a time keeps up, unless the second one gets lost when
  it prints.
* `alike_run`, `alikeAt_drive`, `alikeAt_enter`: callbacks, code, and whole calls.
-/

variable {σ α β : Type} {printer printer' : Printer σ} {c : Caller}
  {R : Flight σ → Flight σ → Prop} {L : Flight σ → Prop}

/-! ### Stores -/

/-- Two stores have the same contents; what they have on loan may be from different environments. -/
structure Store.Like (s t : Store) : Prop where
  guest : t.guest = s.guest
  heap : t.heap = s.heap
  latch : t.latch = s.latch
  lent : t.active.map ActiveCall.userData = s.active.map ActiveCall.userData

/-- A store is like itself. -/
theorem Store.Like.refl (s : Store) : s.Like s :=
  ⟨rfl, rfl, rfl, rfl⟩

/-! ### What a request for memory comes to -/

/-- How many pages a memory had before it grew, and what there is afterwards. -/
structure Growth where
  before : Nat
  limiter : Limiter
  budget : Budget
  guest : Wasm.Guest Callback

namespace Flight

variable (s : Flight σ) (c : Caller) (memory pages : Nat)

/-- What a request for memory comes to, unless it is refused. -/
def growth? : Option Growth := do
  let m ← s.store.guest.memories[memory]?
  let i ← s.host.instance? c.inst
  let commons ← s.host.commons? c.commons
  let size := m.size + pages * Wasm.pageSize
  let (limiter, budget) ← i.limiter.growMemory? commons.budget m.size size m.limit
  pure ⟨m.pages, limiter, budget, s.store.guest.setMemory memory (m.grow size)⟩

/-- The state after a memory has grown. -/
def grow (x : Growth) : Flight σ where
  store := { s.store with guest := x.guest }
  host := (s.host.modifyInstance c.inst fun i => { i with limiter := x.limiter }).modifyBudget c.commons
    fun _ => x.budget

/-- A request for memory is granted as a growth, which says how much there was before and what there is
afterwards. -/
theorem growMemory?_eq_map :
    s.growMemory? c memory pages = (s.growth? c memory pages).map fun x => (x.before, s.grow c x) := by
  unfold growMemory? growth?
  cases s.store.guest.memories[memory]? with
  | none => rfl
  | some m =>
    cases s.host.instance? c.inst with
    | none => rfl
    | some i =>
      cases s.host.commons? c.commons with
      | none => rfl
      | some k =>
        dsimp only [Option.bind_eq_bind, Option.bind_some]
        cases i.limiter.growMemory? k.budget m.size (m.size + pages * Wasm.pageSize) m.limit <;> rfl

/-- A request for memory is granted, or is answered with minus one. -/
theorem exec_growMemory : exec (FlightM.growMemory c memory pages) s =
    match s.growth? c memory pages with
    | none => (.ok (.i32 (-1)), s)
    | some x => (.ok (.i32 (UInt32.ofNat x.before)), s.grow c x) := by
  unfold FlightM.growMemory
  have look : exec (get : FlightM σ (Flight σ)) s = (.ok s, s) := rfl
  rw [exec_bind, look]
  dsimp only
  rw [growMemory?_eq_map]
  cases s.growth? c memory pages <;> rfl

end Flight

/-! ### What keeps calls in lockstep -/

/-- Reading a clock is nothing but to the clock. -/
theorem Host.readClock_eq (h : Host σ) (commons : Nat) :
    ∃ p, (h.readClock commons).2 = { h with commons := p } := by
  unfold Host.readClock
  split
  · exact ⟨h.commons, rfl⟩
  · exact ⟨_, rfl⟩

/-- A relation between calls in flight that what both of them do at a time keeps up, short of asking
for memory. The second one may get lost when it prints, and stays so. -/
structure Lockstep (printer printer' : Printer σ) (c : Caller) (R : Flight σ → Flight σ → Prop)
    (L : Flight σ → Prop) : Prop where
  lost : Working printer' c fun s t => L s → L t
  like : ∀ {s t}, R s t → s.store.Like t.store
  charged : ∀ {s t}, R s t → (s.host.instance? c.inst).map Instance.limiter =
    (t.host.instance? c.inst).map Instance.limiter
  store : ∀ {s t : Flight σ} {s' t' : Store}, R s t → s'.Like t' → s.store.guest.Extends s'.guest →
    s'.heap = s.store.heap → s'.active = s.store.active → t'.active = t.store.active →
      R { s with store := s' } { t with store := t' }
  mark : ∀ {s t} (f : UserData → UserData), (∀ u, (f u).event = u.event) → R s t →
    R (s.mark f) (t.mark f)
  print : ∀ {s t} (bytes : Bytes), R s t → L { t with host := printer' c.commons bytes t.host } ∨
    R { s with host := printer c.commons bytes s.host }
      { t with host := printer' c.commons bytes t.host }
  clock : ∀ {s t}, R s t → (s.host.readClock c.commons).1 = (t.host.readClock c.commons).1 ∧
    R { s with host := (s.host.readClock c.commons).2 }
      { t with host := (t.host.readClock c.commons).2 }

/-- Whether the instance's exports are in reach makes no difference. -/
theorem Lockstep.withExports (steps : Lockstep printer printer' c R L) (hasExports : Bool) :
    Lockstep printer printer' { c with hasExports } R L :=
  ⟨steps.lost.withExports hasExports, steps.like, steps.charged, steps.store, steps.mark, steps.print,
    steps.clock⟩

/-- What holds of no state is never reached. -/
theorem working_never (printer : Printer σ) (c : Caller) :
    Working printer c fun _ _ => False → False where
  refl _ := id
  trans _ _ := id
  store _ _ _ _ _ := id
  print _ _ := id
  clock _ := id
  mark _ _ _ := id
  grow _ _ _ _ _ _ := id

/-- What is lost stays so, whatever a part of a call does that keeps to this. -/
theorem Within.stays {x : FlightM σ α} (within : Within (fun s t => L s → L t) x) : Stays L x :=
  within.snd

section

variable (steps : Lockstep printer printer' c R L) {s t : Flight σ}
include steps

/-! ### What callbacks are made of -/

omit steps in
/-- Both parts go on from their own stores. -/
theorem alikeAt_store {f g : Store → FlightM σ α} (rest : AlikeAt R L (f s.store) (g t.store) s t) :
    AlikeAt R L (FlightM.store >>= f) (FlightM.store >>= g) s t := rest

/-- What two calls make of what their stores have in common. -/
theorem alike_store {f g : Store → FlightM σ α}
    (rest : ∀ s t : Store, s.Like t → Alike R L (f s) (g t)) :
    Alike R L (FlightM.store >>= f) (FlightM.store >>= g) where
  ends s t rel := (rest s.store t.store (steps.like rel)).ends s t rel
  stays t lost := (rest t.store t.store (.refl _)).stays t lost

/-- The same fault is latched in both. -/
theorem alike_latch (latch : Option Fault) :
    Alike R L (FlightM.modifyStore fun s => { s with latch })
      (FlightM.modifyStore fun s => { s with latch }) where
  ends s t rel := by
    have like := steps.like rel
    exact .inr ⟨rfl, steps.store rel ⟨like.guest, like.heap, rfl, like.lent⟩ (.refl _) rfl rfl rfl⟩
  stays t := steps.lost.store t { t.store with latch } (.refl _) rfl rfl

/-- The same fault unwinds both. -/
theorem alike_raise (kind : FaultKind) (message : String) :
    Alike R L (FlightM.raise kind message : FlightM σ α) (FlightM.raise kind message) :=
  alike_bind (alike_latch steps _) fun _ => alike_throw _

/-- What is missing is missing in both. -/
theorem alike_orFail (message : String) (a : Option α) :
    Alike R L (FlightM.orFail message a) (FlightM.orFail message a) := by
  cases a with
  | none => exact alike_raise steps .hostFailure message
  | some a => exact alike_pure a

/-- Both are lent the same user data. -/
theorem alike_userData : Alike R L (FlightM.userData : FlightM σ UserData) FlightM.userData := by
  refine alike_store steps fun s t like => ?_
  rw [like.lent]
  exact alike_orFail steps _ _

/-- User data changes alike, as long as the event stays. -/
theorem alike_modifyUserData {f : UserData → UserData} (event : ∀ u, (f u).event = u.event) :
    Alike R L (FlightM.modifyUserData f) (FlightM.modifyUserData f) where
  ends _ _ rel := .inr ⟨rfl, steps.mark f event rel⟩
  stays t := steps.lost.mark t f event

/-- Clocks tell both the same. -/
theorem alike_clock : Alike R L (FlightM.clock c) (FlightM.clock c) where
  ends s t rel := by
    obtain ⟨same, after⟩ := steps.clock rel
    exact .inr ⟨congrArg Except.ok same, after⟩
  stays := (within_clock steps.lost.toSteady).stays

/-- Moments are the same. -/
theorem alike_now : Alike R L (FlightM.now c) (FlightM.now c) := by
  refine alike_bind (alike_clock steps) fun r => ?_
  cases r with
  | ok time => exact alike_pure time
  | error e => exact alike_raise steps .hostFailure _

/-- The same bytes are printed. -/
theorem alike_printBytes (bytes : Bytes) :
    Alike R L (FlightM.printBytes printer c bytes) (FlightM.printBytes printer' c bytes) where
  ends _ _ rel := (steps.print bytes rel).imp id fun rel => ⟨rfl, rel⟩
  stays t := steps.lost.print t bytes

/-- Counters have the same values. -/
theorem alike_counterValue (name : String) :
    Alike R L (FlightM.counterValue c name) (FlightM.counterValue c name) := by
  refine alike_store steps fun s t like => ?_
  rw [like.guest]
  refine alike_bind (alike_orFail steps _ _) fun found => ?_
  dsimp only
  split
  · exact alike_pure _
  · exact alike_raise steps .hostFailure _

/-- Memories have the same contents. -/
theorem alike_guestMemory : Alike R L (FlightM.guestMemory c) (FlightM.guestMemory c) := by
  refine alike_store steps fun s t like => ?_
  rw [like.guest]
  exact alike_orFail steps _ _

/-- What a probe tells of the bytes charged for its instance's memories. -/
theorem alike_charged {f g : Option Nat → FlightM σ α} (rest : ∀ n, Alike R L (f n) (g n)) :
    Alike R L (get >>= fun s => f ((s.host.instance? c.inst).map fun i => i.limiter.charged.value))
      (get >>= fun s => g ((s.host.instance? c.inst).map fun i => i.limiter.charged.value)) := by
  refine alike_get (fun s t rel => ?_) fun t lost => (rest _).stays t lost
  have charged := congrArg (Option.map fun l : Limiter => l.charged.value) (steps.charged rel)
  rw [Option.map_map, Option.map_map] at charged
  have alike := (rest ((s.host.instance? c.inst).map fun i => i.limiter.charged.value)).ends s t rel
  exact charged ▸ alike

/-! ### Callbacks -/

/-- The same text is printed. -/
theorem alike_print (address : Nat) :
    Alike R L (Native.runPrint printer c address) (Native.runPrint printer' c address) :=
  alike_bind (alike_guestMemory steps) fun _ => alike_bind (alike_orFail steps _ _) fun _ =>
    alike_bind (alike_printBytes steps _) fun _ => alike_pure _

/-- Whatever environments the user data on loan is from, what is made of it is the same. -/
theorem alikeAt_active (rel : R s t) (message : String) (f : UserData → FlightM σ α)
    (rest : ∀ d, AlikeAt R L (f d) (f d) s t) :
    AlikeAt R L (FlightM.orFail message s.store.active >>= fun a => f a.userData)
      (FlightM.orFail message t.store.active >>= fun a => f a.userData) s t := by
  have lent := (steps.like rel).lent
  cases hs : s.store.active with
  | none =>
    rw [hs, Option.map_none, Option.map_eq_none_iff] at lent
    rw [lent]
    exact (alike_raise steps .hostFailure message).ends s t rel
  | some a =>
    rw [hs, Option.map_some] at lent
    obtain ⟨b, hb, same⟩ := Option.map_eq_some_iff.1 lent
    rw [hb]
    show AlikeAt R L (f a.userData) (f b.userData) s t
    rw [same]
    exact rest a.userData

/-- The same bytes are copied to the same place. -/
theorem alike_copy (name : String) (select : UserData → Bytes) (address capacity : Nat) :
    Alike R L (Native.runCopy c name select address capacity)
      (Native.runCopy c name select address capacity) where
  ends := by
    intro s t rel
    have free : ∀ p : Printer σ, Steady p c fun _ _ => True := fun _ =>
      ⟨fun _ => trivial, fun _ _ => trivial, fun _ _ _ _ _ => trivial, fun _ _ => trivial,
        fun _ => trivial⟩
    refine alikeAt_bind ((alike_guestMemory steps).ends s t rel) (fun found u v hu _ rel' => ?_)
      fun found v hv lost => ?_
    · obtain ⟨rfl, present⟩ := (ends_guestMemory (free printer) s).of_ok hu
      refine alikeAt_active steps rel' _ (fun d => do
        let bytes := (select d).take capacity
        let m ← FlightM.orFail
          (name ++ s!": {bytes.length} bytes at guest address {address} are out of bounds")
          (found.2.write? address bytes)
        FlightM.modifyStore fun s => { s with guest := s.guest.setMemory found.1 m }
        pure (Native.lengthResult (select d).length)) fun d => ?_
      dsimp only
      cases written : found.2.write? address ((select d).take capacity) with
      | none => exact (alike_raise steps .hostFailure _).ends u v rel'
      | some m =>
        obtain ⟨size, maximum⟩ := Wasm.Guest.write?_shape written
        have like := steps.like rel'
        refine .inr ⟨rfl, steps.store rel' ⟨?_, like.heap, like.latch, like.lent⟩
          (Wasm.Guest.extends_setMemory present size maximum) rfl rfl rfl⟩
        exact congrArg (fun g : Wasm.Guest Callback => g.setMemory found.1 m) like.guest
    · -- Looking for the memory has changed nothing.
      obtain ⟨rfl, -⟩ := (ends_guestMemory (free printer') t).of_ok hv
      have stays := (within_copy steps.lost.toSteady name select address capacity).stays v lost
      unfold Native.runCopy at stays
      rw [exec_bind, hv] at stays
      exact stays
  stays := (within_copy steps.lost.toSteady name select address capacity).stays

/-- Every callback of the guest interface does the same in both. -/
theorem alike_native (n : Native) (args : List Wasm.Value) :
    Alike R L (n.run printer c args) (n.run printer' c args) := by
  -- One case for each callback, as a sequence of the parts above.
  unfold Native.run
  split
  case h_1 => exact alike_pure _
  case h_2 => exact alike_print steps _
  case h_3 => exact alike_print steps _
  case h_4 =>
    refine alike_bind (alike_printBytes steps _) fun _ => ?_
    refine alike_bind (alike_now steps) fun _ => ?_
    refine alike_bind (alike_userData steps) fun _ => ?_
    exact alike_bind (alike_modifyUserData steps fun _ => rfl) fun _ => alike_pure _
  case h_5 =>
    refine alike_bind (alike_now steps) fun _ => ?_
    refine alike_bind (alike_userData steps) fun _ => ?_
    exact alike_bind (alike_printBytes steps _) fun _ => alike_pure _
  case h_6 => exact alike_bind (alike_userData steps) fun _ => alike_pure _
  case h_7 => exact alike_bind (alike_userData steps) fun _ => alike_pure _
  case h_8 => exact alike_copy steps _ _ _ _
  case h_9 => exact alike_copy steps _ _ _ _
  case h_10 => exact alike_raise steps _ _
  case h_11 => exact alike_raise steps _ _
  case h_12 =>
    refine alike_bind (alike_counterValue steps _) fun _ => ?_
    refine alike_bind (alike_counterValue steps _) fun _ => ?_
    refine alike_bind (alike_printBytes steps _) fun _ => ?_
    refine alike_bind (alike_userData steps) fun _ => ?_
    exact alike_bind (alike_modifyUserData steps fun _ => rfl) fun _ => alike_raise steps _ _
  case h_13 => exact alike_throw _

/-- So does every probe. -/
theorem alike_probe (p : Probe) (args : List Wasm.Value) :
    Alike R L (p.run printer c args) (p.run printer' c args) := by
  unfold Probe.run
  split
  · exact alike_throw _
  · exact alike_throw _
  · exact alike_bind (alike_latch steps _) fun _ => alike_pure _
  · exact alike_raise steps _ _
  -- What a probe looks at is what stores that are alike have in common.
  · refine alike_store steps fun s t like => ?_
    rw [like.latch]
    exact alike_bind (alike_latch steps none) fun _ => alike_pure _
  · exact alike_charged steps fun n => alike_pure [Wasm.Value.i64 (UInt64.ofNat (n.getD 0))]
  · refine alike_store steps fun s t like => ?_
    have active := congrArg Option.isSome like.lent
    rw [Option.isSome_map, Option.isSome_map] at active
    rw [active]
    exact alike_pure _
  · refine alike_bind (alike_clock steps) fun r => ?_
    cases r <;> exact alike_pure _
  · exact alike_bind (alike_modifyUserData steps fun _ => rfl) fun _ => alike_pure _
  · refine alike_charged steps (f := fun n => do
      FlightM.printBytes printer c (Bytes.ofText ((← FlightM.store).debug (n.getD 0)))
      pure []) (g := fun n => do
      FlightM.printBytes printer' c (Bytes.ofText ((← FlightM.store).debug (n.getD 0)))
      pure []) fun n => ?_
    refine alike_store steps fun s t like => ?_
    have active := congrArg Option.isSome like.lent
    rw [Option.isSome_map, Option.isSome_map] at active
    have debug : t.debug (n.getD 0) = s.debug (n.getD 0) := by
      unfold Store.debug
      rw [like.latch, active]
    rw [debug]
    exact alike_bind (alike_printBytes steps _) fun _ => alike_pure _
  · exact alike_throw _

/-- Callbacks that are called with the same arguments end alike. -/
theorem alike_run (n : Callback) (args : List Wasm.Value) :
    Alike R L (n.run printer c args) (n.run printer' c args) := by
  cases n with
  | native n => exact alike_native steps n args
  | probe p => exact alike_probe steps p args

/-! ### Code -/

omit steps in
/-- Two calls that come to the same when they ask for memory end alike. -/
theorem alikeAt_growMemory {memory pages : Nat} (rel : R s t)
    (same : (s.growth? c memory pages).map Growth.before = (t.growth? c memory pages).map Growth.before)
    (grown : ∀ x y, s.growth? c memory pages = some x → t.growth? c memory pages = some y →
      R (s.grow c x) (t.grow c y)) :
    AlikeAt R L (FlightM.growMemory c memory pages) (FlightM.growMemory c memory pages) s t := by
  refine .inr ?_
  rw [Flight.exec_growMemory, Flight.exec_growMemory]
  rcases hx : s.growth? c memory pages with _ | x <;>
    rcases hy : t.growth? c memory pages with _ | y <;> rw [hx, hy] at same
  · exact ⟨rfl, rel⟩
  · cases same
  · cases same
  · have before : x.before = y.before := Option.some.inj same
    dsimp only
    rw [before]
    exact ⟨rfl, grown x y hx hy⟩

/-- **Code in lockstep.** By induction on the steps: two runs of the same code take the same steps, as
long as they are answered alike when they ask for memory. -/
theorem alikeAt_drive [Engine] {fuel : Nat} {thread : Engine.Thread} (rel : R s t)
    (grow : ∀ memory pages u v, R u v → Wanted printer c fuel thread s memory pages u →
      Wanted printer' c fuel thread t memory pages v →
        AlikeAt R L (FlightM.growMemory c memory pages) (FlightM.growMemory c memory pages) u v) :
    AlikeAt R L (FlightM.drive printer c fuel thread) (FlightM.drive printer' c fuel thread) s t := by
  induction fuel generalizing thread s t with
  | zero => exact .inr ⟨rfl, rel⟩
  | succ fuel ih =>
    unfold FlightM.drive
    refine alikeAt_store ?_
    -- The guests are the same, so both threads take the same step.
    have guest := (steps.like rel).guest
    rw [guest]
    cases step : Engine.step s.store.guest thread with
    | running guest' thread' =>
      have step' := step
      rw [← guest] at step'
      have like := steps.like rel
      have first : R { s with store := { s.store with guest := guest' } }
          { t with store := { t.store with guest := guest' } } :=
        steps.store rel ⟨rfl, like.heap, like.latch, like.lent⟩ (Engine.step_extends step) rfl
          rfl rfl
      exact ih first fun memory pages u v rel wanted wanted' =>
        grow memory pages u v rel (wanted.running step) (wanted'.running step')
    | finished values => exact .inr ⟨rfl, rel⟩
    | trapped trap => exact .inr ⟨rfl, rel⟩
    | calls n args results thread' =>
      have step' := step
      rw [← guest] at step'
      refine alikeAt_bind ((alike_run (steps.withExports true) n args).ends s t rel) ?_
        fun _ v _ => (within_drive steps.lost fuel _).stays v
      intro values u v hu hv rel
      exact ih rel fun memory pages u v rel wanted wanted' =>
        grow memory pages u v rel (wanted.returned step hu) (wanted'.returned step' hv)
    | grows memory pages thread' =>
      have step' := step
      rw [← guest] at step'
      refine alikeAt_bind (grow memory pages s t rel ⟨fuel, thread, thread', .here, step⟩
        ⟨fuel, thread, thread', .here, step'⟩) ?_ fun _ v _ => (within_drive steps.lost fuel _).stays v
      intro before u v hu hv rel
      exact ih rel fun memory pages u v rel wanted wanted' =>
        grow memory pages u v rel (wanted.grown step hu) (wanted'.grown step' hv)

/-- **Calls in lockstep.** Two calls of the same function end alike, as long as their code is answered
alike when it asks for memory. -/
theorem alikeAt_enter [Engine] {room function : Nat} {args : List Wasm.Value} (rel : R s t)
    (grow : ∀ memory pages u v, R u v →
      s.Wants printer c room function args memory pages u →
      t.Wants printer' c room function args memory pages v →
        AlikeAt R L (FlightM.growMemory c memory pages) (FlightM.growMemory c memory pages) u v) :
    AlikeAt R L (FlightM.enter printer c room function args)
      (FlightM.enter printer' c room function args) s t := by
  unfold FlightM.enter
  refine alikeAt_store ?_
  have guest := (steps.like rel).guest
  unfold Flight.Wants at grow
  rw [guest] at grow ⊢
  cases found : s.store.guest.funcs[function]? with
  | none => exact .inr ⟨rfl, rel⟩
  | some f =>
    simp only [found] at grow
    cases f with
    | native n type => exact (alike_run steps n args).ends s t rel
    | code type code => exact alikeAt_drive steps rel grow

end

end Embedder
