import Embedder.Proofs.Host.Flight

namespace Embedder

/-!
# The course of a call

A call that has entered a guest runs its code step by step, and every request of the code is answered
before the next step. What each answer does, the whole run does; and what is true of the beginning
and of each answer is true of every state on the way.

* `Reaches`, `Asked`, `Wanted`: the states that a run passes through, and what its code asks for in
  them.
* `Flight.Asks`, `Flight.Wants`: the same for a call of a function.
* `ends_drive_of_asked`, `Reaches.within`: the end of a run, and the states on the way.
* `within_drive`, `within_enter`, `within_populate`: code, a whole call, and the initial state of an
  instance.
-/

variable [Engine] {σ α β : Type} {printer : Printer σ} {c : Caller} {R : Flight σ → Flight σ → Prop}

/-! ### States on the way -/

/-- The states that a run of a thread passes through, with the steps that it has left. -/
inductive Reaches (printer : Printer σ) (c : Caller) :
    Nat → Engine.Thread → Flight σ → Nat → Engine.Thread → Flight σ → Prop
  /-- The run is there. -/
  | here {fuel : Nat} {t : Engine.Thread} {s : Flight σ} : Reaches printer c fuel t s fuel t s
  /-- It gets there after a step of the code. -/
  | running {fuel left : Nat} {t t' u : Engine.Thread} {s s' : Flight σ}
    {guest : Wasm.Guest Callback}
      (step : Engine.step s.store.guest t = .running guest t')
      (later : Reaches printer c fuel t' { s with store := { s.store with guest } } left u s') :
      Reaches printer c (fuel + 1) t s left u s'
  /-- It gets there after a callback. -/
  | returned {fuel left : Nat} {t t' u : Engine.Thread} {s s₁ s' : Flight σ} {n : Callback}
      {args values : List Wasm.Value} {results : List Wasm.ValType}
      (step : Engine.step s.store.guest t = .calls n args results t')
      (done : exec (n.run printer { c with hasExports := true } args) s = (.ok values, s₁))
      (later : Reaches printer c fuel (Engine.resume t' values) s₁ left u s') :
      Reaches printer c (fuel + 1) t s left u s'
  /-- It gets there after it has asked for memory. -/
  | grown {fuel left memory pages : Nat} {t t' u : Engine.Thread} {s s₁ s' : Flight σ}
      {before : Wasm.Value} (step : Engine.step s.store.guest t = .grows memory pages t')
      (done : exec (FlightM.growMemory c memory pages) s = (.ok before, s₁))
      (later : Reaches printer c fuel (Engine.push t' before) s₁ left u s') :
      Reaches printer c (fuel + 1) t s left u s'

/-- In a state on the way, the code calls a callback. -/
def Asked (printer : Printer σ) (c : Caller) (fuel : Nat) (t : Engine.Thread) (s : Flight σ)
    (n : Callback) (args : List Wasm.Value) (u : Flight σ) : Prop :=
  ∃ left t' results t'', Reaches printer c fuel t s (left + 1) t' u ∧
    Engine.step u.store.guest t' = .calls n args results t''

/-- In a state on the way, the code asks for more pages of a memory. -/
def Wanted (printer : Printer σ) (c : Caller) (fuel : Nat) (t : Engine.Thread) (s : Flight σ)
    (memory pages : Nat) (u : Flight σ) : Prop :=
  ∃ left t' t'', Reaches printer c fuel t s (left + 1) t' u ∧
    Engine.step u.store.guest t' = .grows memory pages t''

namespace Flight

/-- In a state on the way of a call, a callback is called: the function that is called itself, or one
that its code calls. -/
def Asks (printer : Printer σ) (c : Caller) (room function : Nat) (args : List Wasm.Value)
    (s : Flight σ) (n : Callback) (given : List Wasm.Value) (u : Flight σ) : Prop :=
  match s.store.guest.funcs[function]? with
  | none => False
  | some (.native n' _) => n' = n ∧ args = given ∧ u = s
  | some (.code type code) =>
    Asked printer c Engine.fuel (Engine.start type code args room) s n given u

/-- In a state on the way of a call, its code asks for more pages of a memory. -/
def Wants (printer : Printer σ) (c : Caller) (room function : Nat) (args : List Wasm.Value)
    (s : Flight σ) (memory pages : Nat) (u : Flight σ) : Prop :=
  match s.store.guest.funcs[function]? with
  | some (.code type code) =>
    Wanted printer c Engine.fuel (Engine.start type code args room) s memory pages u
  | _ => False

end Flight

/-! ### Code -/

section

variable {fuel : Nat} {t t' : Engine.Thread} {s u : Flight σ} {n : Callback}
  {args values : List Wasm.Value} {results : List Wasm.ValType}

/-- What is asked for after a step of the guest is asked for with one step more. -/
theorem Asked.running {guest : Wasm.Guest Callback} {given : List Wasm.Value}
    (step : Engine.step s.store.guest t = .running guest t')
    (asked : Asked printer c fuel t' { s with store := { s.store with guest } } n given u) :
    Asked printer c (fuel + 1) t s n given u := by
  obtain ⟨left, t₁, results, t₂, reaches, calls⟩ := asked
  exact ⟨left, t₁, results, t₂, .running step reaches, calls⟩

/-- So it is after a callback has returned. -/
theorem Asked.returned {m : Callback} {given : List Wasm.Value} {s₁ : Flight σ}
    (step : Engine.step s.store.guest t = .calls m args results t')
    (done : exec (m.run printer { c with hasExports := true } args) s = (.ok values, s₁))
    (asked : Asked printer c fuel (Engine.resume t' values) s₁ n given u) :
    Asked printer c (fuel + 1) t s n given u := by
  obtain ⟨left, t₁, results, t₂, reaches, calls⟩ := asked
  exact ⟨left, t₁, results, t₂, .returned step done reaches, calls⟩

/-- So it is after memory has grown, or has not. -/
theorem Asked.grown {memory pages : Nat} {before : Wasm.Value} {given : List Wasm.Value}
    {s₁ : Flight σ} (step : Engine.step s.store.guest t = .grows memory pages t')
    (done : exec (FlightM.growMemory c memory pages) s = (.ok before, s₁))
    (asked : Asked printer c fuel (Engine.push t' before) s₁ n given u) :
    Asked printer c (fuel + 1) t s n given u := by
  obtain ⟨left, t₁, results, t₂, reaches, calls⟩ := asked
  exact ⟨left, t₁, results, t₂, .grown step done reaches, calls⟩

variable {memory pages : Nat}

/-- Memory that is wanted after a step of the guest is wanted with one step more. -/
theorem Wanted.running {guest : Wasm.Guest Callback}
    (step : Engine.step s.store.guest t = .running guest t')
    (wanted : Wanted printer c fuel t' { s with store := { s.store with guest } } memory pages u) :
    Wanted printer c (fuel + 1) t s memory pages u := by
  obtain ⟨left, t₁, t₂, reaches, grows⟩ := wanted
  exact ⟨left, t₁, t₂, .running step reaches, grows⟩

/-- So it is after a callback has returned. -/
theorem Wanted.returned {s₁ : Flight σ} (step : Engine.step s.store.guest t = .calls n args results t')
    (done : exec (n.run printer { c with hasExports := true } args) s = (.ok values, s₁))
    (wanted : Wanted printer c fuel (Engine.resume t' values) s₁ memory pages u) :
    Wanted printer c (fuel + 1) t s memory pages u := by
  obtain ⟨left, t₁, t₂, reaches, grows⟩ := wanted
  exact ⟨left, t₁, t₂, .returned step done reaches, grows⟩

/-- So it is after another request for memory. -/
theorem Wanted.grown {memory' pages' : Nat} {before : Wasm.Value} {s₁ : Flight σ}
    (step : Engine.step s.store.guest t = .grows memory' pages' t')
    (done : exec (FlightM.growMemory c memory' pages') s = (.ok before, s₁))
    (wanted : Wanted printer c fuel (Engine.push t' before) s₁ memory pages u) :
    Wanted printer c (fuel + 1) t s memory pages u := by
  obtain ⟨left, t₁, t₂, reaches, grows⟩ := wanted
  exact ⟨left, t₁, t₂, .grown step done reaches, grows⟩

end

/-- A relation that allows what the callbacks do to the lent user data. -/
def Allows (R : Flight σ → Flight σ → Prop) (asked : Callback → List Wasm.Value → Prop) : Prop :=
  ∀ n args f, asked n args → n.Marks args f → ∀ s : Flight σ, R s (s.mark f)

section

variable (steady : Steady printer c R)
  (grow : ∀ s memory pages before t, s.growMemory? c memory pages = some (before, t) → R s t)
include steady grow

/-- **Running code.** By induction on the steps: the callbacks that the code calls, and its other
steps, are all that a run does. -/
theorem ends_drive_of_asked {fuel : Nat} {t : Engine.Thread} {s : Flight σ}
    (allows : Allows R fun n args => ∃ u, Asked printer c fuel t s n args u) :
    Ends (FlightM.drive printer c fuel t) s (fun _ u => R s u) fun _ u => R s u := by
  -- What a later step asks for has been asked for by the thread as a whole, so the assumption
  -- passes to the rest.
  induction fuel generalizing t s with
  | zero => exact steady.refl s
  | succ fuel ih =>
    unfold FlightM.drive
    rw [ends_bind_iff, ends_loan]
    cases step : Engine.step s.store.guest t with
    | running guest t' =>
      rw [ends_bind_iff, ends_modifyStore]
      have first := steady.store s { s.store with guest } (Engine.step_extends step) rfl rfl
      have rest := ih (t := t') (s := { s with store := { s.store with guest } })
        fun n args f ⟨u, asked⟩ => allows n args f ⟨u, asked.running step⟩
      exact rest.mono (fun _ _ => steady.trans first) fun _ _ => steady.trans first
    | finished values => exact steady.refl s
    | trapped trap => exact steady.refl s
    | calls n args results t' =>
      have here := within_run (steady.withExports true) n args
        (fun f => allows n args f ⟨s, fuel, t, results, t', .here, step⟩) s
      rcases ended : exec (n.run printer { c with hasExports := true } args) s with
        ⟨cause | values, u⟩
      · rw [ends_bind_of_error ended]
        exact here.of_error ended
      · rw [ends_bind_of_ok ended]
        have first := here.of_ok ended
        have rest := ih (t := Engine.resume t' values) (s := u)
          fun n args f ⟨v, asked⟩ => allows n args f ⟨v, asked.returned step ended⟩
        exact rest.mono (fun _ _ => steady.trans first) fun _ _ => steady.trans first
    | grows memory pages t' =>
      have here := within_growMemory steady memory pages (fun s => grow s memory pages) s
      rcases ended : exec (FlightM.growMemory c memory pages) s with ⟨cause | before, u⟩
      · rw [ends_bind_of_error ended]
        exact here.of_error ended
      · rw [ends_bind_of_ok ended]
        have first := here.of_ok ended
        have rest := ih (t := Engine.push t' before) (s := u)
          fun n args f ⟨v, asked⟩ => allows n args f ⟨v, asked.grown step ended⟩
        exact rest.mono (fun _ _ => steady.trans first) fun _ _ => steady.trans first

/-- **States on the way.** What is allowed leads from the beginning of a run to every state on its
way. -/
theorem Reaches.within {fuel left : Nat} {t t' : Engine.Thread} {s u : Flight σ}
    (reaches : Reaches printer c fuel t s left t' u)
    (allows : Allows R fun n args => ∃ u, Asked printer c fuel t s n args u) : R s u := by
  induction reaches with
  | here => exact steady.refl _
  | @running _ _ _ _ _ s _ guest step _ ih =>
    refine steady.trans (steady.store s { s.store with guest } ?_ rfl rfl) (ih ?_)
    · exact Engine.step_extends step
    · exact fun n args f ⟨u, asked⟩ => allows n args f ⟨u, asked.running step⟩
  | @returned fuel _ t t' _ s _ _ n args _ results step done _ ih =>
    refine steady.trans ?_ (ih fun n args f ⟨u, asked⟩ =>
      allows n args f ⟨u, asked.returned step done⟩)
    exact (within_run (steady.withExports true) n args
      (fun f => allows n args f ⟨s, fuel, t, results, t', .here, step⟩) s).of_ok done
  | @grown _ _ memory pages _ _ _ s _ _ _ step done _ ih =>
    refine steady.trans ?_ (ih fun n args f ⟨u, asked⟩ => allows n args f ⟨u, asked.grown step done⟩)
    exact (within_growMemory steady memory pages (fun s => grow s memory pages) s).of_ok done

variable {room function : Nat} {args : List Wasm.Value} {s : Flight σ}
  (allows : Allows R fun n given => ∃ u, s.Asks printer c room function args n given u)
include allows

/-- **Calls.** The callbacks that are called during a call, and the other steps of its code, are all
that it does. -/
theorem ends_enter_of_asked :
    Ends (FlightM.enter printer c room function args) s (fun _ u => R s u) fun _ u => R s u := by
  unfold FlightM.enter
  unfold Flight.Asks at allows
  rw [ends_bind_iff, ends_loan]
  cases found : s.store.guest.funcs[function]? with
  | none => exact steady.refl s
  | some f =>
    simp only [found] at allows
    cases f with
    | native n type =>
      exact within_run steady n args (fun f => allows n args f ⟨s, rfl, rfl, rfl⟩) s
    | code type code => exact ends_drive_of_asked steady grow allows

/-- A callback is asked for in a state that the call has led to. -/
theorem Flight.Asks.within {n : Callback} {given : List Wasm.Value} {u : Flight σ}
    (asks : s.Asks printer c room function args n given u) : R s u := by
  unfold Flight.Asks at asks allows
  cases found : s.store.guest.funcs[function]? with
  | none => simp [found] at asks
  | some f =>
    simp only [found] at asks allows
    cases f with
    | native _ type =>
      obtain ⟨-, -, rfl⟩ := asks
      exact steady.refl u
    | code type code =>
      obtain ⟨_, _, _, _, reaches, -⟩ := asks
      exact reaches.within steady grow allows

end

section

variable (working : Working printer c R)
include working

/-- However many steps a thread takes, each is allowed. -/
theorem within_drive (fuel : Nat) (t : Engine.Thread) : Within R (FlightM.drive printer c fuel t) :=
  fun _ => ends_drive_of_asked working.toSteady working.grow fun _ _ f _ marks s =>
    working.mark s f marks.event

/-- To enter a guest stays within what its steps, its callbacks and its requests for memory may
do, by induction on the steps. -/
theorem within_enter (room function : Nat) (args : List Wasm.Value) :
    Within R (FlightM.enter printer c room function args) :=
  fun _ => ends_enter_of_asked working.toSteady working.grow fun _ _ f _ marks s =>
    working.mark s f marks.event

/-! ### Initial state -/

omit [Engine] in
/-- One thing after another, by induction on the list. -/
theorem within_forM (l : List α) {f : α → FlightM σ PUnit} (each : ∀ a, Within R (f a)) :
    Within R (l.forM f) := by
  induction l with
  | nil => exact within_pure working.toSteady _
  | cons a l ih => exact within_bind working.toSteady (each a) fun _ => ih

omit [Engine] in
/-- A guest that is extended. -/
theorem within_modifyGuest {f : Wasm.Guest Callback → Wasm.Guest Callback}
    (guest : ∀ g : Wasm.Guest Callback, g.Extends (f g)) : Within R (FlightM.modifyGuest f) :=
  within_modifyStore working.toSteady (fun s => guest s.guest) (fun _ => rfl) fun _ => rfl

omit [Engine] in
/-- A memory is added with its charge. -/
theorem within_addMemory (limits : Wasm.Limits) : Within R (FlightM.addMemory c limits) := by
  refine within_bind working.toSteady (within_store working.toSteady) fun s => ?_
  refine within_bind working.toSteady ?_ fun _ => ?_
  · exact within_modifyGuest working fun g => Wasm.Guest.extends_push g _
  · intro s
    rw [ends_bind_iff, ends_get]
    split
    case h_1 before t grown => exact working.grow s _ _ before t grown
    case h_2 => exact working.refl s

omit [Engine] in
/-- A table is filled. -/
theorem within_putElement (e : Wasm.Element) : Within R (FlightM.putElement (σ := σ) e) := by
  intro s
  unfold FlightM.putElement
  rw [ends_bind_iff, ends_loan]
  dsimp only
  split
  · refine within_modifyGuest working (fun g => ?_) s
    exact .of_memories rfl rfl rfl id
  · exact working.refl s

omit [Engine] in
/-- A memory is filled with data. -/
theorem within_putData (d : Wasm.Data) : Within R (FlightM.putData (σ := σ) d) := by
  intro s
  unfold FlightM.putData
  rw [ends_bind_iff, ends_loan]
  dsimp only
  split
  case h_1 guest stored => exact working.store s _ (Wasm.Guest.storeBytes?_extends stored) rfl rfl
  case h_2 => exact working.refl s

/-- Bringing a guest into its initial state is allowed, its start function included. -/
theorem within_populate (room : Nat) (m : Wasm.Module) :
    Within R (FlightM.populate printer c room m) := by
  unfold FlightM.populate
  refine within_bind working.toSteady (within_forM working _ (within_addMemory working)) fun _ => ?_
  refine within_bind working.toSteady (within_forM working _ fun _ => ?_) fun _ => ?_
  · refine within_modifyGuest working fun g => ?_
    exact .of_memories rfl rfl rfl id
  refine within_bind working.toSteady (within_forM working _ fun _ => ?_) fun _ => ?_
  · exact within_modifyGuest working fun g => Wasm.Guest.extends_pushGlobal g _
  refine within_bind working.toSteady (within_forM working _ (within_putElement working)) fun _ => ?_
  refine within_bind working.toSteady (within_forM working _ (within_putData working)) fun _ => ?_
  split
  · exact within_pure working.toSteady _
  · exact within_bind working.toSteady (within_enter (working.withExports true) _ _ _) fun _ =>
      within_pure working.toSteady _

end

end Embedder
