import Embedder.Proofs.Host.Pending

namespace Embedder

/-!
# Which calls enter a guest

A call enters its guest exactly if nothing speaks against it: the store is free, a function is
exported under the name, no fault is pending, and the arguments and the results that are asked for
are what the function's type declares. Otherwise the first of these that fails is the answer, and
nothing has changed.

* `Fits`, `encodeCall_of_fits`, `encodeCall_of_not_fits`: calls and signatures.
* `Instance.Admits`, `Instance.Refuses`: what speaks for a call, and what is first against it.
* `Host.Gated`, `call_gated`: the rule, and that every host keeps to it.
-/

/-! ### Signatures -/

/-- Arguments and requested results are of the categories that a function type declares, in number
and in position. -/
def Fits (type : Wasm.FuncType) (args : List HostValue) (results : List HostType) : Prop :=
  type.params.map NumType.ofValType = args.map (fun a => some a.encode.kind) ∧
    type.results.map NumType.ofValType = results.map fun r => some r.kind

instance (type : Wasm.FuncType) (args : List HostValue) (results : List HostType) :
    Decidable (Fits type args results) :=
  inferInstanceAs (Decidable (_ ∧ _))

/-- Arguments pass if their kinds are those of the parameters, position by position. -/
theorem checkParams_eq_ok_iff {params : List Wasm.ValType} {wires : List Wire}
    (number : params.length = wires.length) : checkParams params wires = .ok () ↔
      params.map NumType.ofValType = wires.map fun w => some w.kind := by
  induction params generalizing wires with
  | nil => simp [checkParams, List.length_eq_zero_iff.1 number.symm]
  | cons declared params ih =>
    obtain ⟨given, wires, rfl⟩ := List.exists_cons_of_length_eq_add_one number.symm
    have rest := ih (Nat.succ.inj number)
    unfold checkParams
    cases kind : NumType.ofValType declared with
    | none => simp [kind]
    | some k =>
      by_cases same : k = given.kind
      · simp [kind, same, rest]
      · simp [kind, same]

/-- Results pass if their kinds are those that are declared, position by position. -/
theorem checkResults_eq_ok_iff {declared : List Wasm.ValType} {results : List HostType}
    (number : declared.length = results.length) : checkResults declared results = .ok () ↔
      declared.map NumType.ofValType = results.map fun r => some r.kind := by
  induction declared generalizing results with
  | nil => simp [checkResults, List.length_eq_zero_iff.1 number.symm]
  | cons first declared ih =>
    obtain ⟨requested, results, rfl⟩ := List.exists_cons_of_length_eq_add_one number.symm
    have rest := ih (Nat.succ.inj number)
    unfold checkResults
    cases kind : NumType.ofValType first with
    | none => simp [kind]
    | some k =>
      by_cases same : k = requested.kind
      · simp [kind, same, rest]
      · simp [kind, same]

/-- An error that tells what was expected in place of what was found. -/
def Error.IsMismatch (e : Error) : Prop :=
  ∃ expected found, e = .typeMismatch expected found

/-- Arguments that do not pass are a mismatch. -/
theorem checkParams_error {params : List Wasm.ValType} {wires : List Wire} {e : Error}
    (failed : checkParams params wires = .error e) : e.IsMismatch := by
  induction params generalizing wires with
  | nil => cases failed
  | cons declared params ih =>
    cases wires with
    | nil => cases failed
    | cons given wires =>
      unfold checkParams at failed
      split at failed
      · split at failed
        · exact ih failed
        · cases failed
          exact ⟨_, _, rfl⟩
      · cases failed
        exact ⟨_, _, rfl⟩

/-- So are results. -/
theorem checkResults_error {declared : List Wasm.ValType} {results : List HostType} {e : Error}
    (failed : checkResults declared results = .error e) : e.IsMismatch := by
  induction declared generalizing results with
  | nil => cases failed
  | cons first declared ih =>
    cases results with
    | nil => cases failed
    | cons requested results =>
      unfold checkResults at failed
      split at failed
      · split at failed
        · exact ih failed
        · cases failed
          exact ⟨_, _, rfl⟩
      · cases failed
        exact ⟨_, _, rfl⟩

section

variable {type : Wasm.FuncType} {args : List HostValue} {results : List HostType}

/-- The arguments as the guest gets them. -/
def wireValues (args : List HostValue) : List Wasm.Value :=
  args.map fun a => a.encode.toValue

/-- A call that fits is encoded. -/
theorem encodeCall_of_fits (fits : Fits type args results) :
    encodeCall type args results = .ok (wireValues args) := by
  obtain ⟨params, declared⟩ := fits
  have arity : type.params.length = (args.map HostValue.encode).length := by
    simpa using congrArg List.length params
  have arity' : type.results.length = results.length := by
    simpa using congrArg List.length declared
  have checked := (checkParams_eq_ok_iff arity).2 (by simpa [Function.comp_def] using params)
  have checked' := (checkResults_eq_ok_iff arity').2 declared
  simp only [encodeCall, arity, arity', ne_eq, not_true_eq_false, if_false, checked, checked']
  simp [bind, Except.bind, pure, Except.pure, wireValues, Function.comp_def]

/-- A call that does not fit is told what was expected. -/
theorem encodeCall_of_not_fits (unfit : ¬ Fits type args results) :
    ∃ e, encodeCall type args results = .error e ∧ e.IsMismatch := by
  unfold encodeCall
  dsimp only
  split
  · exact ⟨_, rfl, _, _, rfl⟩
  case isFalse arity =>
    -- Numbers are compared before kinds, and arguments before results.
    cases checked : checkParams type.params (args.map HostValue.encode) with
    | error e => exact ⟨e, rfl, checkParams_error checked⟩
    | ok _ =>
      dsimp only [bind, Except.bind]
      split
      · exact ⟨_, rfl, _, _, rfl⟩
      case isFalse arity' =>
        cases checked' : checkResults type.results results with
        | error e => exact ⟨e, rfl, checkResults_error checked'⟩
        | ok _ =>
          have params := (checkParams_eq_ok_iff (not_not.1 arity)).1 checked
          have declared := (checkResults_eq_ok_iff (not_not.1 arity')).1 checked'
          exact absurd ⟨by simpa [Function.comp_def] using params, declared⟩ unfit

end

/-! ### What is for and against a call -/

section

variable (i : Instance) (name : String) (args : List HostValue) (results : List HostType)

/-- Nothing speaks against a call of an instance: its store is free, a function is exported under
the name, no fault is pending, and the call fits the function's type. -/
inductive Instance.Admits : Prop
  | intro {s : Store} {function : Nat} {type : Wasm.FuncType} (free : i.store = some s)
      (exported : s.guest.exportedFunc? name = some function)
      (typed : (s.guest.funcs[function]?).map Wasm.Func.type = some type)
      (calm : s.latch = none) (fits : Fits type args results)

/-- What is the first to speak against a call of an instance. -/
inductive Instance.Refuses : Error → Prop
  /-- Another operation holds the store. -/
  | busy (held : i.store = none) : Refuses .busy
  /-- No function is exported under the name. -/
  | absent {s : Store} (free : i.store = some s) (absent : s.guest.exportedFunc? name = none) :
      Refuses (.notFound .function name)
  /-- A fault is pending. -/
  | pending {s : Store} {function : Nat} {fault : Fault} (free : i.store = some s)
      (exported : s.guest.exportedFunc? name = some function) (latched : s.latch = some fault) :
      Refuses (.guestTrap ⟨fault.kind, "pending exception: " ++ fault.message⟩)
  /-- The call does not fit the function's type. -/
  | mismatch {s : Store} {function : Nat} {type : Wasm.FuncType} {expected found : String}
      (free : i.store = some s) (exported : s.guest.exportedFunc? name = some function)
      (typed : (s.guest.funcs[function]?).map Wasm.Func.type = some type)
      (calm : s.latch = none) (unfit : ¬ Fits type args results) :
      Refuses (.typeMismatch expected found)

end

/-- What is exported as a function is one of the guest's. -/
theorem Wasm.Guest.func_of_exported {ν : Type} {g : Wasm.Guest ν} {name : String} {function : Nat}
    (exported : g.exportedFunc? name = some function) :
    ∃ type, (g.funcs[function]?).map Wasm.Func.type = some type := by
  unfold exportedFunc? at exported
  split at exported
  · split at exported
    · cases exported
      exact ⟨_, by rw [Array.getElem?_eq_getElem ‹_›, Option.map_some]⟩
    · cases exported
  · cases exported

variable {σ : Type} {printer : Printer σ} {h : Host σ} {v : Invoker} {e : Environment}
  {i : Instance} {name : String} {args : List HostValue} {results : List HostType}

/-- The function to enter, where nothing speaks against a call. -/
theorem Host.callee_of_admitted {s : Store} {function : Nat} {type : Wasm.FuncType} {id : Nat}
    (there : h.instance? id = some i) (free : i.store = some s)
    (exported : s.guest.exportedFunc? name = some function)
    (typed : (s.guest.funcs[function]?).map Wasm.Func.type = some type) (calm : s.latch = none) :
    h.callee id name = .ok ⟨⟨id, i.commons, false⟩, h.room i, s, function, type⟩ := by
  simp only [callee, there, free, exported, calm, typed]

/-! ### The end of a call -/

/-- The phases that an invoker has been in so far, the latest first. -/
def Invoker.trail (v : Invoker) : List Phase :=
  v.phase :: v.past

/-- Between two states of an invoker, the guest has run. -/
def Invoker.Ran (before after : Invoker) : Prop :=
  ∃ later, after.trail = later ++ before.trail ∧ Phase.invoking ∈ later

/-- How a call ends whose guest has run: what the host is told, and the host as the call leaves it. -/
def Entry.outcome [Engine] (printer : Printer σ) {environment : Nat}
    (entry : Entry h environment name args results) : Except Error (List HostValue) × Host σ :=
  match entry.run printer with
  | (.ok values, after) => (decodeResults results values, entry.landed after after.store.reclaim)
  | (.error cause, after) =>
    let (fault, s) := after.store.reclaim.latchFailure cause
    (.error (.guestTrap fault), entry.landed after s)

theorem Invoker.trail_advance (v : Invoker) (next : Phase) :
    (v.advance next).trail = next :: v.trail := rfl

/-- To make an invoker ready enters no call. -/
theorem Invoker.exists_trail_ready (v : Invoker) :
    ∃ later, v.ready.trail = later ++ v.trail ∧ Phase.invoking ∉ later := by
  unfold ready
  split
  · exact ⟨[.idle], rfl, by decide⟩
  · exact ⟨[], rfl, by decide⟩

/-- What comes after the phases before a call is all that counts. -/
theorem Invoker.ran_iff {v' : Invoker} {later : List Phase}
    (trail : v'.trail = later ++ v.trail) : v.Ran v' ↔ Phase.invoking ∈ later := by
  refine ⟨?_, fun ran => ⟨later, trail, ran⟩⟩
  rintro ⟨later', trail', ran⟩
  rw [trail, List.append_left_inj] at trail'
  exact trail' ▸ ran

variable [Engine]

/-- A call that nothing refuses runs the guest, and is told how that ended. -/
theorem Entry.call_ran (entry : Entry h v.environment name args results) :
    v.Ran (v.call printer name args results h).2.1 ∧
      (v.call printer name args results h).1 = (entry.outcome printer).1 ∧
      (v.call printer name args results h).2.2 = (entry.outcome printer).2 := by
  obtain ⟨later, ready, -⟩ := v.exists_trail_ready
  have run : entry.run printer = (FlightM.enter printer entry.callee.caller entry.callee.room
    entry.callee.function entry.params).run.run ⟨entry.callee.store.lend v.environment
      entry.env.userData, h.beginCall entry.callee.caller.inst v.environment⟩ := rfl
  unfold Invoker.call outcome
  simp only [Invoker.environment_ready, Invoker.environment_advance, entry.bound, entry.found,
    entry.encoded, Host.invoke, ← run]
  rcases entry.run printer with ⟨cause | values, after⟩
  · refine ⟨⟨.faulted :: .invoking :: .encoding :: later, ?_, by simp⟩, rfl, rfl⟩
    simp only [Invoker.trail_advance, ready, List.cons_append]
  · refine ⟨⟨.idle :: .decoding :: .invoking :: .encoding :: later, ?_, by simp⟩, rfl, rfl⟩
    simp only [Invoker.trail_advance, ready, List.cons_append]

/-- A refusal is what a call is told, the guest does not run, and the host stays as it is. -/
structure Invoker.TurnedDown (printer : Printer σ) (h : Host σ) (v : Invoker) (name : String)
    (args : List HostValue) (results : List HostType) (error : Error) : Prop where
  answer : (v.call printer name args results h).1 = .error error
  host : (v.call printer name args results h).2.2 = h
  quiet : ¬ v.Ran (v.call printer name args results h).2.1

/-- A call that enters no function is refused for the reason why there is none. -/
theorem Invoker.turnedDown_of_callee {error : Error}
    (bound : h.environments.get? v.environment = some e)
    (refused : h.callee e.inst name = .error error) :
    v.TurnedDown printer h name args results error := by
  obtain ⟨later, ready, calm⟩ := v.exists_trail_ready
  have call : v.call printer name args results h = _ := Invoker.call_refused bound refused
  constructor
  · rw [call]
  · rw [call]
  · rw [call, ran_iff ready]
    exact calm

/-- A call that does not fit is refused before anything is touched. -/
theorem Invoker.turnedDown_of_encode {callee : Callee} {error : Error}
    (bound : h.environments.get? v.environment = some e)
    (found : h.callee e.inst name = .ok callee)
    (failed : encodeCall callee.type args results = .error error) :
    v.TurnedDown printer h name args results error := by
  obtain ⟨later, ready, calm⟩ := v.exists_trail_ready
  have call : v.call printer name args results h =
      (.error error, (v.ready.advance .encoding).advance .idle, h) := by
    unfold Invoker.call
    simp only [environment_ready, bound, found, failed]
  have trail : ((v.ready.advance .encoding).advance .idle).trail =
      (.idle :: .encoding :: later) ++ v.trail := by
    simp only [trail_advance, ready, List.cons_append]
  constructor
  · rw [call]
  · rw [call]
  · rw [call, ran_iff trail]
    simpa using calm

/-- Where something speaks against a call, the first such thing turns it down. -/
theorem Instance.exists_refusal (barred : ¬ i.Admits name args results)
    (bound : h.environments.get? v.environment = some e) (there : h.instance? e.inst = some i) :
    ∃ error, i.Refuses name args results error ∧
      v.TurnedDown printer h name args results error := by
  -- What speaks against a call is looked for in this order, and the first is told.
  cases free : i.store with
  | none =>
    refine ⟨_, .busy free, Invoker.turnedDown_of_callee bound ?_⟩
    simp only [Host.callee, there, free]
  | some s =>
    cases exported : s.guest.exportedFunc? name with
    | none =>
      refine ⟨_, .absent free exported, Invoker.turnedDown_of_callee bound ?_⟩
      simp only [Host.callee, there, free, exported]
    | some function =>
      cases latch : s.latch with
      | some fault =>
        refine ⟨_, .pending free exported latch, Invoker.turnedDown_of_callee bound ?_⟩
        simp only [Host.callee, there, free, exported, latch]
      | none =>
        obtain ⟨type, typed⟩ := Wasm.Guest.func_of_exported exported
        have unfit : ¬ Fits type args results := fun fits =>
          barred ⟨free, exported, typed, latch, fits⟩
        obtain ⟨_, failed, expected, found, rfl⟩ := encodeCall_of_not_fits unfit
        exact ⟨.typeMismatch expected found, .mismatch free exported typed latch unfit,
          Invoker.turnedDown_of_encode bound
            (Host.callee_of_admitted there free exported typed latch) failed⟩

omit [Engine] in
/-- Where nothing speaks against a call, it enters the exported function. -/
theorem Instance.Admits.exists_entry (admitted : i.Admits name args results)
    (bound : h.environments.get? v.environment = some e) (there : h.instance? e.inst = some i) :
    ∃ entry : Entry h v.environment name args results,
      entry.callee.store.guest.exportedFunc? name = some entry.callee.function ∧
        entry.params = wireValues args := by
  obtain ⟨free, exported, typed, calm, fits⟩ := admitted
  exact ⟨⟨e, _, _, bound, Host.callee_of_admitted there free exported typed calm,
    encodeCall_of_fits fits⟩, exported, rfl⟩

/-! ### The rule -/

/-- Calls of a host enter guests exactly when they should, and otherwise change nothing. -/
structure Host.Gated (h : Host σ) : Prop where
  /-- The guest runs exactly if nothing speaks against the call. -/
  enters : ∀ printer (v : Invoker) e i name args results,
    h.environments.get? v.environment = some e → h.instance? e.inst = some i →
      (v.Ran (v.call printer name args results h).2.1 ↔ i.Admits name args results)
  /-- What runs is the exported function with the arguments that are given, and the call ends as the
  run does. -/
  runs : ∀ printer (v : Invoker) e i name args results,
    h.environments.get? v.environment = some e → h.instance? e.inst = some i →
      i.Admits name args results → ∃ entry : Entry h v.environment name args results,
        entry.callee.store.guest.exportedFunc? name = some entry.callee.function ∧
          entry.params = wireValues args ∧
          (v.call printer name args results h).1 = (entry.outcome printer).1 ∧
          (v.call printer name args results h).2.2 = (entry.outcome printer).2
  /-- Otherwise the first thing that speaks against the call is the answer, and the host is as it
  was. -/
  refuses : ∀ printer (v : Invoker) e i name args results,
    h.environments.get? v.environment = some e → h.instance? e.inst = some i →
      ¬ i.Admits name args results → ∃ error, i.Refuses name args results error ∧
        (v.call printer name args results h).1 = .error error ∧
        (v.call printer name args results h).2.2 = h

/-- **Calls.** In every state of a host, a call enters its guest exactly if nothing speaks against
it, and a call that does not enter it changes nothing. -/
theorem call_gated (h : Host σ) : h.Gated where
  enters := by
    intro printer v e i name args results bound there
    refine ⟨fun ran => ?_, fun admitted => ?_⟩
    · by_contra barred
      obtain ⟨error, -, turned_down⟩ := Instance.exists_refusal barred bound there
      exact turned_down.quiet ran
    · obtain ⟨entry, -, -⟩ := admitted.exists_entry bound there
      exact entry.call_ran.1
  runs := by
    intro printer v e i name args results bound there admitted
    obtain ⟨entry, exported, params⟩ := admitted.exists_entry bound there
    exact ⟨entry, exported, params, entry.call_ran.2⟩
  refuses := by
    intro printer v e i name args results bound there barred
    obtain ⟨error, refuses, turned_down⟩ := Instance.exists_refusal barred bound there
    exact ⟨error, refuses, turned_down.answer, turned_down.host⟩

end Embedder
