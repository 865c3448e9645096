import Embedder.Proofs.Host.Linking
import Embedder.Proofs.Host.Loan
import Embedder.Proofs.Host.Signatures

namespace Embedder

/-!
# What calls give back

A function that has run to its end gives values of the types that it was declared with: code does,
because it is left with no others, and a callback does, because guests import callbacks with the
types that they have. So a call whose guest returns has an answer.

* `Gives`, `gives_run`: the results of callbacks.
* `ends_drive_owed`, `ends_enter_declared`: the results of code, and of whatever a call enters.
* `Wasm.Guest.Typed`, `Change.typed`: guests have callbacks with the types that these have.
* `Host.Delivers`: what calls hand over to guests, and what they tell of what comes back.
-/

variable {σ α : Type} {printer : Printer σ} {c : Caller}

/-! ### Callbacks -/

/-- A part of a call that gives values of given types, unless it unwinds the guest. -/
def Gives (types : List Wasm.ValType) (x : FlightM σ (List Wasm.Value)) : Prop :=
  ∀ s, Ends x s (fun values _ => values.map Wasm.Value.type = types) fun _ _ => True

section

variable {types : List Wasm.ValType}

/-- Values that are returned have their types. -/
theorem gives_pure {values : List Wasm.Value} (typed : values.map Wasm.Value.type = types) :
    Gives types (pure values : FlightM σ (List Wasm.Value)) :=
  fun _ => typed

/-- To fail gives no values. -/
theorem gives_throw (cause : String) : Gives types (throw cause : FlightM σ (List Wasm.Value)) :=
  fun _ => trivial

/-- What is given depends on the last part alone. -/
theorem gives_bind {x : FlightM σ α} {f : α → FlightM σ (List Wasm.Value)}
    (rest : ∀ a, Gives types (f a)) : Gives types (x >>= f) := by
  intro s
  rcases ended : exec x s with ⟨cause | a, t⟩
  · rw [ends_bind_of_error ended]
    trivial
  · rw [ends_bind_of_ok ended]
    exact rest a t

/-- Nor does to raise a fault. -/
theorem gives_raise (kind : FaultKind) (message : String) :
    Gives types (FlightM.raise kind message : FlightM σ (List Wasm.Value)) :=
  fun _ => trivial

end

/-- Every callback of the guest interface gives values of its declared types. -/
theorem gives_native (n : Native) (args : List Wasm.Value) :
    Gives n.type.results (n.run printer c args) := by
  have nothing : ∀ address, Gives [] (Native.runPrint printer c address) := fun _ =>
    gives_bind fun _ => gives_bind fun _ => gives_bind fun _ => gives_pure rfl
  have length : ∀ name select address capacity,
      Gives [.i32] (Native.runCopy (σ := σ) c name select address capacity) := fun _ _ _ _ =>
    gives_bind fun _ => gives_bind fun _ => gives_bind fun _ => gives_bind fun _ =>
      gives_bind fun _ => gives_pure rfl
  unfold Native.run
  split
  case h_1 => exact gives_pure rfl
  case h_2 => exact nothing _
  case h_3 => exact nothing _
  case h_4 =>
    exact gives_bind fun _ => gives_bind fun _ => gives_bind fun _ => gives_bind fun _ =>
      gives_pure rfl
  case h_5 => exact gives_bind fun _ => gives_bind fun _ => gives_bind fun _ => gives_pure rfl
  case h_6 => exact gives_bind fun _ => gives_pure rfl
  case h_7 => exact gives_bind fun _ => gives_pure rfl
  case h_8 => exact length _ _ _ _
  case h_9 => exact length _ _ _ _
  case h_10 => exact gives_raise _ _
  case h_11 => exact gives_raise _ _
  case h_12 =>
    exact gives_bind fun _ => gives_bind fun _ => gives_bind fun _ => gives_bind fun _ =>
      gives_bind fun _ => gives_raise _ _
  case h_13 => exact gives_throw _

/-- So does every probe. -/
theorem gives_probe (p : Probe) (args : List Wasm.Value) :
    Gives p.type.results (p.run printer c args) := by
  unfold Probe.run
  split
  · exact gives_throw _
  · exact gives_throw _
  · exact gives_bind fun _ => gives_pure rfl
  · exact gives_raise _ _
  · exact gives_bind fun _ => gives_bind fun _ => gives_pure rfl
  · exact gives_bind fun _ => gives_pure rfl
  · exact gives_bind fun _ => gives_pure rfl
  · refine gives_bind fun reading => ?_
    cases reading <;> exact gives_pure rfl
  · exact gives_bind fun _ => gives_pure rfl
  · exact gives_bind fun _ => gives_bind fun _ => gives_bind fun _ => gives_pure rfl
  · exact gives_throw _

/-- **Callbacks.** A callback gives results of the types that it declares. -/
theorem gives_run (n : Callback) (args : List Wasm.Value) :
    Gives n.type.results (n.run printer c args) := by
  cases n with
  | native n => exact gives_native n args
  | probe p => exact gives_probe p args

/-! ### Code -/

/-- **Running code.** By induction on the steps: what a thread owes stays the same until it is done,
and then it is what it gives. -/
theorem ends_drive_owed [Engine] (fuel : Nat) (t : Engine.Thread) :
    Gives (Engine.owed t) (FlightM.drive printer c fuel t) := by
  induction fuel generalizing t with
  | zero => exact gives_throw _
  | succ fuel ih =>
    intro s
    -- One step keeps what is owed; what a callback answers keeps it too, being resumed with
    -- values.
    have honours := Engine.step_honours s.store.guest t
    unfold FlightM.drive
    rw [ends_bind_iff, ends_loan]
    generalize Engine.step s.store.guest t = p at honours ⊢
    cases p with
    | running guest t' =>
      have same : Engine.owed t' = Engine.owed t := honours
      rw [← same]
      exact gives_bind (fun _ => ih t') s
    | finished values => exact honours
    | trapped trap => trivial
    | calls n args results t' =>
      have same : ∀ values, Engine.owed (Engine.resume t' values) = Engine.owed t := fun _ =>
        (Engine.owed_resume ..).trans honours
      exact gives_bind (fun values => same values ▸ ih (Engine.resume t' values)) s
    | grows memory pages t' =>
      have same : ∀ before, Engine.owed (Engine.push t' before) = Engine.owed t := fun _ =>
        (Engine.owed_push ..).trans honours
      exact gives_bind (fun before => same before ▸ ih (Engine.push t' before)) s

/-- The callbacks that a guest has are of the types that they have by themselves. -/
def Wasm.Guest.Typed (guest : Wasm.Guest Callback) : Prop :=
  ∀ n type, .native n type ∈ guest.funcs → type = n.type

/-- **Calls.** What a call enters gives results of the types that it is declared with. -/
theorem ends_enter_declared [Engine] {room function : Nat} {args : List Wasm.Value} {s : Flight σ}
    (typed : s.store.guest.Typed) {type : Wasm.FuncType}
    (declared : (s.store.guest.funcs[function]?).map Wasm.Func.type = some type) :
    Ends (FlightM.enter printer c room function args) s
      (fun values _ => values.map Wasm.Value.type = type.results) fun _ _ => True := by
  obtain ⟨f, found, rfl⟩ := Option.map_eq_some_iff.1 declared
  unfold FlightM.enter
  rw [ends_bind_iff, ends_loan, found]
  cases f with
  | native n type =>
    cases typed n type (Array.mem_of_getElem? found)
    exact gives_run n args s
  | code type code =>
    rw [Wasm.Func.type, ← Engine.owed_start type code args room]
    exact ends_drive_owed Engine.fuel _ s

/-! ### Guests -/

/-- The guest of an instance has callbacks of the types that they have. -/
def Custody.Typed (x : Custody) : Prop :=
  ∀ s, x.store? = some s → s.guest.Typed

section

variable [Holder σ] [Rule σ] {allowed : Effect → Prop} {a b : Config σ}

omit [Holder σ] [Rule σ] in
/-- What happens to an instance leaves its guest typed. -/
theorem Evolves.typed {id paid : Nat} {x y : Custody} (step : Evolves allowed id x paid y)
    (sound : x.Sound) (hx : x.Typed) : y.Typed := by
  intro s' there n type member
  obtain ⟨s, before, program⟩ := step.program sound there
  exact hx s before n type (program.funcs ▸ member)

/-- A new guest has the callbacks that it is linked with, and besides these only code. -/
theorem Wasm.Guest.typed_bare {m : Wasm.Module} {natives : List Callback}
    {imported : List (Wasm.Func Callback)}
    (linked : ∀ f ∈ imported, ∃ n ∈ natives, f = .native n n.type) :
    (Wasm.Guest.bare m imported).Typed := by
  intro n type there
  simp only [Wasm.Guest.bare, definedFuncs, List.mem_toArray, List.mem_append, List.mem_map] at there
  rcases there with linked' | ⟨_, -, e⟩
  · obtain ⟨_, -, e⟩ := linked _ linked'
    cases e
    rfl
  · cases e

/-- **Linking.** Whatever happens to a host, the callbacks of its guests are of the types that they
have. -/
theorem Change.typed (step : Change allowed a b) (sound : a.Sound)
    (ha : ∀ id x, a.custody? id = some x → x.Typed) :
    ∀ id x, b.custody? id = some x → x.Typed := by
  refine step.custody_induct sound (fun _ _ _ hx => hx)
    (fun _ _ _ _ sound step hx => step.typed sound hx) ?_ ha
  intro id x made
  cases made with
  | made module runtime commons linked =>
    intro s there
    cases there
    exact Wasm.Guest.typed_bare linked

/-- A host of which everything is as it was made and linked, and held by what needs it. -/
structure Config.Proper (c : Config σ) : Prop where
  sound : c.Sound
  chained : c.Chained
  linked : c.Linked
  typed : ∀ id x, c.custody? id = some x → x.Typed

/-- Whatever happens to a proper host, it stays proper. -/
theorem Leads.proper (lead : Leads allowed a b) (ha : a.Proper) : b.Proper := by
  have all := lead.induct (P := fun c => c.Chained ∧ c.Linked ∧ ∀ id x, c.custody? id = some x → x.Typed)
    ha.sound
    (fun _ _ sound step ⟨chained, linked, typed⟩ =>
      ⟨step.chained chained, step.linked sound chained linked, step.typed sound typed⟩)
    ⟨ha.chained, ha.linked, ha.typed⟩
  exact ⟨lead.sound ha.sound, all.1, all.2.1, all.2.2⟩

end

/-! ### Calls -/

/-- The function that a call enters is the one that is exported under the name, and its type is
known. -/
theorem Host.declared_of_callee {h : Host σ} {id : Nat} {name : String} {callee : Callee}
    (found : h.callee id name = .ok callee) :
    callee.store.guest.exportedFunc? name = some callee.function ∧
      (callee.store.guest.funcs[callee.function]?).map Wasm.Func.type = some callee.type := by
  unfold Host.callee at found
  split at found
  case h_1 => cases found
  case h_2 i present =>
    split at found
    case h_1 => cases found
    case h_2 s idle =>
      split at found
      case h_1 => cases found
      case h_2 function exported =>
        split at found
        case h_1 => cases found
        case h_2 calm =>
          split at found
          case h_1 => cases found
          case h_2 type declared =>
            cases found
            exact ⟨exported, declared⟩

variable [Engine]

/-- What calls hand over to guests, and what they tell of what comes back. -/
structure Host.Delivers (h : Host σ) : Prop where
  /-- Against whatever type a call is checked, what passes fits the type both ways. -/
  checks : ∀ (type : Wasm.FuncType) args results, type.Checks args results
  /-- A guest is entered with the arguments of the call, which are of the types that the exported
  function takes. -/
  enters : ∀ environment name args results (entry : Entry h environment name args results),
    entry.callee.store.guest.exportedFunc? name = some entry.callee.function ∧
      (entry.callee.store.guest.funcs[entry.callee.function]?).map Wasm.Func.type =
        some entry.callee.type ∧
      entry.params = wireValues args ∧
        entry.params.map Wasm.Value.type = entry.callee.type.params
  /-- Where the guest returns, it returns what the function declares, and the call has an answer: these
  values, as values of the types that were asked for. -/
  answers : ∀ printer (v : Invoker) name args results
    (entry : Entry h v.environment name args results) values after,
      entry.run printer = (.ok values, after) →
        values.map Wasm.Value.type = entry.callee.type.results ∧
          ∃ answer, (v.call printer name args results h).1 = .ok answer ∧
            answer.map HostValue.type = results ∧ wireValues answer = values
  /-- Where a call is told of a type that was not expected, no guest has run. -/
  mismatches : ∀ printer (v : Invoker) name args results e, e.IsMismatch →
    (v.call printer name args results h).1 = .error e →
      IsEmpty (Entry h v.environment name args results) ∧
        (v.call printer name args results h).2.2 = h

/-- **Calls.** Where guests have callbacks of the types that these have, calls deliver. -/
theorem delivers_of_typed {h : Host σ}
    (typed : ∀ id i s, h.instance? id = some i → i.store = some s → s.guest.Typed) :
    h.Delivers := by
  have answers : ∀ printer (v : Invoker) name args results
      (entry : Entry h v.environment name args results) values after,
        entry.run printer = (.ok values, after) →
          values.map Wasm.Value.type = entry.callee.type.results ∧
            ∃ answer, (v.call printer name args results h).1 = .ok answer ∧
              answer.map HostValue.type = results ∧ wireValues answer = values := by
    intro printer v name args results entry values after ran
    obtain ⟨i, present, idle, -⟩ := Host.callee_eq_ok entry.found
    have declared := (Host.declared_of_callee entry.found).2
    have imports : entry.callee.store.guest.Typed := typed _ i _ present idle
    have given := (ends_enter_declared (s := entry.flight) imports declared).of_ok ran
    obtain ⟨v', call⟩ := entry.call_of_ok ran
    rw [call]
    exact ⟨given, (checks _ args results).answers _ entry.encoded values given⟩
  refine ⟨checks, ?_, answers, ?_⟩
  · intro environment name args results entry
    obtain ⟨exported, declared⟩ := Host.declared_of_callee entry.found
    exact ⟨exported, declared, (checks _ _ _).enters _ entry.encoded⟩
  · intro printer v name args results e mismatch refused
    -- A call that enters its guest answers, or else it is told of a fault.
    have barred : IsEmpty (Entry h v.environment name args results) := by
      refine ⟨fun entry => ?_⟩
      obtain ⟨expected, found, rfl⟩ := mismatch
      rcases ran : entry.run printer with ⟨cause | values, after⟩
      · obtain ⟨v', call⟩ := entry.call_of_error ran
        rw [call] at refused
        cases refused
      · obtain ⟨-, answer, call, -⟩ := answers printer v name args results entry values after ran
        cases call.symm.trans refused
    refine ⟨barred, ?_⟩
    rcases v.exists_entry_or_same printer name args results h with entry | same
    · exact (barred.false entry.some).elim
    · exact same

section

variable [Holder σ] [Rule σ] {h : Host σ} {g : Pending}

/-- The calls of a proper host deliver. -/
theorem Config.Proper.delivers (proper : Config.Proper ⟨h, g⟩) : h.Delivers := by
  refine delivers_of_typed fun id i s present idle => ?_
  obtain ⟨c, hc, rfl⟩ := Option.map_eq_some_iff.1 present
  have custody := Config.custody?_of_get? (c := ⟨_, g⟩) hc
  have free := (proper.sound.custody id _ custody).free idle
  exact proper.typed id _ custody s (Custody.store?_idle free idle)

end

end Embedder
