import Embedder.Proofs.Alike
import Embedder.Proofs.Host.Results
import Embedder.Proofs.Wasm.Access

namespace Embedder

/-!
# Callbacks and hostile guests

A guest calls callbacks with whatever numbers it likes, in whatever state it has brought about. A
callback of the guest interface either returns and leaves the latch alone, or it unwinds the guest
and has latched why. It reads and writes the guest's memory inside its bounds only, and of all that the
guest has it changes nothing but the bytes that a copy of the event overwrites.

* `Store.memory?`, `Store.counter?`, `Store.counts`: what callbacks find in a store.
* `Native.faultKind`: the kind of fault that a callback unwinds the guest with.
* `exec_print`, `exec_copy`, `ends_counterExceeded`: callbacks that do more than most.
* `Careful`, `minds_run`: what all of them do to the store.
* `Flight.Inside`, `blinkered_run`: callbacks do not see what lies outside of memories.
* `exec_copied_inside`, `exec_copied_outside`, `exec_printed`: what the guest gets of an event, and what
  is printed.
* `Native.Safe`, `safe_native`: the rule, and that every callback of the guest interface keeps to it.
-/

variable {σ α β : Type} {printer : Printer σ} {c : Caller}

/-! ### What callbacks find -/

namespace Store

/-- The memory that callbacks refer to, and its number. -/
def memory? (s : Store) (c : Caller) : Option (Nat × Wasm.Memory) :=
  let found := if c.hasExports then s.guest.exportedMemory? memoryExport else none
  do
    let i ← found
    pure (i, ← s.guest.memories[i]?)

/-- The value of 64 bits that is exported under a name. -/
def counter? (s : Store) (c : Caller) (name : String) : Option UInt64 :=
  let found := if c.hasExports then s.guest.exportedGlobal? name else none
  found.bind fun (i, _) =>
    match s.guest.globals[i]? with
    | some (.i64 bits) => some bits
    | _ => none

/-- The guest exports a counter and a threshold, and a call is in flight that can take them down. -/
def counts (s : Store) (c : Caller) : Bool :=
  (s.counter? c thresholdGlobal).isSome && (s.counter? c counterGlobal).isSome && s.active.isSome

end Store

/-- The kind of fault with which a callback unwinds the guest: what the guest asks for, or that it is
past its threshold; otherwise the callback could not do its work. -/
def Native.faultKind (c : Caller) (s : Store) : Native → List Wasm.Value → FaultKind
  | exit, [.i32 code] => .exit code.toInt32
  | systemExit, [.i32 code] => .exit code.toInt32
  | counterExceeded, _ => if s.counts c then .counterExceeded else .hostFailure
  | _, _ => .hostFailure

/-- What a callback copies of the event. -/
def Native.copied? : Native → Option (UserData → Bytes)
  | eventId => some UserData.eventId
  | eventPayload => some UserData.eventPayload
  | _ => none

/-- Whatever callback is called, some of them never return. -/
def Native.unwinds : Native → Bool
  | exit => true
  | systemExit => true
  | counterExceeded => true
  | _ => false

/-- A callback could not do its work, and has latched why. -/
def Flight.failed (s : Flight σ) (cause : String) : Flight σ :=
  { s with store := { s.store with latch := some ⟨.hostFailure, cause⟩ } }

/-! ### Callbacks that refer to memory -/

/-- A computation comes to what it ends with. -/
theorem exec_eq_of_ends {ε S : Type} {x : ExceptT ε (StateM S) α} {s : S} {r : Except ε α × S}
    (ends : Ends x s (fun a t => r = (.ok a, t)) fun e t => r = (.error e, t)) : exec x s = r := by
  unfold Ends at ends
  generalize exec x s = q at ends ⊢
  obtain ⟨e | a, t⟩ := q
  · exact ends.symm
  · exact ends.symm

/-- What is needed is there, or its lack is latched and told. -/
theorem ends_orFail_iff {s : Flight σ} {Q : α → Flight σ → Prop} {E : String → Flight σ → Prop}
    {message : String} {a : Option α} : Ends (FlightM.orFail message a) s Q E ↔
      (∀ v, a = some v → Q v s) ∧ (a = none → E message (s.failed message)) :=
  ends_orFail

/-- Callbacks refer to the memory that the guest exports, or say that there is none. -/
theorem ends_guestMemory_iff {s : Flight σ} {Q : Nat × Wasm.Memory → Flight σ → Prop}
    {E : String → Flight σ → Prop} : Ends (FlightM.guestMemory c) s Q E ↔
      (∀ found, s.store.memory? c = some found → Q found s) ∧ (s.store.memory? c = none →
        E ("guest exports no `" ++ memoryExport ++ "`")
          (s.failed ("guest exports no `" ++ memoryExport ++ "`"))) := by
  unfold FlightM.guestMemory
  rw [ends_bind_iff, ends_loan]
  exact ends_orFail_iff

/-- The text at an address of the memory that callbacks refer to, or why there is none. -/
def Store.text (s : Store) (c : Caller) (address : Nat) : Except String Bytes :=
  match s.memory? c with
  | none => .error ("guest exports no `" ++ memoryExport ++ "`")
  | some (_, m) =>
    match m.cString? address with
    | none => .error s!"no NUL-terminated string at guest address {address}"
    | some text => .ok text

/-- **Printing.** A text that is there is printed, and otherwise nothing is. -/
theorem exec_print (printer : Printer σ) (c : Caller) (address : Nat) (s : Flight σ) :
    exec (Native.runPrint printer c address) s =
      match s.store.text c address with
      | .ok text => (.ok [], { s with host := printer c.commons text s.host })
      | .error cause => (.error cause, s.failed cause) := by
  refine exec_eq_of_ends ?_
  unfold Native.runPrint
  rw [ends_bind_iff, ends_guestMemory_iff]
  refine ⟨fun (i, m) there => ?_, fun absent => ?_⟩
  · dsimp only
    rw [ends_bind_iff, ends_orFail_iff]
    refine ⟨fun text here => ?_, fun none => ?_⟩
    · simp only [Store.text, there, here]
      rfl
    · simp only [Store.text, there, none]
  · simp only [Store.text, absent]

/-- The memory, its number and its contents, after as much of an event as fits was copied to it, or why
nothing was copied. -/
def Store.copied (s : Store) (c : Caller) (name : String) (source : UserData → Bytes)
    (address capacity : Nat) : Except String (Nat × Wasm.Memory × Bytes) :=
  match s.memory? c with
  | none => .error ("guest exports no `" ++ memoryExport ++ "`")
  | some (i, m) =>
    match s.active with
    | none => .error (name ++ ": no execution environment is active")
    | some a =>
      let bytes := (source a.userData).take capacity
      match m.write? address bytes with
      | none =>
        .error (name ++ s!": {bytes.length} bytes at guest address {address} are out of bounds")
      | some m' => .ok (i, m', source a.userData)

/-- **Copies.** Memory is changed by what is copied, and the answer is how much there was to copy. -/
theorem exec_copy (c : Caller) (name : String) (source : UserData → Bytes) (address capacity : Nat)
    (s : Flight σ) : exec (Native.runCopy c name source address capacity) s =
      match s.store.copied c name source address capacity with
      | .ok (i, m, event) => (.ok (Native.lengthResult event.length),
        { s with store := { s.store with guest := s.store.guest.setMemory i m } })
      | .error cause => (.error cause, s.failed cause) := by
  refine exec_eq_of_ends ?_
  unfold Native.runCopy
  rw [ends_bind_iff, ends_guestMemory_iff]
  refine ⟨fun (i, m) there => ?_, fun absent => ?_⟩
  · simp only [ends_bind_iff, ends_loan, ends_orFail_iff, ends_modifyStore, ends_pure]
    refine ⟨fun a lent => ⟨fun m' written => ?_, fun full => ?_⟩, fun idle => ?_⟩
    · simp only [Store.copied, there, lent, written]
    · simp only [Store.copied, there, lent, full]
    · simp only [Store.copied, there, idle]
  · simp only [Store.copied, absent]

/-! ### The counter -/

/-- A value of 64 bits is found under its name, or its lack is latched. -/
theorem ends_counterValue (name : String) (s : Flight σ) : Ends (FlightM.counterValue c name) s
    (fun bits t => s.store.counter? c name = some bits ∧ t = s)
    fun cause t => s.store.counter? c name = none ∧ t = s.failed cause := by
  unfold FlightM.counterValue Store.counter?
  simp only [ends_bind_iff, ends_loan, ends_orFail]
  refine ⟨?_, fun absent => ?_⟩
  · rintro ⟨i, type⟩ there
    rw [there, Option.bind_some]
    dsimp only
    rcases s.store.guest.globals[i]? with _ | v
    · exact ⟨rfl, rfl⟩
    · cases v <;> exact ⟨rfl, rfl⟩
  · rw [absent]
    exact ⟨rfl, rfl⟩

/-- **The counter.** A guest that is past its threshold is told so: the counter is recorded in the
user data that is lent to the call, and the latch says why the guest is unwound. -/
theorem ends_counterExceeded (s : Flight σ) : Ends (Native.runCounterExceeded printer c) s
    (fun _ _ => False) fun cause t =>
      (∃ counter threshold a, s.store.counter? c counterGlobal = some counter ∧
        s.store.counter? c thresholdGlobal = some threshold ∧ s.store.active = some a ∧
        t.store = { s.store with
          latch := some ⟨.counterExceeded, cause⟩
          active := some { a with userData := a.userData.recordExceeded counter } }) ∨
      s.store.counts c = false ∧ t.store = (s.failed cause).store := by
  unfold Native.runCounterExceeded
  rw [ends_bind_iff]
  -- The threshold is looked up first, then the counter, and then who has lent the user data; the
  -- first lack is told.
  refine (ends_counterValue thresholdGlobal s).mono (fun threshold t first => ?_) ?_
  · obtain ⟨limit, rfl⟩ := first
    rw [ends_bind_iff]
    refine (ends_counterValue counterGlobal t).mono (fun counter u second => ?_) ?_
    · obtain ⟨count, rfl⟩ := second
      show Ends (FlightM.orFail _ (u.store.active.map ActiveCall.userData) >>= _)
        { u with host := _ } _ _
      rw [ends_bind_iff, ends_orFail_iff]
      refine ⟨fun data lent => ?_, fun idle => ?_⟩
      · obtain ⟨a, active, rfl⟩ := Option.map_eq_some_iff.1 lent
        refine .inl ⟨counter, threshold, a, count, limit, active, ?_⟩
        show Store.mk _ _ _ (u.store.active.map _) = _
        rw [active]
        rfl
      · have none : u.store.active = none := Option.map_eq_none_iff.1 idle
        exact .inr ⟨by simp [Store.counts, none], rfl⟩
    · rintro cause _ ⟨none, rfl⟩
      exact .inr ⟨by simp [Store.counts, none], rfl⟩
  · rintro cause _ ⟨none, rfl⟩
    exact .inr ⟨by simp [Store.counts, none], rfl⟩

/-! ### What callbacks do to the store -/

/-- A part of a call that leaves the store alone, the user data apart that is lent to the call. If it
fails, the host could not do its work, and that is latched. -/
def Careful (x : FlightM σ α) : Prop :=
  ∀ s, Ends x s (fun _ t => t.store = { s.store with active := t.store.active })
    fun cause t => t.store = { (s.failed cause).store with active := t.store.active }

/-- To return something leaves the store alone. -/
theorem careful_pure (a : α) : Careful (pure a : FlightM σ α) :=
  fun _ => rfl

/-- One careful part after another is careful: a second part that fails has latched why, and the
first one has left the store as it was. -/
theorem careful_bind {x : FlightM σ α} {f : α → FlightM σ β} (first : Careful x)
    (rest : ∀ a, Careful (f a)) : Careful (x >>= f) := by
  intro s
  refine ends_bind (first s) fun a t same => (rest a t).mono (fun _ u same' => ?_) fun cause u failed => ?_
  · rw [same', same]
  · rw [failed]
    unfold Flight.failed
    rw [same]

/-- A change of the host is none of the store. -/
theorem careful_modifyHost (f : Host σ → Host σ) : Careful (FlightM.modifyHost f) :=
  fun _ => rfl

/-- Where something is missing, the host could not do its work. -/
theorem careful_orFail (message : String) (a : Option α) :
    Careful (FlightM.orFail message a : FlightM σ α) := by
  intro s
  rw [ends_orFail]
  exact ⟨fun _ _ => rfl, fun _ => rfl⟩

/-- To look at the user data leaves the store alone. -/
theorem careful_userData : Careful (FlightM.userData : FlightM σ UserData) :=
  careful_bind (fun _ => rfl) fun _ => careful_orFail _ _

/-- The user data that was lent may change. -/
theorem careful_modifyUserData (f : UserData → UserData) :
    Careful (FlightM.modifyUserData f : FlightM σ Unit) :=
  fun _ => rfl

/-- A reading of the clock is taken from the host. -/
theorem careful_now : Careful (FlightM.now c : FlightM σ UInt64) := by
  refine careful_bind (fun _ => rfl) fun reading => ?_
  cases reading with
  | ok time => exact careful_pure time
  | error e => exact careful_orFail _ none

/-- What a callback does to the store of its call when it returns: at most, it changes memory and the
user data that is lent to the call. -/
structure Store.Returned (s t : Store) : Prop where
  latch : t.latch = s.latch
  heap : t.heap = s.heap
  guest : t.guest = { s.guest with memories := t.guest.memories }

/-- What a callback does to the store of its call when it unwinds the guest: at most, it changes the
user data that is lent to the call, and it latches why. -/
structure Store.Unwound (fault : Fault) (s t : Store) : Prop where
  latch : t.latch = some fault
  heap : t.heap = s.heap
  guest : t.guest = s.guest

/-- What is careful returns as callbacks may, or unwinds as they may when the host could not do
its work. -/
theorem Careful.ends {x : FlightM σ α} (careful : Careful x) (s : Flight σ) :
    Ends x s (fun _ t => s.store.Returned t.store ∧ t.store.guest = s.store.guest)
      fun cause t => s.store.Unwound ⟨.hostFailure, cause⟩ t.store := by
  refine (careful s).mono (fun a t same => ?_) fun cause t failed => ?_
  · rw [same]
    exact ⟨⟨rfl, rfl, rfl⟩, rfl⟩
  · rw [failed]
    exact ⟨rfl, rfl, rfl⟩

/-- One number, as a callback takes it. -/
theorem exists_of_type_i32 {args : List Wasm.Value}
    (typed : args.map Wasm.Value.type = [.i32]) : ∃ a, args = [.i32 a] := by
  obtain ⟨v, rest, rfl, type, none⟩ := List.map_eq_cons_iff.1 typed
  rw [List.map_eq_nil_iff.1 none]
  cases v <;> cases type
  exact ⟨_, rfl⟩

/-- Two numbers, as a callback takes them. -/
theorem exists_of_type_i32_i32 {args : List Wasm.Value}
    (typed : args.map Wasm.Value.type = [.i32, .i32]) : ∃ a b, args = [.i32 a, .i32 b] := by
  obtain ⟨v, rest, rfl, type, typed⟩ := List.map_eq_cons_iff.1 typed
  obtain ⟨b, rfl⟩ := exists_of_type_i32 typed
  cases v <;> cases type
  exact ⟨_, b, rfl⟩

/-- What a callback of the guest interface does to the store of its call, by how it ends. -/
def Native.Minds (n : Native) (c : Caller) (args : List Wasm.Value) (x : FlightM σ α) : Prop :=
  ∀ s, Ends x s
    (fun _ t => n.unwinds = false ∧ s.store.Returned t.store ∧
      (n.copied? = none → t.store.guest = s.store.guest))
    fun cause t => s.store.Unwound ⟨n.faultKind c s.store args, cause⟩ t.store

/-- So a careful callback minds the store. -/
theorem Careful.minds {n : Native} {args : List Wasm.Value} {x : FlightM σ α} (careful : Careful x)
    (returns : n.unwinds = false) (kind : ∀ s, n.faultKind c s args = .hostFailure) :
    n.Minds c args x := by
  intro s
  rw [kind]
  exact (careful.ends s).mono (fun _ _ h => ⟨returns, h.1, fun _ => h.2⟩) fun _ _ h => h

/-- A print looks at memory and changes none of it. -/
theorem careful_print (address : Nat) : Careful (Native.runPrint printer c address) := by
  intro s
  unfold Ends
  rw [exec_print]
  cases s.store.text c address <;> rfl

/-- A copy changes as much of memory as it says, and only if all of that lies inside. -/
theorem minds_copy {n : Native} {args : List Wasm.Value} (name : String) (source : UserData → Bytes)
    (address capacity : Nat) (returns : n.unwinds = false) (copies : n.copied? = some source)
    (kind : ∀ s, n.faultKind c s args = .hostFailure) :
    n.Minds c args (Native.runCopy (σ := σ) c name source address capacity) := by
  intro s
  rw [kind]
  unfold Ends
  rw [exec_copy]
  cases s.store.copied c name source address capacity with
  | ok found =>
    refine ⟨returns, ⟨rfl, rfl, rfl⟩, fun none => ?_⟩
    cases copies.symm.trans none
  | error cause => exact ⟨rfl, rfl, rfl⟩

/-- **Callbacks.** Whatever numbers a callback of the guest interface is called with, it returns and
leaves the latch alone, or it unwinds the guest and has latched why. -/
theorem minds_run {n : Native} {args : List Wasm.Value}
    (typed : args.map Wasm.Value.type = n.type.params) :
    n.Minds c args (n.run printer c args) := by
  -- Callbacks that only look, print or take notes are careful throughout; those that copy, and
  -- those that are there to unwind, are taken one by one.
  cases n with
  | sum =>
    obtain ⟨a, b, rfl⟩ := exists_of_type_i32_i32 typed
    exact (careful_pure _).minds rfl fun _ => rfl
  | print =>
    obtain ⟨address, rfl⟩ := exists_of_type_i32 typed
    exact (careful_print _).minds rfl fun _ => rfl
  | printString =>
    obtain ⟨address, rfl⟩ := exists_of_type_i32 typed
    exact (careful_print _).minds rfl fun _ => rfl
  | startBenchmark =>
    have careful : Careful (Native.runStart printer c) := by
      refine careful_bind (careful_modifyHost _) fun _ => careful_bind careful_now fun _ => ?_
      exact careful_bind careful_userData fun _ =>
        careful_bind (careful_modifyUserData _) fun _ => careful_pure _
    exact careful.minds rfl fun _ => rfl
  | stopBenchmark =>
    have careful : Careful (Native.runStop printer c) := by
      refine careful_bind careful_now fun _ => careful_bind careful_userData fun _ => ?_
      exact careful_bind (careful_modifyHost _) fun _ => careful_pure _
    exact careful.minds rfl fun _ => rfl
  | eventIdLength =>
    exact (careful_bind careful_userData fun _ => careful_pure _).minds rfl fun _ => rfl
  | eventPayloadLength =>
    exact (careful_bind careful_userData fun _ => careful_pure _).minds rfl fun _ => rfl
  | eventId =>
    obtain ⟨address, capacity, rfl⟩ := exists_of_type_i32_i32 typed
    exact minds_copy _ _ _ _ rfl rfl fun _ => rfl
  | eventPayload =>
    obtain ⟨address, capacity, rfl⟩ := exists_of_type_i32_i32 typed
    exact minds_copy _ _ _ _ rfl rfl fun _ => rfl
  | exit =>
    obtain ⟨code, rfl⟩ := exists_of_type_i32 typed
    exact fun _ => ⟨rfl, rfl, rfl⟩
  | systemExit =>
    obtain ⟨code, rfl⟩ := exists_of_type_i32 typed
    exact fun _ => ⟨rfl, rfl, rfl⟩
  | counterExceeded =>
    intro s
    refine (ends_counterExceeded s).mono (fun _ _ h => h.elim) fun cause t ended => ?_
    unfold Native.faultKind
    rcases ended with ⟨counter, threshold, a, count, limit, active, store⟩ | ⟨short, store⟩
    · have counts : s.store.counts c = true := by simp [Store.counts, count, limit, active]
      rw [store, counts]
      exact ⟨rfl, rfl, rfl⟩
    · rw [store, short]
      exact ⟨rfl, rfl, rfl⟩

/-! ### What callbacks do not see -/

/-- A call in flight that is like another one inside of memories, and outside of what callbacks may
refer to is not looked at. -/
structure Flight.Inside (s t : Flight σ) : Prop where
  host : t.host = s.host
  store : t.store = { s.store with
    guest := { s.store.guest with memories := t.store.guest.memories } }
  memories : ∀ i : Nat, Option.Rel Wasm.Memory.Agrees s.store.guest.memories[i]?
    t.store.guest.memories[i]?

/-- A part of a call that does not see what lies outside of memories. -/
def Blinkered (x : FlightM σ α) : Prop :=
  ∀ s t : Flight σ, s.Inside t → (exec x t).1 = (exec x s).1 ∧ (exec x s).2.Inside (exec x t).2

section

/-- To return something is to see nothing. -/
theorem blinkered_pure (a : α) : Blinkered (pure a : FlightM σ α) :=
  fun _ _ inside => ⟨rfl, inside⟩

/-- What two parts do not see one after another, both together do not. -/
theorem blinkered_bind {x : FlightM σ α} {f : α → FlightM σ β} (first : Blinkered x)
    (rest : ∀ a, Blinkered (f a)) : Blinkered (x >>= f) := by
  intro s t inside
  obtain ⟨same, after⟩ := first s t inside
  rw [exec_bind, exec_bind]
  generalize exec x s = r at same after ⊢
  generalize exec x t = r' at same after ⊢
  obtain ⟨e | a, s'⟩ := r
  · obtain ⟨ended, t'⟩ := r'
    cases same
    exact ⟨rfl, after⟩
  · obtain ⟨ended, t'⟩ := r'
    cases same
    exact rest a s' t' after

/-- A part of a call that looks at the store, but at no memory. -/
theorem blinkered_look {f : Store → FlightM σ α} (each : ∀ s, Blinkered (f s))
    (same : ∀ (s : Store) memories, f { s with guest := { s.guest with memories } } = f s) :
    Blinkered (FlightM.store >>= f) := by
  intro s t inside
  show (exec (f t.store) t).1 = (exec (f s.store) s).1 ∧
    (exec (f s.store) s).2.Inside (exec (f t.store) t).2
  rw [inside.store, same]
  exact each s.store s t inside

/-- A part of a call that changes the store, but not the guest. -/
theorem blinkered_modifyStore {f : Store → Store} (guest : ∀ s, (f s).guest = s.guest)
    (same : ∀ (s : Store) memories, f { s with guest := { s.guest with memories } } =
      { f s with guest := { (f s).guest with memories } }) :
    Blinkered (FlightM.modifyStore f : FlightM σ Unit) := by
  intro s t inside
  refine ⟨rfl, inside.host, ?_, ?_⟩
  · show f t.store = { f s.store with
      guest := { (f s.store).guest with memories := (f t.store).guest.memories } }
    rw [guest t.store]
    conv_lhs => rw [inside.store]
    exact same s.store _
  · intro i
    show Option.Rel _ (f s.store).guest.memories[i]? (f t.store).guest.memories[i]?
    rw [guest, guest]
    exact inside.memories i

/-- A change of the host sees nothing of memories. -/
theorem blinkered_modifyHost (f : Host σ → Host σ) : Blinkered (FlightM.modifyHost f) := by
  intro s t inside
  refine ⟨rfl, ?_, inside.store, inside.memories⟩
  show f t.host = f s.host
  rw [inside.host]

/-- To fail is to see nothing. -/
theorem blinkered_raise (kind : FaultKind) (message : String) :
    Blinkered (FlightM.raise kind message : FlightM σ α) :=
  blinkered_bind (blinkered_modifyStore (fun _ => rfl) fun _ _ => rfl) fun _ _ _ inside =>
    ⟨rfl, inside⟩

/-- What is missing is missing, whatever lies outside. -/
theorem blinkered_orFail (message : String) (a : Option α) :
    Blinkered (FlightM.orFail message a : FlightM σ α) := by
  cases a with
  | none => exact blinkered_raise .hostFailure message
  | some a => exact blinkered_pure a

/-- User data does not lie in memories. -/
theorem blinkered_userData : Blinkered (FlightM.userData : FlightM σ UserData) :=
  blinkered_look (fun _ => blinkered_orFail _ _) fun _ _ => rfl

/-- A change of user data sees nothing of memories. -/
theorem blinkered_modifyUserData (f : UserData → UserData) :
    Blinkered (FlightM.modifyUserData f : FlightM σ Unit) :=
  blinkered_modifyStore (fun _ => rfl) fun _ _ => rfl

/-- The clock belongs to the host. -/
theorem blinkered_clock : Blinkered (FlightM.clock c : FlightM σ Reading) := by
  intro s t inside
  have reading : t.host.readClock c.commons = s.host.readClock c.commons := by rw [inside.host]
  refine ⟨?_, congrArg Prod.snd reading, inside.store, inside.memories⟩
  show Except.ok (t.host.readClock c.commons).1 = Except.ok (s.host.readClock c.commons).1
  rw [reading]

/-- A reading belongs to the host. -/
theorem blinkered_now : Blinkered (FlightM.now c : FlightM σ UInt64) := by
  refine blinkered_bind blinkered_clock fun reading => ?_
  cases reading with
  | ok time => exact blinkered_pure time
  | error e => exact blinkered_raise .hostFailure _

/-- Counters are exported globals, or lie inside of the exported memory. -/
theorem blinkered_counterValue (name : String) :
    Blinkered (FlightM.counterValue c name : FlightM σ UInt64) := by
  refine blinkered_look (fun s => ?_) fun _ _ => rfl
  refine blinkered_bind (blinkered_orFail _ _) fun found => ?_
  dsimp only
  split
  · exact blinkered_pure _
  · exact blinkered_raise .hostFailure _

end

/-- The memory that callbacks refer to is like the other one inside. -/
theorem Flight.Inside.memory? {s t : Flight σ} (inside : s.Inside t) (c : Caller) :
    Option.Rel (fun x y => y.1 = x.1 ∧ x.2.Agrees y.2) (s.store.memory? c) (t.store.memory? c) := by
  have exported : t.store.guest.exportedMemory? memoryExport =
      s.store.guest.exportedMemory? memoryExport := by
    rw [inside.store]
    rfl
  unfold Store.memory?
  rw [exported]
  cases (if c.hasExports then s.store.guest.exportedMemory? memoryExport else none) with
  | none => exact .none
  | some i =>
    have agrees := inside.memories i
    show Option.Rel _ ((s.store.guest.memories[i]?).bind fun m => some (i, m))
      ((t.store.guest.memories[i]?).bind fun m => some (i, m))
    generalize s.store.guest.memories[i]? = m at agrees ⊢
    generalize t.store.guest.memories[i]? = m' at agrees ⊢
    cases agrees with
    | none => exact .none
    | some agrees => exact .some ⟨rfl, agrees⟩

/-- Failing leaves two flights as alike as they were. -/
theorem Flight.Inside.failed {s t : Flight σ} (inside : s.Inside t) (cause : String) :
    (s.failed cause).Inside (t.failed cause) :=
  have raised : Blinkered (FlightM.raise .hostFailure cause : FlightM σ Unit) := blinkered_raise _ _
  (raised s t inside).2

/-- Two flights with memories that are alike inside, where one memory of each is replaced. -/
theorem Flight.Inside.setMemory {s t : Flight σ} (inside : s.Inside t) (i : Nat)
    {m m' : Wasm.Memory} (agrees : m.Agrees m') :
    Flight.Inside { s with store := { s.store with guest := s.store.guest.setMemory i m } }
      { t with store := { t.store with guest := t.store.guest.setMemory i m' } } where
  host := inside.host
  store := by
    conv_lhs => rw [inside.store]
    rfl
  memories := by
    intro j
    show Option.Rel _ (s.store.guest.setMemory i m).memories[j]?
      (t.store.guest.setMemory i m').memories[j]?
    rw [Wasm.Guest.getElem?_setMemory, Wasm.Guest.getElem?_setMemory]
    have before := inside.memories j
    -- Only the memory that is replaced needs to be looked at.
    by_cases here : j = i
    · rw [if_pos here, if_pos here]
      generalize s.store.guest.memories[j]? = x at before ⊢
      generalize t.store.guest.memories[j]? = y at before ⊢
      cases before with
      | none => exact .none
      | some => exact .some agrees
    · rw [if_neg here, if_neg here]
      exact before

/-- A print reads up to the end of its text, or to that of the memory, and no further. -/
theorem blinkered_print (address : Nat) : Blinkered (Native.runPrint printer c address) := by
  intro s t inside
  have same : t.store.text c address = s.store.text c address := by
    unfold Store.text
    have memory := inside.memory? c
    generalize s.store.memory? c = x at memory ⊢
    generalize t.store.memory? c = y at memory ⊢
    cases memory with
    | none => rfl
    | some agrees =>
      dsimp only
      rw [agrees.2.cString?]
  rw [exec_print, exec_print, same]
  cases s.store.text c address with
  | ok text => exact ⟨rfl, (blinkered_modifyHost (printer c.commons text) s t inside).2⟩
  | error cause => exact ⟨rfl, inside.failed cause⟩

/-- A copy writes inside of the memory, or not at all. -/
theorem blinkered_copy (name : String) (source : UserData → Bytes) (address capacity : Nat) :
    Blinkered (Native.runCopy (σ := σ) c name source address capacity) := by
  intro s t inside
  have active : t.store.active = s.store.active := by rw [inside.store]
  have memory := inside.memory? c
  rw [exec_copy, exec_copy]
  unfold Store.copied
  rw [active]
  -- The memories agree on what is inside of both, and a copy that does not fit fails in both.
  generalize s.store.memory? c = x at memory ⊢
  generalize t.store.memory? c = y at memory ⊢
  cases memory with
  | none => exact ⟨rfl, inside.failed _⟩
  | @some x y related =>
    obtain ⟨i, m⟩ := x
    obtain ⟨i', m'⟩ := y
    obtain ⟨number, agrees⟩ := related
    cases number
    cases s.store.active with
    | none => exact ⟨rfl, inside.failed _⟩
    | some a =>
      have written := agrees.write? address ((source a.userData).take capacity)
      dsimp only
      generalize m.write? address ((source a.userData).take capacity) = w at written ⊢
      generalize m'.write? address ((source a.userData).take capacity) = w' at written ⊢
      cases written with
      | none => exact ⟨rfl, inside.failed _⟩
      | some agrees => exact ⟨rfl, inside.setMemory i agrees⟩

/-- **Bounds.** What a callback of the guest interface does, and what it answers, is the same whatever
lies outside of memories. -/
theorem blinkered_run {n : Native} {args : List Wasm.Value}
    (typed : args.map Wasm.Value.type = n.type.params) : Blinkered (n.run printer c args) := by
  -- One case for each callback: those that refer to memory do it by a print or by a copy.
  cases n with
  | sum =>
    obtain ⟨a, b, rfl⟩ := exists_of_type_i32_i32 typed
    exact blinkered_pure _
  | print =>
    obtain ⟨address, rfl⟩ := exists_of_type_i32 typed
    exact blinkered_print _
  | printString =>
    obtain ⟨address, rfl⟩ := exists_of_type_i32 typed
    exact blinkered_print _
  | startBenchmark =>
    have blinkered : Blinkered (Native.runStart printer c) := by
      refine blinkered_bind (blinkered_modifyHost _) fun _ => blinkered_bind blinkered_now fun _ => ?_
      exact blinkered_bind blinkered_userData fun _ =>
        blinkered_bind (blinkered_modifyUserData _) fun _ => blinkered_pure _
    exact blinkered
  | stopBenchmark =>
    have blinkered : Blinkered (Native.runStop printer c) := by
      refine blinkered_bind blinkered_now fun _ => blinkered_bind blinkered_userData fun _ => ?_
      exact blinkered_bind (blinkered_modifyHost _) fun _ => blinkered_pure _
    exact blinkered
  | eventIdLength => exact blinkered_bind blinkered_userData fun _ => blinkered_pure _
  | eventPayloadLength => exact blinkered_bind blinkered_userData fun _ => blinkered_pure _
  | eventId =>
    obtain ⟨address, capacity, rfl⟩ := exists_of_type_i32_i32 typed
    exact blinkered_copy _ _ _ _
  | eventPayload =>
    obtain ⟨address, capacity, rfl⟩ := exists_of_type_i32_i32 typed
    exact blinkered_copy _ _ _ _
  | exit =>
    obtain ⟨code, rfl⟩ := exists_of_type_i32 typed
    exact blinkered_raise _ _
  | systemExit =>
    obtain ⟨code, rfl⟩ := exists_of_type_i32 typed
    exact blinkered_raise _ _
  | counterExceeded =>
    have blinkered : Blinkered (Native.runCounterExceeded printer c) := by
      refine blinkered_bind (blinkered_counterValue _) fun _ => ?_
      refine blinkered_bind (blinkered_counterValue _) fun _ => ?_
      refine blinkered_bind (blinkered_modifyHost _) fun _ => ?_
      exact blinkered_bind blinkered_userData fun _ =>
        blinkered_bind (blinkered_modifyUserData _) fun _ => blinkered_raise _ _
    exact blinkered

/-! ### The rule -/

/-- What a callback comes to, whatever numbers it is called with and in whatever state. -/
structure Native.Safe (σ : Type) (n : Native) : Prop where
  /-- If it returns, the latch is as it was. It gives the results that it declares, and it is not one
  that is there to unwind the guest. -/
  returns : ∀ (printer : Printer σ) c args s values t, args.map Wasm.Value.type = n.type.params →
    exec (n.run printer c args) s = (.ok values, t) → t.store.latch = s.store.latch ∧
      values.map Wasm.Value.type = n.type.results ∧ n.unwinds = false
  /-- If it unwinds the guest, it has latched why: the guest has asked for it or is past its threshold,
  or else the host could not do its work. -/
  unwinds : ∀ (printer : Printer σ) c args s cause t, args.map Wasm.Value.type = n.type.params →
    exec (n.run printer c args) s = (.error cause, t) →
      t.store.latch = some ⟨n.faultKind c s.store args, cause⟩
  /-- The app heap, the globals, and whatever else the guest has besides its memories stay. -/
  spares : ∀ (printer : Printer σ) c args s, args.map Wasm.Value.type = n.type.params →
    let t := (exec (n.run printer c args) s).2
    t.store.heap = s.store.heap ∧
      t.store.guest = { s.store.guest with memories := t.store.guest.memories }
  /-- The memories stay, too, unless it is there to copy the event and does so. -/
  keeps : ∀ (printer : Printer σ) c args s, args.map Wasm.Value.type = n.type.params →
    let (ended, t) := exec (n.run printer c args) s
    (n.copied? = none ∨ ∃ cause, ended = .error cause) → t.store.guest = s.store.guest
  /-- As much of the event as the guest has room for is copied, if all of that lies inside memory. -/
  copies : ∀ source, n.copied? = some source → ∀ (printer : Printer σ) c address capacity s i m a,
    s.store.memory? c = some (i, m) → s.store.active = some a →
      address.toNat + min capacity.toNat (source a.userData).length ≤ m.size →
        ∃ m', m.Overwritten address.toNat ((source a.userData).take capacity.toNat) m' ∧
          exec (n.run printer c [.i32 address, .i32 capacity]) s =
            (.ok (lengthResult (source a.userData).length),
              { s with store := { s.store with guest := s.store.guest.setMemory i m' } })
  /-- Otherwise nothing is copied. -/
  declines : ∀ source, n.copied? = some source → ∀ (printer : Printer σ) c address capacity s,
    (∀ i m a, s.store.memory? c = some (i, m) → s.store.active = some a →
      m.size < address.toNat + min capacity.toNat (source a.userData).length) →
        ∃ cause, exec (n.run printer c [.i32 address, .i32 capacity]) s = (.error cause, s.failed cause)
  /-- Where a zero byte follows inside memory, what is printed is the text before the first one. -/
  prints : n = print ∨ n = printString → ∀ (printer : Printer σ) c address s i m a,
    s.store.memory? c = some (i, m) → address.toNat ≤ a → a < m.size → m.byteAt a = 0 →
      ∃ text, m.HasText address.toNat text ∧ exec (n.run printer c [.i32 address]) s =
        (.ok [], { s with host := printer c.commons text s.host })
  /-- Otherwise nothing is printed. -/
  silent : n = print ∨ n = printString → ∀ (printer : Printer σ) c address s,
    (∀ i m a, s.store.memory? c = some (i, m) → address.toNat ≤ a → a < m.size →
      m.byteAt a ≠ 0) →
        ∃ cause, exec (n.run printer c [.i32 address]) s = (.error cause, s.failed cause)
  /-- What lies outside of memories makes no difference, and stays as different as it was. -/
  bounds : ∀ (printer : Printer σ) c args s t, args.map Wasm.Value.type = n.type.params →
    s.Inside t →
      (exec (n.run printer c args) t).1 = (exec (n.run printer c args) s).1 ∧
        (exec (n.run printer c args) s).2.Inside (exec (n.run printer c args) t).2

/-- The two callbacks that print are one. -/
theorem Native.run_of_prints {n : Native} (prints : n = print ∨ n = printString)
    (address : UInt32) : n.run printer c [.i32 address] = runPrint printer c address.toNat := by
  rcases prints with rfl | rfl <;> rfl

/-- And so are the two that copy the event, but for what they copy and the name that they go by. -/
theorem Native.run_of_copied {n : Native} {source : UserData → Bytes}
    (copies : n.copied? = some source) (address capacity : UInt32) :
    n.run printer c [.i32 address, .i32 capacity] =
      runCopy c n.name source address.toNat capacity.toNat := by
  cases n <;> cases copies <;> rfl

section

variable (printer) {n : Native} {source : UserData → Bytes} {address capacity : UInt32}
  {s : Flight σ} {i : Nat} {m : Wasm.Memory}

/-- As much of the event as the guest has room for is copied, if all of that lies inside memory. -/
theorem exec_copied_inside (copies : n.copied? = some source) {a : ActiveCall}
    (there : s.store.memory? c = some (i, m)) (active : s.store.active = some a)
    (inside : address.toNat + min capacity.toNat (source a.userData).length ≤ m.size) :
    ∃ m', m.Overwritten address.toNat ((source a.userData).take capacity.toNat) m' ∧
      exec (n.run printer c [.i32 address, .i32 capacity]) s =
        (.ok (Native.lengthResult (source a.userData).length),
          { s with store := { s.store with guest := s.store.guest.setMemory i m' } }) := by
  rw [← List.length_take] at inside
  obtain ⟨m', written⟩ := Wasm.Memory.write?_eq_some inside
  refine ⟨m', Wasm.Memory.overwritten_of_write? written, ?_⟩
  rw [Native.run_of_copied copies, exec_copy]
  simp only [Store.copied, there, active, written]

/-- Otherwise nothing is copied. -/
theorem exec_copied_outside (copies : n.copied? = some source)
    (outside : ∀ i m a, s.store.memory? c = some (i, m) → s.store.active = some a →
      m.size < address.toNat + min capacity.toNat (source a.userData).length) :
    ∃ cause, exec (n.run printer c [.i32 address, .i32 capacity]) s =
      (.error cause, s.failed cause) := by
  rw [Native.run_of_copied copies, exec_copy]
  cases copied : s.store.copied c n.name source address.toNat capacity.toNat with
  | error cause => exact ⟨cause, rfl⟩
  | ok found =>
    -- what was copied would lie inside memory
    unfold Store.copied at copied
    split at copied
    case h_1 => cases copied
    case h_2 i m there =>
      split at copied
      case h_1 => cases copied
      case h_2 a active =>
        dsimp only at copied
        split at copied
        case h_1 => cases copied
        case h_2 m' written =>
          have inside := (Wasm.Memory.overwritten_of_write? written).inside
          rw [List.length_take] at inside
          exact absurd inside (Nat.not_le_of_lt (outside i m a there active))

/-- A text that is there is printed. -/
theorem exec_printed (prints : n = .print ∨ n = .printString) {text : Bytes}
    (there : s.store.memory? c = some (i, m)) (here : m.HasText address.toNat text) :
    exec (n.run printer c [.i32 address]) s =
      (.ok [], { s with host := printer c.commons text s.host }) := by
  rw [Native.run_of_prints prints, exec_print]
  simp only [Store.text, there, Wasm.Memory.cString?_eq_some_iff.2 here]

end

/-- **Callbacks.** Every callback of the guest interface is safe. -/
theorem safe_native (n : Native) : n.Safe σ where
  returns := by
    intro printer c args s values t typed done
    obtain ⟨returns, store, -⟩ := (minds_run typed s).of_ok done
    exact ⟨store.latch, (gives_native n args s).of_ok done, returns⟩
  unwinds := by
    intro printer c args s cause t typed failed
    exact ((minds_run typed s).of_error failed).latch
  spares := by
    intro printer c args s typed
    rcases ended : exec (n.run printer c args) s with ⟨cause | values, t⟩
    · have store := (minds_run typed s).of_error ended
      refine ⟨store.heap, ?_⟩
      dsimp only
      rw [store.guest]
    · have store := ((minds_run typed s).of_ok ended).2.1
      exact ⟨store.heap, store.guest⟩
  keeps := by
    intro printer c args s typed
    rcases ended : exec (n.run printer c args) s with ⟨cause | values, t⟩
    · exact fun _ => ((minds_run typed s).of_error ended).guest
    · rintro (none | ⟨_, failed⟩)
      · exact ((minds_run typed s).of_ok ended).2.2 none
      · cases failed
  copies _ copies printer _ _ _ _ _ _ _ there active inside :=
    exec_copied_inside printer copies there active inside
  declines _ copies printer _ _ _ _ outside := exec_copied_outside printer copies outside
  prints := by
    intro prints printer c address s i m a there low high zero
    have found : m.cString? address.toNat ≠ none := fun none =>
      Wasm.Memory.cString?_eq_none_iff.1 none a low high zero
    obtain ⟨text, found⟩ := Option.ne_none_iff_exists'.1 found
    have here := Wasm.Memory.cString?_eq_some_iff.1 found
    exact ⟨text, here, exec_printed printer prints there here⟩
  silent := by
    intro prints printer c address s none
    rw [Native.run_of_prints prints, exec_print]
    cases found : s.store.text c address.toNat with
    | error cause => exact ⟨cause, rfl⟩
    | ok text =>
      -- a text would end before a zero byte
      unfold Store.text at found
      split at found
      case h_1 => cases found
      case h_2 i m there =>
        split at found
        case h_1 => cases found
        case h_2 text' here =>
          have has := Wasm.Memory.cString?_eq_some_iff.1 here
          exact absurd has.stop (none i m _ there (Nat.le_add_right _ _) has.inside)
  bounds := by
    intro printer c args s t typed inside
    exact blinkered_run typed s t inside

end Embedder
