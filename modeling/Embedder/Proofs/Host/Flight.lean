import Embedder.Host.Instantiation
import Embedder.Proofs.Host.Holds
import Embedder.Proofs.Monad
import Embedder.Proofs.Wasm.Extends

namespace Embedder

/-!
# What a call in flight can do

A call works on the store that it holds and, around it, prints, reads the clock and asks for
memory. A relation between states that allows these steps relates the beginning of a call to its
end, however it ends.

* `Within`: a part of a call keeps within a relation.
* `Steady`, `Working`: relations that allow what calls do, without and with what changes the lent
  user data and the size of memories.
* `working_of_store`, `working_of_view`: the steps allowed, told of the store alone.
* `Callback.Marks`: what a callback may do to the user data lent to its call.
* `within_run`, `within_growMemory`: callbacks, and growing memories.
-/

-- Powers are those of the core library, whatever else is imported.
attribute [local instance (1100)] instPowNat

variable {σ α β : Type} {printer : Printer σ} {c : Caller} {R : Flight σ → Flight σ → Prop}

/-- From every state, a part of a call leads to a related one, however it ends. -/
def Within (R : Flight σ → Flight σ → Prop) (x : FlightM σ α) : Prop :=
  ∀ s, Ends x s (fun _ t => R s t) fun _ t => R s t

/-- However a part of a call ends, it ends in a related state. -/
theorem Within.snd {x : FlightM σ α} (within : Within R x) (s : Flight σ) : R s (exec x s).2 := by
  have ended := within s
  unfold Ends at ended
  generalize exec x s = r at ended ⊢
  obtain ⟨e | a, t⟩ := r <;> exact ended

/-! ### What calls do -/

/-- The event in user data: its identifier and its payload. -/
def UserData.event (u : UserData) : Bytes × Bytes :=
  (u.eventId, u.eventPayload)

/-- User data of an event has this event, and both parts of it are short enough. -/
theorem UserData.event_of_withEvent {id payload : Bytes} {u : UserData}
    (made : withEvent id payload = .ok u) :
    u.event = (id, payload) ∧ id.length < 2 ^ (32 : Nat) ∧ payload.length < 2 ^ (32 : Nat) := by
  unfold withEvent setEventId setEventPayload checkLength at made
  by_cases first : id.length < 4294967296
  · by_cases second : payload.length < 4294967296
    · rw [if_pos first, if_pos second] at made
      cases made
      exact ⟨rfl, first, second⟩
    · rw [if_pos first, if_neg second] at made
      cases made
  · rw [if_neg first] at made
    cases made

/-- Whose user data a store has on loan, and the event in it. -/
def Store.event? (s : Store) : Option (Nat × Bytes × Bytes) :=
  s.active.map fun a => (a.environment, a.userData.event)

/-- What a callback may do to the user data lent to its call: take down when a benchmark starts, and
record the counter that is past its threshold. -/
def Callback.Marks : Callback → List Wasm.Value → (UserData → UserData) → Prop
  | native .startBenchmark, _, f => ∃ time, f = fun u => { u with startTime := time }
  | native .counterExceeded, _, f => ∃ count, f = fun u => u.recordExceeded count
  | probe .setStart, [.i64 time], f => f = fun u => { u with startTime := time }
  | _, _, _ => False

/-- A mark leaves the event alone. -/
theorem Callback.Marks.event {n : Callback} {args : List Wasm.Value} {f : UserData → UserData}
    (marks : n.Marks args f) (u : UserData) : (f u).event = u.event := by
  unfold Marks at marks
  split at marks
  · obtain ⟨time, rfl⟩ := marks
    rfl
  · obtain ⟨count, rfl⟩ := marks
    rfl
  · subst marks
    rfl
  · exact marks.elim

/-- The state with the lent user data changed. -/
def Flight.mark (s : Flight σ) (f : UserData → UserData) : Flight σ :=
  { s with store := { s.store with
      active := s.store.active.map fun a => { a with userData := f a.userData } } }

/-- A relation that allows what a call does to its store and to the host, short of changing the user
data that was lent to it and of asking for memory. -/
structure Steady (printer : Printer σ) (c : Caller) (R : Flight σ → Flight σ → Prop) : Prop where
  refl : ∀ s, R s s
  trans : ∀ {s t u}, R s t → R t u → R s u
  store : ∀ (s : Flight σ) (store : Store), s.store.guest.Extends store.guest →
    store.heap = s.store.heap → store.active = s.store.active → R s { s with store }
  print : ∀ (s : Flight σ) (bytes : Bytes), R s { s with host := printer c.commons bytes s.host }
  clock : ∀ s : Flight σ, R s { s with host := (s.host.readClock c.commons).2 }

/-- A relation that allows everything that a call does to its store and to the host. -/
structure Working (printer : Printer σ) (c : Caller) (R : Flight σ → Flight σ → Prop) : Prop
    extends Steady printer c R where
  mark : ∀ (s : Flight σ) (f : UserData → UserData), (∀ u, (f u).event = u.event) → R s (s.mark f)
  grow : ∀ (s : Flight σ) (memory pages before : Nat) (t : Flight σ),
    s.growMemory? c memory pages = some (before, t) → R s t

/-- Whether the instance's exports are in reach makes no difference to what is allowed. -/
theorem Steady.withExports (steady : Steady printer c R) (hasExports : Bool) :
    Steady printer { c with hasExports } R :=
  ⟨steady.refl, steady.trans, steady.store, steady.print, steady.clock⟩

/-- What a call may do does not depend on whether its guest has exports yet. -/
theorem Working.withExports (working : Working printer c R) (hasExports : Bool) :
    Working printer { c with hasExports } R :=
  ⟨working.toSteady.withExports hasExports, working.mark, working.grow⟩

/-! ### More memory -/

/-- What is charged for more memory, and that it is within bounds. -/
theorem Limiter.growMemory?_eq_some {l l' : Limiter} {b b' : Budget} {current desired limit : Nat}
    (grown : l.growMemory? b current desired limit = some (l', b')) :
    desired ≤ limit ∧ b.reserve? (desired - current) = some b' ∧
      l' = ⟨⟨l.charged.value + (desired - current)⟩⟩ := by
  rw [growMemory?_eq] at grown
  split at grown
  case isTrue => cases grown
  case isFalse within =>
    simp only [Option.any_some, decide_eq_true_eq] at within
    simp only [Option.map_eq_some_iff, Prod.mk.injEq] at grown
    obtain ⟨b₁, reserved, rfl, rfl⟩ := grown
    exact ⟨by omega, reserved, rfl⟩

/-- What a flight that grows a memory leaves behind. -/
theorem Flight.growMemory?_eq_some {s t : Flight σ} {c : Caller} {memory pages before : Nat}
    (grown : s.growMemory? c memory pages = some (before, t)) :
    ∃ m i k budget, s.store.guest.memories[memory]? = some m ∧
      s.host.instance? c.inst = some i ∧ s.host.commons? c.commons = some k ∧
      k.budget.reserve? (pages * Wasm.pageSize) = some budget ∧
      m.size + pages * Wasm.pageSize ≤ m.limit ∧ before = m.pages ∧
      t.store = { s.store with
        guest := s.store.guest.setMemory memory (m.grow (m.size + pages * Wasm.pageSize)) } ∧
      t.host = (s.host.modifyBudget c.commons fun _ => budget).modifyInstance c.inst fun i =>
        { i with limiter := ⟨⟨i.limiter.charged.value + pages * Wasm.pageSize⟩⟩ } := by
  simp only [Flight.growMemory?, Option.bind_eq_bind, Option.bind_eq_some_iff, Option.pure_def,
    Option.some.injEq, Prod.mk.injEq] at grown
  obtain ⟨m, hm, i, hi, k, hk, ⟨limiter, budget⟩, charged, rfl, rfl⟩ := grown
  -- What is reserved is just what the memory grows by.
  obtain ⟨limit, reserved, rfl⟩ := Limiter.growMemory?_eq_some charged
  rw [Nat.add_sub_cancel_left] at reserved
  obtain ⟨c', hc, rfl⟩ := Option.map_eq_some_iff.1 hi
  refine ⟨m, c'.value, k, budget, hm, hi, hk, reserved, limit, rfl, rfl, ?_⟩
  rw [Nat.add_sub_cancel_left]
  rw [Host.modifyInstance_congr hc (fun i =>
    { i with limiter := ⟨⟨i.limiter.charged.value + pages * Wasm.pageSize⟩⟩ }) rfl]
  rfl

/-- A relation between stores that allows what a call does to the store that it holds. -/
theorem working_of_store (K : Store → Store → Prop) (printer : Printer σ) (c : Caller)
    (refl : ∀ s, K s s) (trans : ∀ {s t u}, K s t → K t u → K s u)
    (store : ∀ s t : Store, s.guest.Extends t.guest → t.heap = s.heap → t.active = s.active → K s t)
    (mark : ∀ (s : Store) (f : UserData → UserData), K s { s with
      active := s.active.map fun a => { a with userData := f a.userData } })
    (grow : ∀ (s : Store) (i : Nat) (m : Wasm.Memory) (pages : Nat),
      s.guest.memories[i]? = some m → m.size + pages * Wasm.pageSize ≤ m.limit →
        K s { s with guest := s.guest.setMemory i (m.grow (m.size + pages * Wasm.pageSize)) }) :
    Working printer c fun s t => K s.store t.store where
  refl s := refl s.store
  trans := trans
  store s := store s.store
  print s _ := refl s.store
  clock s := refl s.store
  mark s f _ := mark s.store f
  grow s memory pages before t grown := by
    obtain ⟨m, _, _, _, there, -, -, -, limit, -, store, -⟩ := Flight.growMemory?_eq_some grown
    rw [store]
    exact grow s.store memory m pages there limit

/-- What is seen of a store stays as it is if neither code that runs, nor what becomes of the lent user
data, nor more memory makes a difference to it. -/
theorem working_of_view {ν : Type} (view : Store → ν) (printer : Printer σ) (c : Caller)
    (store : ∀ s t : Store, s.guest.Extends t.guest → t.heap = s.heap → t.active = s.active →
      view t = view s)
    (mark : ∀ (s : Store) (f : UserData → UserData), view { s with
      active := s.active.map fun a => { a with userData := f a.userData } } = view s)
    (grow : ∀ (s : Store) (i : Nat) (m : Wasm.Memory),
      view { s with guest := s.guest.setMemory i m } = view s) :
    Working printer c fun s t => view t.store = view s.store :=
  working_of_store (fun s t => view t = view s) printer c (fun _ => rfl)
    (fun first second => second.trans first) store mark fun s i _ _ _ _ => grow s i _

/-- Whatever a call does, it leaves the app heap alone. -/
theorem working_heap (printer : Printer σ) (c : Caller) :
    Working printer c fun s t => t.store.heap = s.store.heap :=
  working_of_view Store.heap printer c (fun _ _ _ heap _ => heap) (fun _ _ => rfl) fun _ _ _ => rfl

/-- Where no user data is lent, none ever is. -/
theorem working_idle (printer : Printer σ) (c : Caller) :
    Working printer c fun s t => s.store.active = none → t.store.active = none := by
  refine working_of_store (fun s t => s.active = none → t.active = none) printer c (fun _ => id)
    (fun first second => second ∘ first) (fun _ _ _ _ active => active.trans) (fun s f idle => ?_)
    fun _ _ _ _ _ _ => id
  rw [idle]
  rfl

/-! ### Single steps -/

section

variable {s : Flight σ} {E : String → Flight σ → Prop}

@[simp] theorem ends_loan {Q : Store → Flight σ → Prop} :
    Ends FlightM.store s Q E ↔ Q s.store s := Iff.rfl

@[simp] theorem ends_modifyStore {Q : Unit → Flight σ → Prop} {f : Store → Store} :
    Ends (FlightM.modifyStore f) s Q E ↔ Q () { s with store := f s.store } := Iff.rfl

@[simp] theorem ends_raise {Q : α → Flight σ → Prop} {kind : FaultKind} {message : String} :
    Ends (FlightM.raise kind message) s Q E ↔
      E message { s with store := { s.store with latch := some ⟨kind, message⟩ } } := Iff.rfl

@[simp] theorem ends_orFail {Q : α → Flight σ → Prop} {message : String} {a : Option α} :
    Ends (FlightM.orFail message a) s Q E ↔ (∀ v, a = some v → Q v s) ∧ (a = none →
      E message { s with store := { s.store with latch := some ⟨.hostFailure, message⟩ } }) := by
  cases a with
  | none => exact ⟨fun h => ⟨nofun, fun _ => h⟩, fun h => h.2 rfl⟩
  | some v => simp [FlightM.orFail]

end

/-! ### Composition -/

section

variable (steady : Steady printer c R)
include steady

/-- To return something stays where it is. -/
theorem within_pure (a : α) : Within R (pure a) :=
  fun s => steady.refl s

/-- So does to fail. -/
theorem within_throw (e : String) : Within R (throw e : FlightM σ α) :=
  fun s => steady.refl s

/-- One part of a call after another, as related states are composed. -/
theorem within_bind {x : FlightM σ α} {f : α → FlightM σ β} (first : Within R x)
    (rest : ∀ a, Within R (f a)) : Within R (x >>= f) :=
  fun s => ends_bind ((first s).mono (fun _ _ h => h) fun _ _ h => h) fun a t h =>
    (rest a t).mono (fun _ _ => steady.trans h) fun _ _ => steady.trans h

/-- To look at the call stays where it is. -/
theorem within_get : Within R (get : FlightM σ (Flight σ)) :=
  fun s => steady.refl s

/-- To look at the store stays where it is. -/
theorem within_store : Within R (FlightM.store : FlightM σ Store) :=
  fun s => steady.refl s

/-- A change of the store that extends the guest, and leaves the app heap and the call alone. -/
theorem within_modifyStore {f : Store → Store} (guest : ∀ s : Store, s.guest.Extends (f s).guest)
    (heap : ∀ s : Store, (f s).heap = s.heap) (active : ∀ s : Store, (f s).active = s.active) :
    Within R (FlightM.modifyStore f) :=
  fun s => steady.store s (f s.store) (guest s.store) (heap s.store) (active s.store)

/-! ### What callbacks are made of -/

/-- A fault may be latched. -/
theorem within_latch (fault : Fault) : Within R (FlightM.latch fault) :=
  within_modifyStore steady (fun _ => .refl _) (fun _ => rfl) fun _ => rfl

/-- A fault may be latched, and the guest unwound. -/
theorem within_raise (kind : FaultKind) (message : String) :
    Within R (FlightM.raise kind message : FlightM σ α) :=
  within_bind steady (within_latch steady _) fun _ => within_throw steady _

/-- What is missing is a fault. -/
theorem within_orFail (message : String) (a : Option α) : Within R (FlightM.orFail message a) := by
  cases a with
  | none => exact within_raise steady .hostFailure message
  | some a => exact within_pure steady a

/-- To look at the user data stays where it is. -/
theorem within_userData : Within R (FlightM.userData : FlightM σ UserData) :=
  within_bind steady (within_store steady) fun _ => within_orFail steady _ _

/-- Readings are taken from the clock of the host. -/
theorem within_clock : Within R (FlightM.clock c : FlightM σ Reading) :=
  fun s => steady.clock s

/-- A moment is a reading. -/
theorem within_now : Within R (FlightM.now c : FlightM σ UInt64) := by
  refine within_bind steady (within_clock steady) fun r => ?_
  cases r with
  | ok time => exact within_pure steady time
  | error e => exact within_raise steady .hostFailure _

/-- Bytes are printed. -/
theorem within_printBytes (bytes : Bytes) : Within R (FlightM.printBytes printer c bytes) :=
  fun s => steady.print s bytes

/-- To look at a counter stays where it is. -/
theorem within_counterValue (name : String) : Within R (FlightM.counterValue c name) := by
  refine within_bind steady (within_store steady) fun s => ?_
  refine within_bind steady (within_orFail steady _ _) fun found => ?_
  dsimp only
  split
  · exact within_pure steady _
  · exact within_raise steady .hostFailure _

/-- The memory that a callback refers to is one of the guest's. -/
theorem ends_guestMemory (s : Flight σ) :
    Ends (FlightM.guestMemory c) s
      (fun found t => t = s ∧ s.store.guest.memories[found.1]? = some found.2) fun _ t => R s t := by
  simp only [FlightM.guestMemory, ends_bind_iff, ends_loan, ends_orFail, Option.bind_eq_bind,
    Option.bind_eq_some_iff, Option.pure_def, Option.some.injEq]
  refine ⟨?_, fun _ => steady.store s _ (.refl _) rfl rfl⟩
  rintro _ ⟨i, _, m, hm, rfl⟩
  exact ⟨trivial, hm⟩

/-! ### Callbacks -/

/-- A print reads memory and prints. -/
theorem within_print (address : Nat) : Within R (Native.runPrint printer c address) := by
  intro s
  refine ends_bind (ends_guestMemory steady s) fun found t ⟨same, _⟩ => ?_
  subst same
  refine within_bind steady (within_orFail steady _ _) (fun text => ?_) t
  exact within_bind steady (within_printBytes steady _) fun _ => within_pure steady _

/-- A copy writes to memory. -/
theorem within_copy (name : String) (select : UserData → Bytes) (address capacity : Nat) :
    Within R (Native.runCopy c name select address capacity) := by
  intro s
  refine ends_bind (ends_guestMemory steady s) fun found t ⟨same, present⟩ => ?_
  subst same
  simp only [ends_bind_iff, ends_loan, ends_orFail, ends_modifyStore, ends_pure]
  refine ⟨fun active _ => ⟨fun m written => ?_, fun _ => steady.store t _ (.refl _) rfl rfl⟩,
    fun _ => steady.store t _ (.refl _) rfl rfl⟩
  obtain ⟨size, maximum⟩ := Wasm.Guest.write?_shape written
  exact steady.store t _ (Wasm.Guest.extends_setMemory present size maximum) rfl rfl

/-- Callbacks of the guest interface do no more than that, and what they do to user data. -/
theorem within_native (n : Native) (args : List Wasm.Value)
    (marks : ∀ f, (Callback.native n).Marks args f → ∀ s, R s (s.mark f)) :
    Within R (n.run printer c args) := by
  -- One case for each callback, as a sequence of the parts above.
  unfold Native.run
  split
  case h_1 => exact within_pure steady _
  case h_2 => exact within_print steady _
  case h_3 => exact within_print steady _
  case h_4 =>
    refine within_bind steady (within_printBytes steady _) fun _ => ?_
    refine within_bind steady (within_now steady) fun _ => ?_
    refine within_bind steady (within_userData steady) fun _ => ?_
    exact within_bind steady (fun s => marks _ ⟨_, rfl⟩ s) fun _ => within_pure steady _
  case h_5 =>
    refine within_bind steady (within_now steady) fun _ => ?_
    refine within_bind steady (within_userData steady) fun _ => ?_
    exact within_bind steady (within_printBytes steady _) fun _ => within_pure steady _
  case h_6 => exact within_bind steady (within_userData steady) fun _ => within_pure steady _
  case h_7 => exact within_bind steady (within_userData steady) fun _ => within_pure steady _
  case h_8 => exact within_copy steady _ _ _ _
  case h_9 => exact within_copy steady _ _ _ _
  case h_10 => exact within_raise steady _ _
  case h_11 => exact within_raise steady _ _
  case h_12 =>
    refine within_bind steady (within_counterValue steady _) fun _ => ?_
    refine within_bind steady (within_counterValue steady _) fun _ => ?_
    refine within_bind steady (within_printBytes steady _) fun _ => ?_
    refine within_bind steady (within_userData steady) fun _ => ?_
    exact within_bind steady (fun s => marks _ ⟨_, rfl⟩ s) fun _ => within_raise steady _ _
  case h_13 => exact within_throw steady _

/-- Nor do probes. -/
theorem within_probe (p : Probe) (args : List Wasm.Value)
    (marks : ∀ f, (Callback.probe p).Marks args f → ∀ s, R s (s.mark f)) :
    Within R (p.run printer c args) := by
  -- Probes latch, print and look around, but they change no memory.
  unfold Probe.run
  split
  · exact within_throw steady _
  · exact within_throw steady _
  · exact within_bind steady (within_latch steady _) fun _ => within_pure steady _
  · exact within_raise steady _ _
  · refine within_bind steady (within_store steady) fun _ => ?_
    refine within_bind steady ?_ fun _ => within_pure steady _
    exact within_modifyStore steady (fun _ => .refl _) (fun _ => rfl) fun _ => rfl
  · exact within_bind steady (within_get steady) fun _ => within_pure steady _
  · exact within_bind steady (within_store steady) fun _ => within_pure steady _
  · refine within_bind steady (within_clock steady) fun r => ?_
    cases r <;> exact within_pure steady _
  · exact within_bind steady (fun s => marks _ rfl s) fun _ => within_pure steady _
  · refine within_bind steady (within_get steady) fun _ => ?_
    refine within_bind steady (within_store steady) fun _ => ?_
    exact within_bind steady (within_printBytes steady _) fun _ => within_pure steady _
  · exact within_throw steady _

/-- What a callback does is allowed, if what it does to the lent user data is. -/
theorem within_run (n : Callback) (args : List Wasm.Value)
    (marks : ∀ f, n.Marks args f → ∀ s, R s (s.mark f)) : Within R (n.run printer c args) := by
  cases n with
  | native n => exact within_native steady n args marks
  | probe p => exact within_probe steady p args marks

/-- Asking for memory is allowed, if getting it is. -/
theorem within_growMemory (memory pages : Nat)
    (grow : ∀ s before t, s.growMemory? c memory pages = some (before, t) → R s t) :
    Within R (FlightM.growMemory c memory pages) := by
  intro s
  unfold FlightM.growMemory
  rw [ends_bind_iff, ends_get]
  split
  · exact steady.refl s
  case h_2 before t grown => exact grow s before t grown

end

end Embedder
