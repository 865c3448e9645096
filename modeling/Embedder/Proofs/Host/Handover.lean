import Embedder.Proofs.Host.Events
import Embedder.Proofs.Host.Globals
import Embedder.Proofs.Host.Signatures
import Embedder.Proofs.Host.Standing

namespace Embedder

/-!
# Events for guests

A guest is told how long an event is when its entry point is called, and it can ask callbacks for it.
They copy as much of the event as the guest has room for, and say again how long it is. What is copied
as a whole has a zero byte at the end, and so it can be printed.

* `EventPart`: the identifier and the payload, with their sizes and their callbacks.
* `Flight.HandsOver`, `handsOver_of_event`: what callbacks do with an event in a state of a call.
* `Host.HandsOver`, `Config.Endowed.handsOver`: the runs of a runner that carries an event.
* `BringsUp`, `Config.Cellular.handsOver_benchmark`: the runs of a benchmark.
-/

-- Powers are those of the core library, whatever else is imported.
attribute [local instance (1100)] instPowNat

variable {σ : Type} {printer : Printer σ}

/-! ### Parts of events -/

/-- The parts of an event. -/
inductive EventPart where
  | identifier
  | payload
  deriving DecidableEq

/-- An event as a guest gets it: with a zero byte after each part. -/
def forGuest (event : Bytes × Bytes) : Bytes × Bytes :=
  (terminated event.1, terminated event.2)

namespace EventPart

/-- A part of an event. -/
def bytes (event : Bytes × Bytes) : EventPart → Bytes
  | identifier => event.1
  | payload => event.2

/-- The size of a part, as a guest is told it: that of the bytes and the zero byte. -/
def size (event : Bytes × Bytes) (p : EventPart) : UInt32 :=
  UInt32.ofNat (terminated (p.bytes event)).length

/-- The callback that tells the size of a part. -/
def teller : EventPart → Native
  | identifier => .eventIdLength
  | payload => .eventPayloadLength

/-- The callback that copies a part. -/
def copier : EventPart → Native
  | identifier => .eventId
  | payload => .eventPayload

/-- Each part of an event is handed over with a zero byte after it. -/
theorem bytes_forGuest (event : Bytes × Bytes) (p : EventPart) :
    p.bytes (forGuest event) = terminated (p.bytes event) := by
  cases p <;> rfl

/-- Each part of an event has a callback that copies it. -/
theorem copied?_copier (p : EventPart) : p.copier.copied? = some fun u => p.bytes u.event := by
  cases p <;> rfl

/-- Both parts are short enough that their sizes are numbers of 32 bits. -/
def Fits (event : Bytes × Bytes) : Prop :=
  ∀ p : EventPart, (p.size event).toNat = (p.bytes event).length + 1

/-- An event fits if the lengths of both parts fit into words. -/
theorem fits_of_lt {event : Bytes × Bytes} (first : (terminated event.1).length < 2 ^ (32 : Nat))
    (second : (terminated event.2).length < 2 ^ (32 : Nat)) : Fits event := by
  intro p
  have short : (terminated (p.bytes event)).length < 2 ^ (32 : Nat) := by cases p <;> assumption
  rw [size, UInt32.toNat_ofNat_of_lt' short, terminated, List.length_append]
  rfl

end EventPart

/-- The text at the beginning of bytes with a zero byte after them: what comes before the first zero
byte. -/
theorem exists_terminated_eq (bytes : Bytes) :
    ∃ rest, terminated bytes = bytes.takeWhile (· ≠ 0) ++ 0 :: rest := by
  induction bytes with
  | nil => exact ⟨[], rfl⟩
  | cons b bytes ih =>
    by_cases zero : b = 0
    · subst zero
      exact ⟨terminated bytes, rfl⟩
    · obtain ⟨rest, eq⟩ := ih
      refine ⟨rest, ?_⟩
      have first : decide (b ≠ 0) = true := decide_eq_true zero
      rw [List.takeWhile_cons, first]
      show b :: terminated bytes = b :: (bytes.takeWhile (· ≠ 0) ++ 0 :: rest)
      rw [← eq]

/-! ### Memories -/

namespace Store

variable {s : Store} {c : Caller} {i : Nat} {m : Wasm.Memory}

/-- Callbacks refer to the exported memory, once there are exports. -/
theorem memory?_eq_some_iff : s.memory? c = some (i, m) ↔ c.hasExports = true ∧
    s.guest.exportedMemory? memoryExport = some i ∧ s.guest.memories[i]? = some m := by
  unfold memory?
  cases c.hasExports with
  | false => simp
  | true =>
    cases s.guest.exportedMemory? memoryExport with
    | none => simp
    | some j =>
      show ((s.guest.memories[j]?).bind fun m' => some (j, m')) = some (i, m) ↔ _
      constructor
      · intro found
        obtain ⟨m', present, same⟩ := Option.bind_eq_some_iff.1 found
        cases same
        exact ⟨rfl, rfl, present⟩
      · rintro ⟨-, same, present⟩
        cases same
        rw [present]
        rfl

/-- Where a memory has been changed, callbacks find it changed. -/
theorem memory?_setMemory (there : s.memory? c = some (i, m)) (m' : Wasm.Memory) :
    Store.memory? { s with guest := s.guest.setMemory i m' } c = some (i, m') := by
  obtain ⟨reach, exported, present⟩ := memory?_eq_some_iff.1 there
  refine memory?_eq_some_iff.2 ⟨reach, exported, ?_⟩
  rw [Wasm.Guest.getElem?_setMemory, if_pos rfl, present, Option.map_some]

end Store

/-- A memory in its own place changes nothing. -/
theorem Wasm.Guest.setMemory_eq_self {ν : Type} {g : Wasm.Guest ν} {i : Nat} {m : Wasm.Memory}
    (there : g.memories[i]? = some m) : g.setMemory i m = g := by
  have same : g.memories.setIfInBounds i m = g.memories := by
    apply Array.ext_getElem?
    intro j
    rw [Array.getElem?_setIfInBounds]
    split
    case isTrue eq =>
      subst eq
      rw [if_pos (Array.getElem?_eq_some_iff.1 there).1, there]
    case isFalse => rfl
  rw [setMemory, same]

/-! ### Callbacks -/

/-- In a state of a call, callbacks hand an event over to the guest. -/
structure Flight.HandsOver (printer : Printer σ) (s : Flight σ) (event : Bytes × Bytes) : Prop where
  /-- The size of a part is told to whoever asks for it. -/
  tells : ∀ (p : EventPart) c given,
    exec (p.teller.run printer c given) s = (.ok [.i32 (p.size event)], s)
  /-- A part is copied if and only if what is to be copied of it lies inside memory: all of it, or as
  much as the guest has room for. -/
  copies : ∀ (p : EventPart) c address capacity,
    (∃ values t, exec (p.copier.run printer c [.i32 address, .i32 capacity]) s = (.ok values, t)) ↔
      ∃ i m, s.store.memory? c = some (i, m) ∧
        address.toNat + min capacity.toNat (p.size event).toNat ≤ m.size
  /-- Then the size of the part is told, too, and memory is overwritten with just that. -/
  delivers : ∀ (p : EventPart) c address capacity values t,
    exec (p.copier.run printer c [.i32 address, .i32 capacity]) s = (.ok values, t) →
      values = [.i32 (p.size event)] ∧ ∃ i m m', s.store.memory? c = some (i, m) ∧
        m.size ≤ 2 ^ Wasm.addressBits ∧
        m.Overwritten address.toNat ((terminated (p.bytes event)).take capacity.toNat) m' ∧
        t = { s with store := { s.store with guest := s.store.guest.setMemory i m' } }
  /-- Otherwise the guest is unwound, and nothing is copied. -/
  declines : ∀ (p : EventPart) c address capacity cause t,
    exec (p.copier.run printer c [.i32 address, .i32 capacity]) s = (.error cause, t) →
      t = s.failed cause
  /-- A guest that has room for all of a part finds all of it in memory. -/
  completes : ∀ (p : EventPart) c address capacity values t, p.size event ≤ capacity →
    exec (p.copier.run printer c [.i32 address, .i32 capacity]) s = (.ok values, t) →
      ∃ i m', t.store.memory? c = some (i, m') ∧
        m'.read? address.toNat (p.size event).toNat = some (terminated (p.bytes event))
  /-- As long as it is there, what is printed at this address are the bytes of the part up to the first
  zero byte. -/
  prints : ∀ (p : EventPart) c (address : UInt32) (t : Flight σ) i m n,
    t.store.memory? c = some (i, m) →
    m.read? address.toNat (p.size event).toNat = some (terminated (p.bytes event)) →
      n = Native.print ∨ n = Native.printString → exec (n.run printer c [.i32 address]) t =
        (.ok [], { t with host := printer c.commons ((p.bytes event).takeWhile (· ≠ 0)) t.host })
  /-- With no room at all, wherever in memory, the guest is told the size, and nothing else happens. -/
  asks : ∀ (p : EventPart) c address i m, s.store.memory? c = some (i, m) → address.toNat ≤ m.size →
    exec (p.copier.run printer c [.i32 address, .i32 0]) s = (.ok [.i32 (p.size event)], s)
  /-- With as much room as it was told, it gets all of the part, if that lies inside memory. -/
  fills : ∀ (p : EventPart) c address i m, s.store.memory? c = some (i, m) →
    address.toNat + (p.size event).toNat ≤ m.size → ∃ t m',
      exec (p.copier.run printer c [.i32 address, .i32 (p.size event)]) s =
        (.ok [.i32 (p.size event)], t) ∧ t.store.memory? c = some (i, m') ∧
      m'.read? address.toNat (p.size event).toNat = some (terminated (p.bytes event))

section

variable (printer) {s : Flight σ} {a : ActiveCall} {event : Bytes × Bytes}
  (active : s.store.active = some a) (lent : a.userData.event = forGuest event)
  (fits : EventPart.Fits event)
include active lent

/-- What is told is the size of what is lent. -/
theorem exec_teller (p : EventPart) (c : Caller) (given : List Wasm.Value) :
    exec (p.teller.run printer c given) s = (.ok [.i32 (p.size event)], s) := by
  have told : exec (do pure (Native.lengthResult (p.bytes (← FlightM.userData).event).length)) s =
      (.ok (Native.lengthResult (p.bytes a.userData.event).length), s) := by
    refine exec_eq_of_ends ?_
    unfold FlightM.userData
    simp only [ends_bind_iff, ends_loan, ends_orFail_iff, ends_pure, active]
    simp
  rw [lent, EventPart.bytes_forGuest] at told
  cases p <;> exact told

include fits

omit active lent in
/-- A part takes as many bytes as its size says, the terminator among them. -/
theorem length_terminated (p : EventPart) :
    (terminated (p.bytes event)).length = (p.size event).toNat := by
  rw [fits p, terminated, List.length_append]
  rfl

/-- What is copied of a part lies inside memory, or nothing is copied. -/
theorem copier_cases (p : EventPart) (c : Caller) (address capacity : UInt32) :
    (∃ i m m', s.store.memory? c = some (i, m) ∧
      address.toNat + min capacity.toNat (p.size event).toNat ≤ m.size ∧
      m.Overwritten address.toNat ((terminated (p.bytes event)).take capacity.toNat) m' ∧
      exec (p.copier.run printer c [.i32 address, .i32 capacity]) s =
        (.ok [.i32 (p.size event)],
          { s with store := { s.store with guest := s.store.guest.setMemory i m' } })) ∨
    (¬ ∃ i m, s.store.memory? c = some (i, m) ∧
      address.toNat + min capacity.toNat (p.size event).toNat ≤ m.size) ∧
      ∃ cause, exec (p.copier.run printer c [.i32 address, .i32 capacity]) s =
        (.error cause, s.failed cause) := by
  have length : (p.bytes a.userData.event).length = (p.size event).toNat := by
    rw [lent, EventPart.bytes_forGuest, length_terminated fits p]
  -- As many bytes are copied as the part has, or as there is room for.
  by_cases inside : ∃ i m, s.store.memory? c = some (i, m) ∧
      address.toNat + min capacity.toNat (p.size event).toNat ≤ m.size
  · obtain ⟨i, m, there, inside⟩ := inside
    rw [← length] at inside
    obtain ⟨m', written, done⟩ :=
      exec_copied_inside printer p.copied?_copier there active inside
    rw [length] at inside
    rw [lent, EventPart.bytes_forGuest] at written done
    exact .inl ⟨i, m, m', there, inside, written, done⟩
  · refine .inr ⟨inside, exec_copied_outside printer p.copied?_copier ?_⟩
    intro i m a' there active'
    cases active.symm.trans active'
    rw [length]
    exact Nat.lt_of_not_le fun le => inside ⟨i, m, there, le⟩

/-- Where there is room for all of a part, all of it is copied into memory. -/
theorem read?_of_copied {p : EventPart} {c : Caller} {address capacity : UInt32}
    {values : List Wasm.Value} {t : Flight σ} (enough : p.size event ≤ capacity)
    (addressable : ∀ (i : Nat) (m : Wasm.Memory), s.store.memory? c = some (i, m) →
      m.size ≤ 2 ^ Wasm.addressBits)
    (done : exec (p.copier.run printer c [.i32 address, .i32 capacity]) s = (.ok values, t)) :
    ∃ i m', t.store.memory? c = some (i, m') ∧
      m'.read? address.toNat (p.size event).toNat = some (terminated (p.bytes event)) := by
  have whole := length_terminated fits p
  rcases copier_cases printer active lent fits p c address capacity with
    ⟨i, m, m', there, -, written, done'⟩ | ⟨-, cause, failed⟩
  · cases done.symm.trans done'
    have all : (terminated (p.bytes event)).take capacity.toNat = terminated (p.bytes event) :=
      List.take_of_length_le (whole.trans_le enough)
    rw [all] at written
    refine ⟨i, m', Store.memory?_setMemory there m', ?_⟩
    rw [← whole]
    exact written.read? (addressable i m there)
  · cases done.symm.trans failed

/-- **Callbacks.** In a call that has user data on loan with an event as guests get it, callbacks hand
the event over. -/
theorem handsOver_of_event
    (addressable : ∀ (i : Nat) (m : Wasm.Memory), s.store.guest.memories[i]? = some m →
      m.size ≤ 2 ^ Wasm.addressBits) :
    s.HandsOver printer event := by
  have reach : ∀ {c} (i) (m : Wasm.Memory), s.store.memory? c = some (i, m) →
      m.size ≤ 2 ^ Wasm.addressBits :=
    fun _ _ there => addressable _ _ (Store.memory?_eq_some_iff.1 there).2.2
  have ends := copier_cases printer active lent fits
  constructor
  case tells => exact exec_teller printer active lent
  case copies =>
    intro p c address capacity
    rcases ends p c address capacity with ⟨i, m, m', there, inside, -, done⟩ | ⟨outside, cause, failed⟩
    · exact ⟨fun _ => ⟨i, m, there, inside⟩, fun _ => ⟨_, _, done⟩⟩
    · refine ⟨fun ⟨values, t, done⟩ => ?_, fun inside => absurd inside outside⟩
      cases done.symm.trans failed
  case delivers =>
    intro p c address capacity values t done
    rcases ends p c address capacity with ⟨i, m, m', there, -, written, done'⟩ | ⟨-, cause, failed⟩
    · cases done.symm.trans done'
      exact ⟨rfl, i, m, m', there, reach i m there, written, rfl⟩
    · cases done.symm.trans failed
  case declines =>
    intro p c address capacity cause t failed
    rcases ends p c address capacity with ⟨_, _, _, -, -, -, done⟩ | ⟨-, cause', failed'⟩
    · cases done.symm.trans failed
    · cases failed.symm.trans failed'
      rfl
  case completes =>
    intro p c address capacity values t enough done
    exact read?_of_copied printer active lent fits enough reach done
  case prints =>
    intro p c address t i m n there here prints
    obtain ⟨rest, split⟩ := exists_terminated_eq (p.bytes event)
    rw [← length_terminated fits p] at here
    refine exec_printed printer prints there (Wasm.Memory.hasText_of_read? here split fun b member => ?_)
    exact of_decide_eq_true (List.all_eq_true.1 List.all_takeWhile b member)
  case asks =>
    intro p c address i m there inside
    -- To write no bytes at all is to put the memory back in its place.
    have nothing : m.write? address.toNat [] = some m := if_pos inside
    have same := Wasm.Guest.setMemory_eq_self (Store.memory?_eq_some_iff.1 there).2.2
    have copied : s.store.copied c p.copier.name (fun u => p.bytes u.event) address.toNat
        (0 : UInt32).toNat = .ok (i, m, terminated (p.bytes event)) := by
      simp only [Store.copied, there, active, lent, EventPart.bytes_forGuest]
      rw [show (0 : UInt32).toNat = 0 from rfl, List.take_zero, nothing]
    rw [Native.run_of_copied p.copied?_copier, exec_copy, copied]
    dsimp only
    rw [same]
    rfl
  case fills =>
    intro p c address i m there inside
    rcases ends p c address (p.size event) with ⟨i', m', w, there', -, -, done⟩ | ⟨outside, -⟩
    · cases there.symm.trans there'
      obtain ⟨j, w', found, here⟩ :=
        read?_of_copied printer active lent fits (UInt32.le_refl _) reach done
      cases found.symm.trans (Store.memory?_setMemory there w)
      exact ⟨_, w, done, found, here⟩
    · exact absurd ⟨i, m, there, by rwa [Nat.min_self]⟩ outside

end

/-! ### Runs -/

/-- The sizes of both parts, as an entry point takes them. -/
def EventPart.sizes (event : Bytes × Bytes) : List HostValue :=
  [.u32 (identifier.size event), .u32 (payload.size event)]

/-- The lengths that a run is told are those of the event. -/
theorem Environment.lengths_of_event {e : Environment} {event : Bytes × Bytes}
    (same : e.userData.event = forGuest event) : e.lengths = EventPart.sizes event := by
  obtain ⟨first, second⟩ := Prod.mk.inj same
  rw [Environment.lengths, first, second]
  rfl

variable [Engine]

/-- The runs of a runner hand an event over to its guest. -/
structure Host.HandsOver (printer : Printer σ) (h : Host σ) (id : Nat) (event : Bytes × Bytes) :
    Prop where
  /-- The size of a part is the number of its bytes and one more. -/
  fits : EventPart.Fits event
  /-- A run calls the entry point with the sizes, if the runner is still there and its instance is not
  in use. -/
  calls : ∀ (b : Build) r threshold u, h.runners.get? id = some r →
    b.calling printer id r.commons threshold h = u → (u.runners.get? id).isSome →
      (u.store? r.inst).isSome →
        let ended := (Invoker.ofEnvironment r.environment).call printer b.main
          (EventPart.sizes event ++ b.more threshold) [.i32] u
        exec (b.run printer id threshold) h =
          exec (HostM.settle id ended.1 >>= b.closing printer id r threshold) ended.2.2
  /-- If the call enters the guest, the entry point is given the sizes as they are. -/
  enters : ∀ (b : Build) r threshold u, h.runners.get? id = some r →
    b.calling printer id r.commons threshold h = u →
      ∀ entry : Entry u r.environment b.main (EventPart.sizes event ++ b.more threshold) [.i32],
        entry.params =
          [.i32 (EventPart.identifier.size event), .i32 (EventPart.payload.size event)] ++
            wireValues (b.more threshold)
  /-- Whenever the guest calls a callback then, it is in a state in which callbacks hand the event
  over. -/
  offers : ∀ (b : Build) r threshold u, h.runners.get? id = some r →
    b.calling printer id r.commons threshold h = u → (u.runners.get? id).isSome →
      ∀ name args results (entry : Entry u r.environment name args results) n given w,
        entry.Asks printer n given w → w.HandsOver printer event
  /-- A guest whose module exports a memory has it, and callbacks find it. -/
  reaches : ∀ (b : Build) r threshold u, h.runners.get? id = some r →
    b.calling printer id r.commons threshold h = u → ∀ record m i,
      u.instance? r.inst = some record → u.module? record.module = some m →
        m.wasm.export? memoryExport = some (.memory i) →
          ∀ name args results (entry : Entry u r.environment name args results) n given w c,
            entry.Asks printer n given w → c.hasExports = true →
              ∃ memory, w.store.memory? c = some (i, memory)

section

variable [Holder σ] [Rule σ] {allowed : Effect → Prop} {h : Host σ} {g : Pending} {id : Nat}
  {event : Bytes × Bytes}

omit [Engine] in
/-- Nothing is on loan to an instance at rest. -/
theorem Config.Sound.event?_of_idle (sound : Config.Sound ⟨h, g⟩) {record : Instance} {s : Store}
    (present : h.instance? id = some record) (idle : record.store = some s) : g.event? id = none := by
  obtain ⟨c, hc, rfl⟩ := Option.map_eq_some_iff.1 present
  have free : g.held id = none :=
    (sound.custody id _ (Config.custody?_of_get? (c := ⟨h, g⟩) hc)).free idle
  rw [Pending.event?, free]
  rfl

omit [Engine] in
/-- The module of an instance is there. -/
theorem Config.Sound.exists_module (sound : Config.Sound ⟨h, g⟩) {record : Instance}
    (present : h.instance? id = some record) : ∃ m, h.module? record.module = some m := by
  have refs : 0 < h.refs .inst id .module record.module := by
    simp [Host.refs, present, Instance.refs, Holds.on]
  obtain ⟨c, hc⟩ := Option.isSome_iff_exists.1 (sound.has_of_refs refs)
  exact ⟨c.value, by rw [Host.module?, hc, Option.map_some]⟩

/-- A complete guest that a call has entered is complete wherever it calls a callback, and is a guest of
the same module. -/
theorem Config.Cellular.stocked_of_asks (cellular : Config.Cellular ⟨h, g⟩) {environment : Nat}
    {name : String} {args : List HostValue} {results : List HostType}
    (entry : Entry h environment name args results) {n : Callback} {given : List Wasm.Value}
    {w : Flight σ} (asks : entry.Asks printer n given w) :
    w.store.guest.Stocked ∧ ∃ record m, h.instance? entry.env.inst = some record ∧
      h.module? record.module = some m ∧ m.wasm.isValid = true ∧ w.store.guest.module = m.wasm := by
  obtain ⟨record, there, idle, -⟩ := Host.callee_eq_ok entry.found
  obtain ⟨m, loaded⟩ := cellular.sound.exists_module there
  obtain ⟨module, valid, stocked⟩ := cellular.stocked_of_idle there loaded idle
  have working := working_stocked printer entry.callee.caller
  have stays := working_module printer entry.callee.caller
  have kept := Flight.Asks.within working.toSteady working.grow
    (fun _ _ f _ marks s => working.mark s f marks.event) asks stocked
  have same := Flight.Asks.within stays.toSteady stays.grow
    (fun _ _ f _ marks s => stays.mark s f marks.event) asks
  exact ⟨kept, record, m, there, loaded, valid, same.trans module⟩

omit [Engine] in
/-- Where the instance of a runner is at rest, the event of the runner is in its place. -/
theorem Config.Cellular.event_eq (cellular : Config.Cellular ⟨h, g⟩)
    (carries : Config.Carries ⟨h, g⟩ id event) {r : Runner} (present : h.runners.get? id = some r)
    {record : Instance} {s : Store} (there : h.instance? r.inst = some record)
    (idle : record.store = some s) {e : Environment}
    (bound : h.environments.get? r.environment = some e) : e.userData.event = event := by
  refine (carries.bears r present).rests (fun e' lent => ?_) e bound
  cases (cellular.sound.event?_of_idle there idle).symm.trans lent

/-- A host in which everything is as it was made, with a runner that carries an event for guests. -/
structure Config.Endowed (c : Config σ) (id : Nat) (event : Bytes × Bytes) : Prop where
  cellular : c.Cellular
  carries : c.Carries id (forGuest event)
  fits : EventPart.Fits event

omit [Engine] in
/-- An instance is endowed with its event whatever happens, by induction on the changes. -/
theorem Leads.endowed {a b : Config σ} (lead : Leads allowed a b) (ha : a.Endowed id event) :
    b.Endowed id event :=
  ⟨lead.cellular ha.cellular, lead.carries ha.cellular.sound ha.cellular.chained ha.carries, ha.fits⟩

/-- A new runner carries the event that it is made with. -/
theorem ends_createRunner_endowed (traced : Traced (fun _ => True) printer) (runtime : Nat)
    (bytecode eventId payload : Bytes) (config : ModuleConfig) (execStack : Nat)
    (cellular : Config.Cellular ⟨h, g⟩) (bounded : Config.Bounded ⟨h, g⟩) :
    Ends (HostM.createRunner printer runtime bytecode eventId payload config execStack) h
      (fun id h' => Config.Endowed ⟨h', g.pin .runner id⟩ id (eventId, payload))
      fun _ _ => True := by
  refine (ends_createRunner_carries traced (fun _ _ => trivial) runtime bytecode eventId payload config
    execStack cellular.sound bounded).mono (fun id h' made => ?_) fun _ _ _ => trivial
  obtain ⟨carries, first, second, lead⟩ := made
  exact ⟨lead.cellular cellular, carries, EventPart.fits_of_lt first second⟩

/-- **Events.** The runs of a runner that carries an event hand it over to the guest. -/
theorem Config.Endowed.handsOver (endowed : Config.Endowed ⟨h, g⟩ id event)
    (traced : Traced (fun _ => True) printer) : h.HandsOver printer id event := by
  have cellular := endowed.cellular
  -- Where a run calls its entry point, the runner carries the event as before.
  have calling : ∀ (b : Build) commons threshold,
      Config.Endowed ⟨b.calling printer id commons threshold h, g⟩ id event ∧
      h.Since (b.calling printer id commons threshold h) := by
    intro b commons threshold
    have lead := leads_calling (g := g) (h := h) traced b id commons threshold
    exact ⟨lead.endowed endowed, lead.since cellular.sound⟩
  constructor
  case fits => exact endowed.fits
  case calls =>
    intro b r threshold u present announced still idle
    obtain ⟨⟨cellular', carries', -⟩, since⟩ := calling b r.commons threshold
    rw [announced] at cellular' carries' since
    obtain ⟨r', there⟩ := Option.isSome_iff_exists.1 still
    obtain ⟨environment, inst⟩ := since.runner present there
    obtain ⟨e, record, manned⟩ := cellular'.sound.manned cellular'.chained there
    obtain ⟨s, rests⟩ := Option.isSome_iff_exists.1 idle
    rw [← inst, Host.store?, manned.there, Option.bind_some] at rests
    have same := cellular'.event_eq carries' there manned.there rests manned.bound
    rw [exec_run b threshold present, announced, exec_bind, exec_runEntry manned,
      Environment.lengths_of_event same, environment]
    exact (exec_bind ..).symm
  case enters =>
    intro b r threshold u _ _ entry
    rw [(encodeCall_eq_ok_iff.1 entry.encoded).2]
    rfl
  case offers =>
    intro b r threshold u present announced still name args results entry n given w asks
    obtain ⟨⟨cellular', carries', -⟩, since⟩ := calling b r.commons threshold
    rw [announced] at cellular' carries' since
    obtain ⟨r', there⟩ := Option.isSome_iff_exists.1 still
    obtain ⟨environment, inst⟩ := since.runner present there
    have own := since.own cellular.chained present entry.bound
    obtain ⟨record, at_rest, idle, -⟩ := Host.callee_eq_ok entry.found
    rw [own, ← inst] at at_rest
    have bound : u.environments.get? r'.environment = some entry.env := by
      rw [environment]
      exact entry.bound
    have same := cellular'.event_eq carries' there at_rest idle bound
    obtain ⟨u', active, marked⟩ := entry.sees asks
    obtain ⟨first, second⟩ := marked.event
    have event : u'.event = forGuest event := (Prod.ext first second).trans same
    have stocked := (cellular'.stocked_of_asks entry asks).1
    exact handsOver_of_event printer active event endowed.fits fun i m => stocked.size_le
  case reaches =>
    intro b r threshold u present announced record m i at_rest loaded exported name args results entry
      n given w c asks reach
    obtain ⟨⟨cellular', -, -⟩, since⟩ := calling b r.commons threshold
    rw [announced] at cellular' since
    obtain ⟨stocked, record', m', there, loaded', valid, module⟩ := cellular'.stocked_of_asks entry asks
    rw [since.own cellular.chained present entry.bound] at there
    cases at_rest.symm.trans there
    cases loaded.symm.trans loaded'
    have declared : i < w.store.guest.module.memoryLimits.length := by
      rw [module]
      exact of_decide_eq_true (Wasm.Module.targetOk_of_isValid valid exported)
    obtain ⟨memory, there, -⟩ := stocked.exists_memory declared
    refine ⟨memory, Store.memory?_eq_some_iff.2 ⟨reach, ?_, there⟩⟩
    rw [Wasm.Guest.exportedMemory?, module, exported]

/-! ### Benchmarks -/

/-- A run of a build, as a benchmark makes it, leaves in hand what was. -/
theorem keeps_once (traced : Traced allowed printer) (b : Build) {c : Bench}
    (settling : Settling allowed h c.runner) : Keeps allowed (b.once printer c) ⟨h, g⟩ := by
  refine keeps_announced traced _ _ settling fun h settling => ?_
  cases b with
  | plain => exact keeps_runPlain traced settling
  | instrumented =>
    refine keeps_bind_since (keeps_runInstrumented traced settling _) fun outcome h since => ?_
    exact keeps_bind (keeps_resetRunner (settling.since since).lends) fun _ _ => keeps_pure _

omit [Holder σ] [Rule σ] in
/-- What is known of one run of a benchmark is what it does. -/
theorem Build.Runs.exec_once {b : Build} {c : Bench} {ended : Except Error Outcome} {t : Host σ}
    (runs : b.Runs printer c h ended t) : exec (b.once printer c) h = (ended, t) := by
  unfold once
  rw [exec_announced]
  cases runs with
  | returned ran => simp only [ran]
  | failed ran => simp only [ran]
  | reset ran reset =>
    simp only [exec_bind, ran, reset]
    rfl
  | stopped ran => simp only [exec_bind, ran]
  | unreset ran failed => simp only [exec_bind, ran, failed]

omit [Engine] [Holder σ] [Rule σ] in
/-- A runner that is there may be run, where everything is allowed. -/
theorem Config.Chained.settling (chained : Config.Chained ⟨h, g⟩) (old : id < h.runners.next) :
    Settling (fun _ => True) h id :=
  ⟨old, fun _ _ => trivial, fun _ _ => trivial, fun r present =>
    ⟨(chained.runners id r present).1, fun _ _ => trivial⟩⟩

/-- Nothing but changes lead from one run of a benchmark to another, by induction on the runs. -/
theorem leads_trail (traced : Traced (fun _ => True) printer) {b : Build} {c : Bench}
    {outcomes : List Outcome} {t : Host σ}
    (trail : Trail (fun h outcome u => b.Runs printer c h (.ok outcome) u) h outcomes t)
    (sound : Config.Sound ⟨h, g⟩) (settling : Settling (fun _ => True) h c.runner) :
    Leads (fun _ => True) ⟨h, g⟩ ⟨t, g⟩ := by
  induction trail with
  | nil => exact .refl
  | cons first _ ih =>
    have lead := (keeps_once (g := g) traced b settling).of_ok first.exec_once
    exact lead.trans (ih (lead.sound sound) (settling.since (lead.since sound)))

/-- Where a benchmark brings up a build: the plain one at its beginning, and the instrumented one when
the plain one has been run. -/
inductive BringsUp (printer : Printer σ) (x : Setting) (h : Host σ) : Build → Host σ → Prop
  | plain : BringsUp printer x h .plain h
  | instrumented {bytecode : Bytes} {outcomes : List Outcome} {t : Host σ}
      (goes : Build.plain.Goes printer x bytecode h outcomes none t) :
      BringsUp printer x h .instrumented t

section

variable (traced : Traced (fun _ => True) printer) {x : Setting} {b : Build} {t u v : Host σ}
include traced

/-- To bring up a guest leads on. -/
theorem BringsUp.leads (brings : BringsUp printer x h b t) (cellular : Config.Cellular ⟨h, g⟩) :
    Leads (fun _ => True) ⟨h, g⟩ ⟨t, g⟩ := by
  cases brings with
  | plain => exact .refl
  | instrumented goes =>
    cases goes with
    | completed created runs all =>
      obtain ⟨⟨r, _, present, -⟩, lead⟩ := (ends_createRunner traced (fun _ _ => trivial) _ _ _ _ _ _
        cellular.sound).of_ok created
      have cellular' := lead.cellular cellular
      have settling := cellular'.chained.settling (Pool.lt_next_of_get?_eq_some present)
      exact (lead.trans (leads_trail traced runs cellular'.sound settling)).trans (leads_dropRunner _)

/-- **Benchmarks.** The runs of a benchmark hand over the event of its settings. -/
theorem Config.Cellular.handsOver_benchmark (cellular : Config.Cellular ⟨h, g⟩)
    (bounded : Config.Bounded ⟨h, g⟩) (brings : BringsUp printer x h b t) {bytecode : Bytes}
    (created : exec (Build.bringUp printer x bytecode) t = (.ok id, u)) {outcomes : List Outcome}
    (trail : Trail (fun h outcome u => b.Runs printer (Build.bench x id) h (.ok outcome) u) u
      outcomes v) :
    (b.announce printer x.settings.commons v).HandsOver printer id
      (Bytes.ofText x.run.eventId, Bytes.ofText x.run.eventPayload) := by
  have lead := brings.leads traced cellular
  have endowed := (ends_createRunner_endowed traced _ _ _ _ _ _ (lead.cellular cellular)
    (lead.bounded cellular.sound bounded)).of_ok created
  have settling := endowed.cellular.chained.settling endowed.carries.old
  have ran := leads_trail traced trail endowed.cellular.sound settling
  have announced : Leads (fun _ => True) ⟨v, g.pin .runner id⟩
      ⟨b.announce printer x.settings.commons v, g.pin .runner id⟩ := traced _ _ _ _
  exact ((ran.trans announced).endowed endowed).handsOver traced

end

end

end Embedder
