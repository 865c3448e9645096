import Embedder.Proofs.Host.Standing
import Embedder.Session.Run

namespace Embedder

open Session (Step empty hookedPrinter runWith stepWith)

/-!
# Resets of counters

A reset puts two globals of the guest to zero, one after the other, and then clears what the host has
recorded of them. It is all or nothing, with one exception: where the counter can be set, but the
threshold is exported as a global that cannot, the counter is zero already when the reset fails.

* `Store.Zeroed`: a store in which exported counters are zero, and nothing else has changed.
* `Store.Halfway`: the exception.
* `Host.ResetsCounters`, `Host.ResetsRunner`, `resets_counters`: what a reset does.
-/

variable {σ : Type} {h : Host σ} {id : Nat} {s s' : Store} {name : String} {i : Nat}
  {declared : Wasm.GlobalType}

/-! ### Counters of a store -/

/-- The type of a counter: a number of 64 bits that changes. -/
def counterType : Wasm.GlobalType :=
  ⟨.i64, true⟩

/-- The host with another store of an instance. -/
def Host.setStore (h : Host σ) (id : Nat) (s : Store) : Host σ :=
  h.modifyInstance id fun i => { i with store := some s }

/-- A store in which the globals that are exported under some names are zero, and everything else is
as it was. -/
structure Store.Zeroed (names : List String) (s s' : Store) : Prop where
  rest : ∃ globals, globals.size = s.guest.globals.size ∧
    s' = { s with guest := { s.guest with globals } }
  zero : ∀ name ∈ names, ∀ i declared, s.guest.exportedGlobal? name = some (i, declared) →
    s'.guest.globals[i]? = some (.i64 0)
  others : ∀ i, (∀ name ∈ names, ∀ declared, s.guest.exportedGlobal? name ≠ some (i, declared)) →
    s'.guest.globals[i]? = s.guest.globals[i]?

/-- The counter can be set, but the threshold is exported as a global that is no counter, so that a
reset does not get past the first half. -/
def Store.Halfway (s : Store) : Prop :=
  (∃ i, s.guest.exportedGlobal? counterGlobal = some (i, counterType)) ∧
    ∃ i declared, s.guest.exportedGlobal? thresholdGlobal = some (i, declared) ∧
      declared ≠ counterType

/-- A store that is put in place is the one that is there. -/
theorem Host.store?_setStore (idle : h.store? id = some s) (s' : Store) :
    (h.setStore id s').store? id = some s' := by
  obtain ⟨i, there, -⟩ := Option.bind_eq_some_iff.1 idle
  rw [store?, setStore, instance?_modifyInstance, if_pos rfl, there]
  rfl

/-- Two changes of a store are one. -/
theorem Host.setStore_setStore (s s' : Store) : (h.setStore id s).setStore id s' = h.setStore id s' := by
  simp only [setStore, modifyInstance, Pool.modify_modify]
  rfl

/-- An exported global is one of the guest's. -/
theorem Wasm.Guest.lt_of_exportedGlobal? {g : Wasm.Guest Callback}
    (exported : g.exportedGlobal? name = some (i, declared)) : i < g.globals.size := by
  unfold exportedGlobal? at exported
  split at exported
  · split at exported
    case isTrue lt =>
      obtain ⟨_, -, eq⟩ := Option.map_eq_some_iff.1 exported
      cases eq
      exact lt
    case isFalse => cases exported
  · cases exported

namespace Store.Zeroed

variable {names : List String}

theorem none (s : Store) : Zeroed [] s s where
  rest := ⟨s.guest.globals, rfl, rfl⟩
  zero := nofun
  others _ _ := rfl

/-- What a guest exports does not depend on what its globals are. -/
theorem exportedGlobal? (zeroed : Zeroed names s s') (name : String) :
    s'.guest.exportedGlobal? name = s.guest.exportedGlobal? name := by
  obtain ⟨globals, size, rfl⟩ := zeroed.rest
  simp only [Wasm.Guest.exportedGlobal?, size]

/-- One more name, under which nothing is exported. -/
theorem absent (zeroed : Zeroed names s s') (absent : s.guest.exportedGlobal? name = .none) :
    Zeroed (name :: names) s s' where
  rest := zeroed.rest
  zero := by
    intro other member i declared exported
    rcases List.mem_cons.1 member with rfl | member
    · rw [absent] at exported
      cases exported
    · exact zeroed.zero other member i declared exported
  others i unnamed := zeroed.others i fun other member =>
    unnamed other (List.mem_cons_of_mem _ member)

/-- One more name, and the global that is exported under it is set to zero. -/
theorem set (zeroed : Zeroed names s s')
    (exported : s.guest.exportedGlobal? name = some (i, declared)) :
    Zeroed (name :: names) s { s' with guest := s'.guest.setGlobal i (.i64 0) } := by
  obtain ⟨globals, size, rfl⟩ := zeroed.rest
  have lt : i < globals.size := size ▸ Wasm.Guest.lt_of_exportedGlobal? exported
  constructor
  case rest =>
    exact ⟨globals.setIfInBounds i (.i64 0), by rw [Array.size_setIfInBounds, size], rfl⟩
  case zero =>
    intro other member j declared' exported'
    show (globals.setIfInBounds i (.i64 0))[j]? = _
    rw [Array.getElem?_setIfInBounds]
    by_cases same : i = j
    · rw [if_pos same, if_pos lt]
    · rw [if_neg same]
      -- A name stands for one global, so another global has another name.
      rcases List.mem_cons.1 member with rfl | member
      · rw [exported] at exported'
        cases exported'
        exact absurd rfl same
      · exact zeroed.zero other member j declared' exported'
  case others =>
    intro j unnamed
    have different : i ≠ j := by
      rintro rfl
      exact unnamed name List.mem_cons_self declared exported
    show (globals.setIfInBounds i (.i64 0))[j]? = _
    rw [Array.getElem?_setIfInBounds, if_neg different]
    exact zeroed.others j fun other member => unnamed other (List.mem_cons_of_mem _ member)

end Store.Zeroed

/-! ### Setting and reading one counter -/

section

variable (idle : h.store? id = some s)
include idle

/-- A global that is not exported is not found. -/
theorem exec_setGlobal_absent (absent : s.guest.exportedGlobal? name = none) (value : HostValue) :
    exec (HostM.setGlobal id name value) h = (.error (.notFound .global name), h) := by
  rw [HostM.setGlobal, exec_bind, exec_exportedGlobal idle, absent]

/-- A mutable global of the type of counters is set to zero. -/
theorem exec_setGlobal_counter (exported : s.guest.exportedGlobal? name = some (i, counterType)) :
    exec (HostM.setGlobal id name (.u64 0)) h =
      (.ok (), h.setStore id { s with guest := s.guest.setGlobal i (.i64 0) }) := by
  rw [HostM.setGlobal, exec_bind, exec_exportedGlobal idle, exported]
  rfl

/-- A global that is no counter is of another type, or does not change. -/
theorem exec_setGlobal_other (exported : s.guest.exportedGlobal? name = some (i, declared))
    (other : declared ≠ counterType) : ∃ expected found,
      exec (HostM.setGlobal id name (.u64 0)) h = (.error (.typeMismatch expected found), h) := by
  rw [HostM.setGlobal, exec_bind, exec_exportedGlobal idle, exported]
  dsimp only
  rw [exec_ofExcept_bind]
  obtain ⟨type, isMutable⟩ := declared
  cases type with
  | i64 =>
    cases isMutable with
    | true => exact absurd rfl other
    | false => exact ⟨_, _, rfl⟩
  | i32 => exact ⟨_, _, rfl⟩
  | f32 => exact ⟨_, _, rfl⟩
  | f64 => exact ⟨_, _, rfl⟩
  | v128 => exact ⟨_, _, rfl⟩
  | ref _ => exact ⟨_, _, rfl⟩

/-- Reading the counters depends on the store alone, and nothing happens to it. -/
theorem exec_readCounters : exec (HostM.readCounters id) h =
    match s.reading counterGlobal, s.reading thresholdGlobal with
    | .error e, _ => (.error e, h)
    | .ok counter, .ok threshold => (.ok ⟨counter, some threshold⟩, h)
    | .ok counter, .error e => (if e.isNotFound then .ok ⟨counter, none⟩ else .error e, h) := by
  rw [HostM.readCounters, exec_bind, HostM.readCounter, exec_getUInt64 idle]
  cases s.reading counterGlobal with
  | error e => rfl
  | ok counter =>
    dsimp only
    rw [exec_tryCatch, exec_bind, exec_getUInt64 idle]
    cases s.reading thresholdGlobal with
    | error e => cases found : e.isNotFound <;> simp only [found] <;> rfl
    | ok threshold => rfl

end

/-- Without a store at rest nothing can be done with a global. -/
theorem exec_setGlobal_of_none (away : h.store? id = none) (name : String) (value : HostValue) :
    ∃ e, exec (HostM.setGlobal id name value) h = (.error e, h) := by
  have fails : Ends (HostM.store id) h (fun _ _ => False) fun _ t => t = h := by
    rw [ends_store]
    refine ⟨fun i there s idle => ?_, fun _ _ _ => rfl, fun _ => rfl⟩
    rw [Host.store?, there, Option.bind_some, idle] at away
    cases away
  rcases ended : exec (HostM.store id) h with ⟨e | s, t⟩
  · cases fails.of_error ended
    exact ⟨e, by rw [HostM.setGlobal, exec_bind, HostM.exportedGlobal, exec_bind, ended]⟩
  · exact (fails.of_ok ended).elim

/-- Counters that have been put to zero are read as zero. -/
theorem Store.Zeroed.readCounters (zeroed : Zeroed [thresholdGlobal, counterGlobal] s s')
    (idle : h.store? id = some s')
    (counter : ∃ i, s.guest.exportedGlobal? counterGlobal = some (i, counterType))
    (threshold : ¬ s.Halfway) : exec (HostM.readCounters id) h =
      (.ok ⟨0, (s.guest.exportedGlobal? thresholdGlobal).map fun _ => 0⟩, h) := by
  have reading : ∀ name ∈ [thresholdGlobal, counterGlobal], ∀ i,
      s.guest.exportedGlobal? name = some (i, counterType) → s'.reading name = .ok 0 := by
    intro name member i exported
    unfold Store.reading
    rw [zeroed.exportedGlobal?, exported]
    dsimp only
    rw [zeroed.zero name member i counterType exported]
    rfl
  obtain ⟨i, exported⟩ := counter
  rw [exec_readCounters idle, reading counterGlobal (by simp) i exported]
  cases exported' : s.guest.exportedGlobal? thresholdGlobal with
  | none =>
    have missing : s'.reading thresholdGlobal = .error (.notFound .global thresholdGlobal) := by
      rw [Store.reading, zeroed.exportedGlobal?, exported']
    rw [missing]
    rfl
  | some found =>
    obtain ⟨j, declared⟩ := found
    -- A threshold of another type than the counter would have stopped the reset halfway.
    have same : declared = counterType := by
      by_contra other
      exact threshold ⟨⟨i, exported⟩, j, declared, exported', other⟩
    subst same
    rw [reading thresholdGlobal (by simp) j exported']
    rfl

/-! ### Resets -/

/-- What a reset of an instance's counters does. -/
structure Host.ResetsCounters (h : Host σ) (id : Nat) : Prop where
  /-- If it fails, nothing has changed, unless it stops halfway. -/
  failed : ∀ e t, exec (HostM.resetCounters id) h = (.error e, t) →
    (∀ s, h.store? id = some s → ¬ s.Halfway) → t = h
  /-- If it stops halfway, it fails, and the counter is zero; nothing else has changed. -/
  halfway : ∀ s, h.store? id = some s → s.Halfway → ∃ expected found s',
    exec (HostM.resetCounters id) h = (.error (.typeMismatch expected found), h.setStore id s') ∧
      Store.Zeroed [counterGlobal] s s'
  /-- It is done if the counter can be set, and the threshold, too, or there is none. -/
  succeeds : ∀ s i, h.store? id = some s →
    s.guest.exportedGlobal? counterGlobal = some (i, counterType) → ¬ s.Halfway →
      (exec (HostM.resetCounters id) h).1 = .ok ()
  /-- When it is done, both counters are zero and are read so; nothing else has changed. -/
  done : ∀ t, exec (HostM.resetCounters id) h = (.ok (), t) →
    ∃ s s', h.store? id = some s ∧ t = h.setStore id s' ∧
      Store.Zeroed [thresholdGlobal, counterGlobal] s s' ∧
      exec (HostM.readCounters id) t =
        (.ok ⟨0, (s.guest.exportedGlobal? thresholdGlobal).map fun _ => 0⟩, t)

/-- What a reset of a runner does. -/
structure Host.ResetsRunner (h : Host σ) (id : Nat) : Prop where
  /-- If it fails, nothing has changed, unless it stops halfway. -/
  failed : ∀ e t, exec (HostM.resetRunner id) h = (.error e, t) →
    (∀ r s, h.runners.get? id = some r → h.store? r.inst = some s → ¬ s.Halfway) → t = h
  /-- If it stops halfway, it fails, and the counter is zero. Nothing else has changed: what is recorded
  of the counter still stands. -/
  halfway : ∀ r s, h.runners.get? id = some r → h.store? r.inst = some s → s.Halfway →
    ∃ expected found s', exec (HostM.resetRunner id) h =
      (.error (.typeMismatch expected found), h.setStore r.inst s') ∧
        Store.Zeroed [counterGlobal] s s'
  /-- It is done if the counter can be set, and the threshold, too, or there is none. -/
  succeeds : ∀ r s i, h.runners.get? id = some r → h.store? r.inst = some s →
    s.guest.exportedGlobal? counterGlobal = some (i, counterType) → ¬ s.Halfway →
      (exec (HostM.resetRunner id) h).1 = .ok ()
  /-- When it is done, both counters are zero and are read so, and nothing is recorded of them any more,
  neither in the user data nor in the runner; nothing else has changed. -/
  done : ∀ t, exec (HostM.resetRunner id) h = (.ok (), t) →
    ∃ r s s', h.runners.get? id = some r ∧ h.store? r.inst = some s ∧
      Store.Zeroed [thresholdGlobal, counterGlobal] s s' ∧
      t = { h.setStore r.inst s' with
        environments := h.environments.modify r.environment fun e => { e with
          userData := { e.userData with instructionCount := 0, thresholdExceeded := false } }
        runners := h.runners.modify id fun r => { r with threshold := 0, counter := 0 } } ∧
      exec (HostM.readCounters r.inst) t =
        (.ok ⟨0, (s.guest.exportedGlobal? thresholdGlobal).map fun _ => 0⟩, t)

/-- The ways in which a reset of an instance's counters ends. -/
inductive Host.Resetting (h : Host σ) (id : Nat) : Except Error Unit → Host σ → Prop
  /-- The instance is not there or busy, or its counter cannot be set. -/
  | refused (e : Error)
      (barred : ∀ s i, h.store? id = some s →
        s.guest.exportedGlobal? counterGlobal ≠ some (i, counterType)) :
      Resetting h id (.error e) h
  /-- The counter has been set, but the threshold cannot be. -/
  | stopped {s s' : Store} (expected found : String) (idle : h.store? id = some s)
      (halfway : s.Halfway) (zeroed : Store.Zeroed [counterGlobal] s s') :
      Resetting h id (.error (.typeMismatch expected found)) (h.setStore id s')
  /-- The counter has been set, and the threshold, too, if there is one. -/
  | done {s s' : Store} (idle : h.store? id = some s)
      (counter : ∃ i, s.guest.exportedGlobal? counterGlobal = some (i, counterType))
      (whole : ¬ s.Halfway) (zeroed : Store.Zeroed [thresholdGlobal, counterGlobal] s s') :
      Resetting h id (.ok ()) (h.setStore id s')

/-- **Resets of an instance.** First the counter is set, then the threshold. -/
theorem resetting (h : Host σ) (id : Nat) :
    h.Resetting id (exec (HostM.resetCounters id) h).1 (exec (HostM.resetCounters id) h).2 := by
  cases idle : h.store? id with
  | none =>
    obtain ⟨e, failed⟩ := exec_setGlobal_of_none idle counterGlobal (.u64 0)
    rw [HostM.resetCounters, exec_bind, failed]
    refine .refused e fun s i idle' => ?_
    rw [idle] at idle'
    cases idle'
  | some s =>
    rcases exported : s.guest.exportedGlobal? counterGlobal with _ | ⟨i, declared⟩
    · rw [HostM.resetCounters, exec_bind, exec_setGlobal_absent idle exported]
      refine .refused _ fun s' i idle' => ?_
      cases idle.symm.trans idle'
      rw [exported]
      nofun
    by_cases counter : declared = counterType
    case neg =>
      obtain ⟨expected, found, failed⟩ := exec_setGlobal_other idle exported counter
      rw [HostM.resetCounters, exec_bind, failed]
      refine .refused _ fun s' j idle' exported' => ?_
      cases idle.symm.trans idle'
      cases exported.symm.trans exported'
      exact counter rfl
    subst counter
    have first := (Store.Zeroed.none s).set exported
    -- the second half starts from the store in which the counter is zero already
    have idle' := Host.store?_setStore idle { s with guest := s.guest.setGlobal i (.i64 0) }
    rw [HostM.resetCounters, exec_bind, exec_setGlobal_counter idle exported]
    dsimp only
    rw [exec_tryCatch]
    rcases threshold : s.guest.exportedGlobal? thresholdGlobal with _ | ⟨j, declared⟩
    · rw [exec_setGlobal_absent idle' ((first.exportedGlobal? _).trans threshold)]
      refine .done idle ⟨i, exported⟩ ?_ (first.absent threshold)
      rintro ⟨-, j, declared, exported', -⟩
      cases threshold.symm.trans exported'
    by_cases counter : declared = counterType
    case neg =>
      obtain ⟨expected, found, failed⟩ :=
        exec_setGlobal_other idle' ((first.exportedGlobal? _).trans threshold) counter
      rw [failed]
      exact .stopped expected found idle ⟨⟨i, exported⟩, j, declared, threshold, counter⟩ first
    subst counter
    rw [exec_setGlobal_counter idle' ((first.exportedGlobal? _).trans threshold),
      Host.setStore_setStore]
    refine .done idle ⟨i, exported⟩ ?_ (first.set threshold)
    rintro ⟨-, k, declared, exported', other⟩
    cases threshold.symm.trans exported'
    exact other rfl

/-- A reset of counters is read off the way in which it ends. -/
theorem resetsCounters (h : Host σ) (id : Nat) : h.ResetsCounters id := by
  -- What is said of a reset is read off the way it ended.
  have ends := resetting h id
  rcases ended : exec (HostM.resetCounters id) h with ⟨outcome, t⟩
  rw [ended] at ends
  constructor
  case failed =>
    intro e u failed whole
    cases ended.symm.trans failed
    cases ends with
    | refused => rfl
    | stopped _ _ idle halfway => exact absurd halfway (whole _ idle)
  case halfway =>
    intro s idle halfway
    cases ends with
    | refused _ barred =>
      obtain ⟨⟨i, exported⟩, -⟩ := halfway
      exact absurd exported (barred s i idle)
    | stopped expected found idle' _ zeroed =>
      cases idle.symm.trans idle'
      exact ⟨expected, found, _, ended, zeroed⟩
    | done idle' _ whole =>
      cases idle.symm.trans idle'
      exact absurd halfway whole
  case succeeds =>
    intro s i idle exported whole
    rw [ended]
    cases ends with
    | refused _ barred => exact absurd exported (barred s i idle)
    | stopped _ _ idle' halfway =>
      cases idle.symm.trans idle'
      exact absurd halfway whole
    | done => rfl
  case done =>
    intro u done
    cases ended.symm.trans done
    cases ends with
    | @done s s' idle counter whole zeroed =>
      exact ⟨s, s', idle, rfl, zeroed,
        zeroed.readCounters (Host.store?_setStore idle s') counter whole⟩

/-- A runner's reset is that of its instance, and then of what is recorded. -/
theorem exec_resetRunner (h : Host σ) (id : Nat) : exec (HostM.resetRunner id) h =
    match h.runners.get? id with
    | none => (.error .badHandle, h)
    | some r =>
      match exec (HostM.resetCounters r.inst) h with
      | (.error e, t) => (.error e, t)
      | (.ok (), t) => (.ok (), { t with
          environments := t.environments.modify r.environment fun e => { e with
            userData := { e.userData with instructionCount := 0, thresholdExceeded := false } }
          runners := t.runners.modify id fun r => { r with threshold := 0, counter := 0 } }) := by
  rw [HostM.resetRunner, exec_bind, exec_runner]
  cases h.runners.get? id with
  | none => rfl
  | some r =>
    have found : exec (HostM.ofOption .badHandle (some r) : HostM σ Runner) h = (.ok r, h) := rfl
    rw [found]
    dsimp only
    rw [exec_bind]
    rcases exec (HostM.resetCounters r.inst) h with ⟨e | ⟨⟩, t⟩ <;> rfl

/-- To reset a runner resets the counters first, and what is noted down only if that has
succeeded. -/
theorem resetsRunner (h : Host σ) (id : Nat) : h.ResetsRunner id := by
  have ran := exec_resetRunner h id
  cases present : h.runners.get? id with
  | none =>
    rw [present] at ran
    constructor
    case failed =>
      intro e t failed _
      cases ran.symm.trans failed
      rfl
    case halfway =>
      intro r s present'
      cases present.symm.trans present'
    case succeeds =>
      intro r s i present'
      cases present.symm.trans present'
    case done =>
      intro t done
      cases ran.symm.trans done
  | some r =>
    rw [present] at ran
    dsimp only at ran
    have resets := resetsCounters h r.inst
    constructor
    case failed =>
      intro e t failed whole
      rw [failed] at ran
      split at ran
      case h_1 e' t' failed' =>
        cases ran
        exact resets.failed e t failed' fun s idle => whole r s present idle
      case h_2 => cases ran
    case halfway =>
      intro r' s present' idle halfway
      cases present.symm.trans present'
      obtain ⟨expected, found, s', failed, zeroed⟩ := resets.halfway s idle halfway
      rw [failed] at ran
      exact ⟨expected, found, s', ran, zeroed⟩
    case succeeds =>
      intro r' s i present' idle exported whole
      cases present.symm.trans present'
      have first := resets.succeeds s i idle exported whole
      rw [ran]
      split
      case h_1 e t failed =>
        rw [failed] at first
        cases first
      case h_2 => rfl
    case done =>
      intro t done
      rw [done] at ran
      split at ran
      case h_1 => cases ran
      case h_2 t' done' =>
        cases ran
        have ends := resetting h r.inst
        rw [done'] at ends
        cases ends with
        | @done s s' idle counter whole zeroed =>
          -- what is recorded makes no difference to what is read
          exact ⟨r, s, s', present, idle, zeroed, rfl,
            zeroed.readCounters (Host.store?_setStore idle s') counter whole⟩

/-- **Resets are all or nothing, but for thresholds.** A reset of an instance's counters, or of a
runner, that fails has changed nothing at all, unless the counter can be set while the threshold is
exported as a global of another type or one that does not change. Then the counter is zero, and nothing
else has changed. A reset that is done leaves both counters at zero and nothing recorded of them, and
nothing else has changed. -/
theorem resets_counters (h : Host σ) (id : Nat) : h.ResetsCounters id ∧ h.ResetsRunner id :=
  ⟨resetsCounters h id, resetsRunner h id⟩

/-! ### A reset that stops halfway -/

/-- A program that counts, with a threshold that does not change: the counter is 12, the threshold 10. -/
def fixedThreshold : Bytes :=
  [0x00, 0x61, 0x73, 0x6d, 0x01, 0x00, 0x00, 0x00,
    -- two globals of 64 bits, of which the first one changes
    0x06, 0x0b, 0x02, 0x7e, 0x01, 0x42, 0x0c, 0x0b, 0x7e, 0x00, 0x42, 0x0a, 0x0b,
    -- the first one is exported as `sandbox_counter`
    0x07, 0x27, 0x02, 0x0f, 0x73, 0x61, 0x6e, 0x64, 0x62, 0x6f, 0x78, 0x5f, 0x63, 0x6f, 0x75, 0x6e,
    0x74, 0x65, 0x72, 0x03, 0x00,
    -- and the second one as `sandbox_threshold`
    0x11, 0x73, 0x61, 0x6e, 0x64, 0x62, 0x6f, 0x78, 0x5f, 0x74, 0x68, 0x72, 0x65, 0x73, 0x68, 0x6f,
    0x6c, 0x64, 0x03, 0x01]

/-- A runner of such a program. -/
def thresholdFixed : List Step :=
  [.createRuntime "rt" {} [] [] none [],
    .runtime "rt" (.createRunner "r" fixedThreshold [] [] ⟨1, 0⟩ 1)]

/-- The runner's reset fails, and yet the counter, which was 12, is zero afterwards. -/
theorem counter_zeroed_by_failed_reset :
    let s := (runWith hookedPrinter thresholdFixed empty).2
    let reset := exec (HostM.resetRunner 0) s
    (exec (HostM.readCounters 0) s).1.toOption = some ⟨12, some 10⟩ ∧ reset.1.toOption = none ∧
      (exec (HostM.readCounters 0) reset.2).1.toOption = some ⟨0, some 10⟩ := by
  decide +kernel

end Embedder
