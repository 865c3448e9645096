import Embedder.Proofs.Host.Operations

namespace Embedder

/-!
# What a runner is asked for, one after another

A runner is asked for runs and resets, in any order. As long as nobody else touches it, what is latched
is the first fault that one of the runs has failed with, and a run enters the guest exactly as long as
there is none.

* `Operation`, `operate`: operations one after another.
* `Host.Attends`: a runner between two operations, since the first one.
* `Host.Attends.run`, `Host.Attends.act`, `attends_operate`: a run, one operation, any number of them.
* `Host.Offers`, `Host.Enters`: entry points, and runs that enter the guest there.
* `Host.Follows`, `follows_of_attends`: what the next run finds and leaves behind.
-/

variable [Engine] {σ : Type} {printer : Printer σ} {quiet : Host σ → Prop} {id : Nat} {r : Runner}

/-! ### Operations -/

/-- What a runner is asked for. Plain builds have no threshold. -/
inductive Operation where
  | run (b : Build) (threshold : UInt64)
  | reset

/-- An operation of a runner. Only runs have outcomes. -/
def Operation.act (printer : Printer σ) (id : Nat) : Operation → HostM σ (Option Outcome)
  | run b threshold => some <$> b.run printer id threshold
  | reset => do
    HostM.resetRunner id
    pure none

/-- Operations of a runner one after another, whatever they are answered. -/
def operate (printer : Printer σ) (id : Nat) :
    List Operation → Host σ → List (Except Error (Option Outcome)) × Host σ
  | [], h => ([], h)
  | op :: ops, h =>
    let (answer, h) := exec (op.act printer id) h
    let (answers, h) := operate printer id ops h
    (answer :: answers, h)

/-- The fault that an answer reports. -/
def answerFault? : Except Error (Option Outcome) → Option Fault
  | .ok _ => none
  | .error error => error.fault?

/-- The first fault that is reported. -/
def firstFault (answers : List (Except Error (Option Outcome))) : Option Fault :=
  answers.findSome? answerFault?

omit [Engine] in
theorem firstFault_cons (answer : Except Error (Option Outcome))
    (answers : List (Except Error (Option Outcome))) :
    firstFault (answer :: answers) = (answerFault? answer).or (firstFault answers) := by
  rw [firstFault, List.findSome?_cons]
  cases answerFault? answer <;> rfl

/-! ### Between operations -/

section

variable [Holder σ] [Rule σ] {h t : Host σ} {g : Pending} {latch : Option Fault}

/-- A runner waits for what it is asked for next, after all that has happened since the first
operation. What is latched is not the end that a guest was meant to have. -/
structure Host.Attends (h t : Host σ) (g : Pending) (quiet : Host σ → Prop) (id : Nat) (r : Runner)
    (latch : Option Fault) : Prop where
  lead : Leads (fun _ => True) ⟨h, g⟩ ⟨t, g⟩
  waits : t.Waits quiet id r latch
  failed : ∀ fault, latch = some fault → fault.kind.isHalt = false

/-- Whatever a run does, it leaves in hand what was. -/
theorem keeps_run (traced : Traced (fun _ => True) printer) (proper : Config.Proper ⟨h, g⟩)
    {r : Runner} (present : h.runners.get? id = some r) (b : Build) (threshold : UInt64) :
    Keeps (fun _ => True) (b.run printer id threshold) ⟨h, g⟩ := by
  have settling : Settling (fun _ => True) h id := by
    refine ⟨Pool.lt_next_of_get?_eq_some present, fun _ _ => trivial, fun _ _ => trivial, ?_⟩
    exact fun r present => ⟨(proper.chained.runners id r present).1, fun _ _ => trivial⟩
  cases b with
  | plain => exact keeps_runPlain traced settling
  | instrumented => exact keeps_runInstrumented traced settling threshold

variable (traced : Traced (fun _ => True) printer)
  (discreet : Discreet printer quiet id r.environment r.inst) (proper : Config.Proper ⟨h, g⟩)
  (sandboxed : h.Sandboxed r.inst) (old : r.inst < h.instances.next)
  (attends : h.Attends t g quiet id r latch)

namespace Host.Attends

include proper sandboxed old attends in
omit [Engine] in
/-- The guest of a runner that waits imports the guest interface alone. -/
theorem guest_sandboxed {r' : Runner} {e : Environment} {s : Store} (stands : t.Stands id r' e s)
    (own : r'.inst = r.inst) : s.guest.Sandboxed := by
  have proper' := attends.lead.proper proper
  have sandboxed' := sandboxed.since (attends.lead.since proper.sound) proper.chained old
  obtain ⟨i, manned, idle⟩ := stands.manned
  exact proper'.linked.sandboxed proper'.sound (own ▸ manned.there) idle sandboxed'

include traced discreet proper sandboxed old attends

/-- **Runs.** A run goes through only if nothing is latched, and leaves nothing latched then; a run that
fails with a fault leaves that one latched, if there was none before. -/
theorem run (b : Build) (threshold : UInt64) :
    Ends (b.run printer id threshold) t
      (fun outcome u => latch = none ∧ h.Attends u g quiet id r none ∧
        u.BearsOut id r.environment r.inst b threshold outcome)
      fun error u => h.Attends u g quiet id r (latch.or error.fault?) ∧ error.isHalt = false := by
  have proper' := attends.lead.proper proper
  obtain ⟨calm, told, counter, e, s, stands, latched⟩ := attends.waits
  have sandboxed' := attends.guest_sandboxed proper sandboxed old stands rfl
  have kept := keeps_run traced proper' stands.present b threshold
  -- With nothing latched, the run may enter the guest; otherwise it is refused before that.
  cases latch with
  | none =>
    have ends : Ends (b.run printer id threshold) t
        (fun outcome u => u.Waits quiet id r none ∧
          u.BearsOut id r.environment r.inst b threshold outcome)
        fun error u => u.Waits quiet id r error.fault? ∧ error.isHalt = false :=
      ends_run_calm (r := { r with threshold := told, counter }) discreet traced proper' stands calm
        sandboxed' latched b threshold
    refine (ends.and kept).mono ?_ ?_
    · rintro outcome u ⟨⟨waits, counts⟩, lead⟩
      exact ⟨rfl, ⟨attends.lead.trans lead, waits, nofun⟩, counts⟩
    · rintro error u ⟨⟨waits, failure⟩, lead⟩
      refine ⟨⟨attends.lead.trans lead, waits, fun fault reported => ?_⟩, failure⟩
      rw [Option.none_or] at reported
      rwa [Error.isHalt, ← error.map_fault?, reported] at failure
  | some fault =>
    have barred : exec (b.run printer id threshold) t =
        (.error (t.refusal r.inst b.main fault), b.calling printer id r.commons threshold t) :=
      exec_run_barred (r := { r with threshold := told, counter }) discreet stands calm latched
        (attends.failed fault rfl) b threshold
    obtain ⟨calm', stands'⟩ :=
      stands_calling (r := { r with threshold := told, counter }) discreet stands calm b threshold
    unfold Ends
    rw [barred]
    refine ⟨⟨attends.lead.trans (leads_calling traced b id r.commons threshold), ?_, attends.failed⟩,
      ?_⟩
    · rw [Option.some_or, ← latched]
      exact stands'.waits calm'
    · unfold Host.refusal
      split
      · exact attends.failed fault rfl
      · rfl

/-- **Operations.** An operation leaves latched what was latched, or else the fault that it reports. -/
theorem act (op : Operation) :
    h.Attends (exec (op.act printer id) t).2 g quiet id r
      (latch.or (answerFault? (exec (op.act printer id) t).1)) := by
  -- Whatever it is answered, the runner waits with the fault of the answer.
  suffices ends : Ends (op.act printer id) t (fun _ u => h.Attends u g quiet id r latch)
      fun error u => h.Attends u g quiet id r (latch.or error.fault?) by
    unfold Ends at ends
    generalize exec (op.act printer id) t = answered at ends
    rcases answered with ⟨error | outcome, u⟩
    · exact ends
    · rwa [answerFault?, Option.or_none]
  cases op with
  | run b threshold =>
    unfold Operation.act
    rw [ends_map]
    refine (attends.run traced discreet proper sandboxed old b threshold).mono ?_ ?_
    · rintro outcome u ⟨rfl, attends, -⟩
      exact attends
    · exact fun _ _ failed => failed.1
  | reset =>
    have kept : Keeps (fun _ => True) (HostM.resetRunner id) ⟨t, g⟩ :=
      keeps_resetRunner fun _ _ => trivial
    refine ends_bind (((waits_resetRunner discreet attends.waits).and kept).mono (fun _ _ done => done)
      ?_) ?_
    · rintro error u ⟨⟨waits, none⟩, lead⟩
      rw [Error.fault?_eq_none none, Option.or_none]
      exact ⟨attends.lead.trans lead, waits, attends.failed⟩
    · rintro _ u ⟨waits, lead⟩
      exact ⟨attends.lead.trans lead, waits, attends.failed⟩

end Host.Attends

include traced discreet proper sandboxed old in
/-- **Operations one after another.** What is latched in the end is what was latched before, or else the
first fault that is reported. -/
theorem attends_operate (ops : List Operation) (attends : h.Attends t g quiet id r latch) :
    h.Attends (operate printer id ops t).2 g quiet id r
      (latch.or (firstFault (operate printer id ops t).1)) := by
  induction ops generalizing t latch with
  | nil => rwa [operate, firstFault, List.findSome?_nil, Option.or_none]
  | cons op ops ih =>
    -- What is latched after the first operation is where the others start from.
    have first := attends.act traced discreet proper sandboxed old op
    rw [operate]
    dsimp only
    rw [firstFault_cons, ← Option.or_assoc]
    exact ih first

end

/-! ### Entry points -/

section

variable {h t : Host σ} {s s' : Store} {b : Build} {threshold : UInt64} {e : Environment}

/-- What the entry point of a build takes, and what it gives. -/
def Build.type : Build → Wasm.FuncType
  | plain => ⟨[.i32, .i32], [.i32]⟩
  | instrumented => ⟨[.i32, .i32, .i64], [.i32]⟩

/-- A guest exports the entry point of a build, as a function of the type that a run calls. -/
def Store.Offers (s : Store) (b : Build) : Prop :=
  ∃ function, s.guest.exportedFunc? b.main = some function ∧
    (s.guest.funcs[function]?).map Wasm.Func.type = some b.type

/-- The guest of an instance at rest offers the entry point of a build. -/
def Host.Offers (h : Host σ) (inst : Nat) (b : Build) : Prop :=
  ∃ s, h.store? inst = some s ∧ s.Offers b

omit [Engine] in
theorem Store.SameProgram.offers_iff (program : s.SameProgram s') : s'.Offers b ↔ s.Offers b := by
  unfold Offers Wasm.Guest.exportedFunc?
  rw [program.module, program.funcs]

omit [Engine] in
/-- The call of a run fits the entry point of its build, and nothing else. -/
theorem Build.fits_iff {type : Wasm.FuncType} :
    Fits type (e.lengths ++ b.more threshold) [.i32] ↔ type = b.type := by
  obtain ⟨params, results⟩ := type
  rw [Embedder.fits_iff]
  cases b <;> simp [Environment.lengths, more, Build.type, HostValue.valType, HostType.valType,
    HostValue.encode, Wire.kind, HostType.kind, NumType.toValType]

/-- A run enters the guest, and all that follows is what becomes of how the guest ends. -/
def Host.Enters (h : Host σ) (printer : Printer σ) (id : Nat) (r : Runner) (b : Build)
    (threshold : UInt64) : Prop :=
  ∃ e, h.environments.get? r.environment = some e ∧
    ∃ entry : Entry (b.calling printer id r.commons threshold h) r.environment b.main
        (e.lengths ++ b.more threshold) [.i32],
      exec (b.run printer id threshold) h =
        exec (HostM.settle id (entry.outcome printer).1 >>= b.closing printer id r threshold)
          (entry.outcome printer).2

omit [Engine] in
/-- A guest that a run enters offers the entry point, and has nothing latched. -/
theorem offers_of_entry {inst : Nat} (bound : h.environments.get? r.environment = some e)
    (own : e.inst = inst) (idle : h.store? inst = some s)
    (entry : Entry h r.environment b.main (e.lengths ++ b.more threshold) [.i32]) :
    s.latch = none ∧ s.Offers b := by
  obtain ⟨_, -, -, clear, -⟩ := Host.callee_eq_ok entry.found
  obtain ⟨exported, typed⟩ := Host.declared_of_callee entry.found
  cases entry.store_of_idle bound own idle
  have type := Build.fits_iff.1 (encodeCall_eq_ok_iff.1 entry.encoded).1
  exact ⟨clear, _, exported, type ▸ typed⟩

omit [Engine] in
/-- A guest that offers the entry point, and has nothing latched, can be entered. -/
theorem exists_entry_of_offers {inst : Nat} (bound : h.environments.get? r.environment = some e)
    (own : e.inst = inst) (idle : h.store? inst = some s) (clear : s.latch = none)
    (offers : s.Offers b) :
    Nonempty (Entry h r.environment b.main (e.lengths ++ b.more threshold) [.i32]) := by
  obtain ⟨i, there, free⟩ := Option.bind_eq_some_iff.1 idle
  obtain ⟨function, exported, typed⟩ := offers
  have admitted : i.Admits b.main (e.lengths ++ b.more threshold) [.i32] :=
    .intro free exported typed clear (Build.fits_iff.2 rfl)
  obtain ⟨entry, -⟩ := admitted.exists_entry (v := .ofEnvironment r.environment) bound
    (own ▸ there)
  exact ⟨entry⟩

/-- **Entering runs.** A run enters the guest if and only if the guest offers the entry point and has
nothing latched. -/
theorem enters_iff (discreet : Discreet printer quiet id r.environment r.inst) (calm : quiet h)
    (stands : h.Stands id r e s) (b : Build) (threshold : UInt64) :
    h.Enters printer id r b threshold ↔ s.latch = none ∧ s.Offers b := by
  obtain ⟨-, stands'⟩ := stands_calling discreet stands calm b threshold
  have bound := stands'.bound
  have idle := stands'.idle
  rw [Build.told_environment] at bound
  rw [Build.told_inst] at idle
  constructor
  · rintro ⟨e', bound', entry, -⟩
    cases stands.bound.symm.trans bound'
    exact offers_of_entry bound stands.own idle entry
  · rintro ⟨clear, offers⟩
    -- The other way round: a call that nothing refuses is an entry, and the run is this call.
    have entries : Nonempty (Entry (b.calling printer id r.commons threshold h) r.environment b.main
        (e.lengths ++ b.more threshold) [.i32]) :=
      exists_entry_of_offers bound stands.own idle clear offers
    obtain ⟨entry⟩ := entries
    refine ⟨e, stands.bound, entry, ?_⟩
    obtain ⟨i, manned, -⟩ := stands'.manned
    obtain ⟨-, answer, landed⟩ := Entry.call_ran (v := .ofEnvironment r.environment) entry
    have runs : exec (HostM.runEntry printer id b.main (b.more threshold)) _ = _ :=
      exec_runEntry manned b.main (b.more threshold)
    rw [Build.told_environment, answer, landed] at runs
    rw [exec_run b threshold stands.present, exec_bind, runs, exec_bind]
    rfl

end

/-! ### What the next run finds -/

/-- What the next run finds when a runner waits, and what it leaves behind. The runner has waited in
`h`, with nothing latched, and waits in `t` now. -/
structure Host.Follows (printer : Printer σ) (h t : Host σ) (id : Nat) (r : Runner)
    (latch : Option Fault) : Prop where
  latched : t.latch? r.inst = some latch
  /-- What is latched is a trap, or a failure of the host's. -/
  kinds : ∀ fault, latch = some fault → fault.kind = .trap ∨ fault.kind = .hostFailure
  /-- The run enters the guest exactly if nothing is latched and the entry point is there. -/
  enters : ∀ b threshold, t.Enters printer id r b threshold ↔ latch = none ∧ h.Offers r.inst b
  /-- If it has an outcome, nothing is latched after it, and so runs enter the guest again. -/
  settled : ∀ (b : Build) threshold outcome u,
    exec (b.run printer id threshold) t = (.ok outcome, u) → u.latch? r.inst = some none ∧
      ∀ b' threshold', u.Enters printer id r b' threshold' ↔ h.Offers r.inst b'
  /-- If the guest was ended at its threshold, this is the threshold of the run, and the counter is
  what the runner, its environment and the guest say. -/
  exceeded : ∀ threshold counter told u,
    exec (Build.instrumented.run printer id threshold) t =
      (.ok (.thresholdExceeded counter told), u) →
        told = threshold ∧ u.Concurs id r.environment r.inst counter
  /-- If it fails with a fault, this is a trap, or a failure of the host's, and it is latched unless
  another one was before. -/
  failed : ∀ (b : Build) threshold fault u,
    exec (b.run printer id threshold) t = (.error (.guestTrap fault), u) →
      (fault.kind = .trap ∨ fault.kind = .hostFailure) ∧
        u.latch? r.inst = some (latch.or (some fault))
  /-- If a fault is latched, no call of the entry point enters a guest. The run fails with a fault of
  the same kind, or because the entry point is not there, and changes nothing once it is announced. -/
  barred : ∀ (b : Build) threshold fault, latch = some fault →
    (∀ args results, IsEmpty (Entry (b.calling printer id r.commons threshold t) r.environment b.main
      args results)) ∧
    exec (b.run printer id threshold) t =
      (.error (h.refusal r.inst b.main fault), b.calling printer id r.commons threshold t)

omit [Engine] in
theorem FaultKind.eq_of_not_halt {kind : FaultKind} (failure : kind.isHalt = false) :
    kind = .trap ∨ kind = .hostFailure := by
  cases kind with
  | trap => exact .inl rfl
  | hostFailure => exact .inr rfl
  | _ => cases failure

section

variable [Holder σ] [Rule σ] {h t : Host σ} {g : Pending} {latch : Option Fault} {s : Store}

omit [Engine] [Holder σ] [Rule σ] in
theorem Host.Waits.latch? (waits : t.Waits quiet id r latch) : t.latch? r.inst = some latch := by
  obtain ⟨_, threshold, counter, _, _, stands, rfl⟩ := waits
  exact Host.Stands.latch? (r := { r with threshold, counter }) stands

variable (traced : Traced (fun _ => True) printer)
  (discreet : Discreet printer quiet id r.environment r.inst) (proper : Config.Proper ⟨h, g⟩)
  (sandboxed : h.Sandboxed r.inst) (idle : h.store? r.inst = some s)
include discreet proper idle

/-- The program of a runner that waits is the one that it had from the start. -/
theorem Host.Attends.enters_iff (attends : h.Attends t g quiet id r latch) (b : Build)
    (threshold : UInt64) :
    t.Enters printer id r b threshold ↔ latch = none ∧ h.Offers r.inst b := by
  obtain ⟨calm, told, counter, e, s', stands, rfl⟩ := attends.waits
  have program : s.SameProgram s' := attends.lead.sameProgram proper.sound idle stands.idle
  have offers : h.Offers r.inst b ↔ s.Offers b := by
    unfold Offers
    rw [idle]
    simp only [Option.some.injEq, exists_eq_left']
  have enters : t.Enters printer id r b threshold ↔ s'.latch = none ∧ s'.Offers b :=
    Embedder.enters_iff (r := { r with threshold := told, counter }) discreet calm stands b threshold
  rw [enters, offers, program.offers_iff]

/-- While a fault is latched, runs enter no guest, and are refused. -/
theorem Host.Attends.barred {fault : Fault} (attends : h.Attends t g quiet id r (some fault))
    (b : Build) (threshold : UInt64) :
    (∀ args results, IsEmpty (Entry (b.calling printer id r.commons threshold t) r.environment b.main
      args results)) ∧
    exec (b.run printer id threshold) t =
      (.error (h.refusal r.inst b.main fault), b.calling printer id r.commons threshold t) := by
  obtain ⟨calm, told, counter, e, s', stands, latched⟩ := attends.waits
  obtain ⟨calm', stands'⟩ :=
    stands_calling (r := { r with threshold := told, counter }) discreet stands calm b threshold
  constructor
  · intro args results
    have pending := stands'.latch?
    have bound := stands'.bound
    rw [Build.told_inst, latched] at pending
    rw [Build.told_environment] at bound
    -- What comes before the call is an announcement and a new threshold, which leave alone what
    -- is latched.
    refine Host.isEmpty_entry_pending pending fun e' bound' => ?_
    cases bound.symm.trans bound'
    exact stands.own
  · have refused : exec (b.run printer id threshold) t =
        (.error (t.refusal r.inst b.main fault), b.calling printer id r.commons threshold t) :=
      exec_run_barred (r := { r with threshold := told, counter }) discreet stands calm latched
        (attends.failed fault rfl) b threshold
    have before : h.latch? r.inst = some s.latch := by rw [h.latch?_eq, idle, Option.map_some]
    have exports := attends.lead.exportsFunc proper.sound before attends.waits.latch? b.main
    rw [refused, refusal, refusal, exports]

include traced sandboxed

/-- **The next run.** What a run finds when a runner waits, and what it leaves behind, depends on what is
latched, and on the program that the runner has had from the start. -/
theorem follows_of_attends (attends : h.Attends t g quiet id r latch) :
    h.Follows printer t id r latch := by
  have old : r.inst < h.instances.next := by
    obtain ⟨i, there, -⟩ := Option.bind_eq_some_iff.1 idle
    obtain ⟨c, hc, -⟩ := Option.map_eq_some_iff.1 there
    exact Pool.lt_next_of_get?_eq_some hc
  have runs := attends.run traced discreet proper sandboxed old
  refine ⟨attends.waits.latch?, fun fault latched => FaultKind.eq_of_not_halt
    (attends.failed fault latched), attends.enters_iff discreet proper idle, ?_, ?_, ?_, ?_⟩
  · intro b threshold outcome u ran
    obtain ⟨-, attends', -⟩ := (runs b threshold).of_ok ran
    refine ⟨attends'.waits.latch?, fun b' threshold' => ?_⟩
    rw [attends'.enters_iff discreet proper idle, eq_self, true_and]
  · intro threshold counter told u ran
    obtain ⟨-, -, counts⟩ := (runs .instrumented threshold).of_ok ran
    exact counts rfl counter told rfl
  · intro b threshold fault u ran
    obtain ⟨attends', failure⟩ := (runs b threshold).of_error ran
    exact ⟨FaultKind.eq_of_not_halt failure, attends'.waits.latch?⟩
  · rintro b threshold fault rfl
    exact attends.barred discreet proper idle b threshold

end

end Embedder
