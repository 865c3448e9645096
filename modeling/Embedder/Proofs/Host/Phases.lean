import Embedder.Proofs.Host.Admission

namespace Embedder

/-!
# The phases of an invoker

An invoker goes through the same phases for every call that ends alike, whatever it has called
before: from being ready it is turned down, or fails to encode, or runs the guest, which is unwound or
returns. Each of these ways consists of legal changes only, and one of them ends faulted.

* `Invoker.Course`, `exists_course`: the ways of a call, and that it goes one of them.
* `Invoker.Lawful`, `Invoker.Lawful.foldl_advance`: phases that follow each other as they may.
* `Invoker.Turn`, `Invoker.Turn.take`: what happens to an invoker and its host, one after another.
* `Invoker.Phased`, `phased_run`: what holds of every invoker that is reached.
-/

variable {σ : Type} {printer : Printer σ} {h : Host σ} {v : Invoker} {name : String}
  {args : List HostValue} {results : List HostType}

/-! ### The way of a call -/

/-- The phases that a call goes through once its invoker is ready, the first one first, with what it
is told and the host as it leaves it. -/
inductive Invoker.Course [Engine] (printer : Printer σ) (h : Host σ) (environment : Nat)
    (name : String) (args : List HostValue) (results : List HostType) :
    List Phase → Except Error (List HostValue) → Host σ → Prop
  /-- There is no function to enter. -/
  | refused (error : Error) (barred : IsEmpty (Entry h environment name args results)) :
      Course printer h environment name args results [] (.error error) h
  /-- The arguments cannot be encoded. -/
  | unencoded (error : Error) (barred : IsEmpty (Entry h environment name args results)) :
      Course printer h environment name args results [.encoding, .idle] (.error error) h
  /-- The guest runs and is unwound. -/
  | unwound (entry : Entry h environment name args results) {cause : String} {after : Flight σ}
      (ran : entry.run printer = (.error cause, after)) :
      Course printer h environment name args results [.encoding, .invoking, .faulted]
        (entry.outcome printer).1 (entry.outcome printer).2
  /-- The guest runs and returns, whether its results can be decoded or not. -/
  | returned (entry : Entry h environment name args results) {values : List Wasm.Value}
      {after : Flight σ} (ran : entry.run printer = (.ok values, after)) :
      Course printer h environment name args results [.encoding, .invoking, .decoding, .idle]
        (entry.outcome printer).1 (entry.outcome printer).2

/-- A call enters its guest in one way, if at all. -/
instance Entry.subsingleton (environment : Nat) :
    Subsingleton (Entry h environment name args results) where
  allEq := by
    rintro ⟨env, callee, params, bound, found, encoded⟩
      ⟨env', callee', params', bound', found', encoded'⟩
    cases bound.symm.trans bound'
    cases found.symm.trans found'
    cases encoded.symm.trans encoded'
    rfl

/-- The phases of a call that enters its guest. -/
theorem Entry.call_phases [Engine] (entry : Entry h v.environment name args results) :
    (v.call printer name args results h).2.1 =
      match (entry.run printer).1 with
      | .error _ => [Phase.encoding, .invoking, .faulted].foldl Invoker.advance v.ready
      | .ok _ => [Phase.encoding, .invoking, .decoding, .idle].foldl Invoker.advance v.ready := by
  have run : entry.run printer = (FlightM.enter printer entry.callee.caller entry.callee.room
    entry.callee.function entry.params).run.run ⟨entry.callee.store.lend v.environment
      entry.env.userData, h.beginCall entry.callee.caller.inst v.environment⟩ := rfl
  unfold Invoker.call
  simp only [Invoker.environment_ready, Invoker.environment_advance, entry.bound, entry.found,
    entry.encoded, Host.invoke, ← run]
  rcases entry.run printer with ⟨cause | values, after⟩ <;> rfl

/-- A call that enters its guest goes the way of its run. -/
theorem Entry.exists_course [Engine] (environment : Nat)
    (entry : Entry h environment name args results) :
    ∃ phases answer after,
      Invoker.Course printer h environment name args results phases answer after ∧
      ∀ v : Invoker, v.environment = environment → v.call printer name args results h =
        (answer, phases.foldl Invoker.advance v.ready, after) := by
  rcases ran : entry.run printer with ⟨cause | values, after⟩
  · refine ⟨_, _, _, .unwound entry ran, ?_⟩
    rintro v rfl
    exact Prod.ext entry.call_ran.2.1
      (Prod.ext (by rw [entry.call_phases, ran]) entry.call_ran.2.2)
  · refine ⟨_, _, _, .returned entry ran, ?_⟩
    rintro v rfl
    exact Prod.ext entry.call_ran.2.1
      (Prod.ext (by rw [entry.call_phases, ran]) entry.call_ran.2.2)

/-- **The way of a call.** Which way a call goes, what it is told and what it leaves depend on the
environment, the host and the call, and on nothing else that the invoker has been through. -/
theorem exists_course [Engine] (printer : Printer σ) (h : Host σ) (environment : Nat) (name : String)
    (args : List HostValue) (results : List HostType) :
    ∃ phases answer after,
      Invoker.Course printer h environment name args results phases answer after ∧
      ∀ v : Invoker, v.environment = environment → v.call printer name args results h =
        (answer, phases.foldl Invoker.advance v.ready, after) := by
  -- What a call needs is looked up in this order, and the first thing that is missing ends it.
  cases bound : h.environments.get? environment with
  | none =>
    refine ⟨_, _, _, .refused .badHandle ⟨fun entry => ?_⟩, ?_⟩
    · cases bound.symm.trans entry.bound
    · rintro v rfl
      unfold Invoker.call
      simp only [Invoker.environment_ready, bound, List.foldl_nil]
  | some e =>
    cases found : h.callee e.inst name with
    | error error =>
      refine ⟨_, _, _, .refused error ⟨fun entry => ?_⟩, ?_⟩
      · cases bound.symm.trans entry.bound
        cases found.symm.trans entry.found
      · rintro v rfl
        exact Invoker.call_refused bound found
    | ok callee =>
      cases encoded : encodeCall callee.type args results with
      | error error =>
        refine ⟨_, _, _, .unencoded error ⟨fun entry => ?_⟩, ?_⟩
        · cases bound.symm.trans entry.bound
          cases found.symm.trans entry.found
          cases encoded.symm.trans entry.encoded
        · rintro v rfl
          unfold Invoker.call
          simp only [Invoker.environment_ready, bound, found, encoded, List.foldl_cons, List.foldl_nil]
      | ok params => exact Entry.exists_course environment ⟨e, callee, params, bound, found, encoded⟩

/-! ### Legal changes -/

namespace Invoker

/-- Whether an invoker began idle and came to where it is by legal changes only. -/
structure Lawful (v : Invoker) : Prop where
  begins : v.trail.getLast? = some .idle
  legal : v.trail.IsChain fun later earlier => earlier.mayPrecede later = true

/-- A new invoker is idle, which is lawful. -/
theorem lawful_ofEnvironment (environment : Nat) : (ofEnvironment environment).Lawful :=
  ⟨rfl, .singleton _⟩

/-- A lawful transition keeps an invoker lawful. -/
theorem Lawful.advance (lawful : v.Lawful) {next : Phase} (may : v.phase.mayPrecede next) :
    (v.advance next).Lawful where
  begins := by
    rw [trail_advance, trail, List.getLast?_cons_cons]
    exact lawful.begins
  legal := lawful.legal.cons_cons may

/-- Phases that follow each other as they may, from where an invoker is, keep it lawful. -/
theorem Lawful.foldl_advance (lawful : v.Lawful) {phases : List Phase}
    (legal : (v.phase :: phases).IsChain fun earlier later => earlier.mayPrecede later = true) :
    (phases.foldl Invoker.advance v).Lawful := by
  induction phases generalizing v with
  | nil => exact lawful
  | cons next phases ih =>
    obtain ⟨may, rest⟩ := List.isChain_cons_cons.1 legal
    exact ih (lawful.advance may) rest

/-- The trail of an invoker grows with every phase that it enters. -/
theorem trail_foldl_advance (phases : List Phase) :
    (phases.foldl Invoker.advance v).trail = phases.reverse ++ v.trail := by
  induction phases generalizing v with
  | nil => rfl
  | cons next phases ih =>
    rw [List.foldl_cons, ih, trail_advance, List.reverse_cons, List.append_assoc,
      List.singleton_append]

/-- The phases of a call follow each other as they may, from being ready. -/
theorem Course.legal [Engine] {environment : Nat} {phases : List Phase}
    {answer : Except Error (List HostValue)} {after : Host σ}
    (course : Course printer h environment name args results phases answer after) :
    (Phase.idle :: phases).IsChain fun earlier later => earlier.mayPrecede later = true := by
  cases course <;> decide

/-- The phase of an invoker is the last one that it has entered. -/
theorem phase_foldl_advance (phases : List Phase) :
    (v.phase :: phases).getLast? = some (phases.foldl Invoker.advance v).phase := by
  induction phases generalizing v with
  | nil => rfl
  | cons next phases ih =>
    rw [List.getLast?_cons_cons]
    exact ih (v := v.advance next)

/-- The guest of a call runs and is unwound. -/
def Unwinds [Engine] (printer : Printer σ) (v : Invoker) (name : String) (args : List HostValue)
    (results : List HostType) (h : Host σ) : Prop :=
  ∃ (entry : Entry h v.environment name args results) (cause : String),
    (entry.run printer).1 = .error cause

/-- The last phase of a call tells whether its guest was unwound. -/
theorem Course.getLast [Engine] {phases : List Phase} {answer : Except Error (List HostValue)}
    {after : Host σ}
    (course : Course printer h v.environment name args results phases answer after) :
    ((Phase.idle :: phases).getLast? = some .faulted ∧ v.Unwinds printer name args results h) ∨
      ((Phase.idle :: phases).getLast? = some .idle ∧ ¬ v.Unwinds printer name args results h) := by
  cases course with
  | refused error barred => exact .inr ⟨rfl, fun ⟨entry, _⟩ => barred.elim entry⟩
  | unencoded error barred => exact .inr ⟨rfl, fun ⟨entry, _⟩ => barred.elim entry⟩
  | unwound entry ran => exact .inl ⟨rfl, entry, _, by rw [ran]⟩
  | returned entry ran =>
    refine .inr ⟨rfl, ?_⟩
    rintro ⟨other, cause, failed⟩
    rw [Subsingleton.elim other entry, ran] at failed
    cases failed

/-- No call is in progress: the last one is over, and left its invoker idle or faulted. -/
def Rests (v : Invoker) : Prop :=
  v.phase = .idle ∨ v.phase = .faulted

/-- An invoker at rest is ready, after a fault as well. -/
theorem Rests.phase_ready (rests : v.Rests) : v.ready.phase = .idle := by
  unfold ready
  rcases rests with idle | faulted
  · rw [if_neg (by rw [idle]; decide), idle]
  · rw [if_pos faulted]
    rfl

/-- To make an invoker ready is lawful. -/
theorem Lawful.ready (lawful : v.Lawful) : v.ready.Lawful := by
  unfold Invoker.ready
  split
  case isTrue faulted => exact lawful.advance (by rw [faulted]; decide)
  case isFalse => exact lawful

end Invoker

/-! ### Turns -/

variable [Engine]

/-- What happens to an invoker or around it. -/
inductive Invoker.Turn (σ : Type) where
  /-- The invoker calls an export. -/
  | call (name : String) (args : List HostValue) (results : List HostType)
  /-- A fault is latched on an instance. -/
  | setException (inst : Nat) (fault : Fault)
  /-- The latch of an instance is cleared. -/
  | clearException (inst : Nat)
  /-- The host changes in any other way. -/
  | change (f : Host σ → Host σ)

/-- The invoker and the host after one more turn. -/
def Invoker.Turn.take (printer : Printer σ) (x : Invoker × Host σ) :
    Turn σ → Invoker × Host σ
  | .call name args results => (x.1.call printer name args results x.2).2
  | .setException inst fault => (x.1, (exec (HostM.setException inst fault) x.2).2)
  | .clearException inst => (x.1, (exec (HostM.clearException inst) x.2).2)
  | .change f => (x.1, f x.2)

namespace Invoker

/-- Two calls of one export, by different invokers, are alike: they are told the same, leave the same
host, and go through the same phases on top of those before. -/
def CallsLike (printer : Printer σ) (h : Host σ) (name : String) (args : List HostValue)
    (results : List HostType) (v w : Invoker) : Prop :=
  (v.call printer name args results h).1 = (w.call printer name args results h).1 ∧
    (v.call printer name args results h).2.2 = (w.call printer name args results h).2.2 ∧
    ∃ later, (v.call printer name args results h).2.1.trail = later ++ v.ready.trail ∧
      (w.call printer name args results h).2.1.trail = later ++ w.ready.trail

/-- What holds of an invoker between its calls. -/
structure Phased (printer : Printer σ) (environment : Nat) (v : Invoker) : Prop where
  environment_eq : v.environment = environment
  /-- Every change of phase so far was legal. -/
  lawful : v.Lawful
  /-- It is idle or faulted. -/
  rests : v.Rests
  /-- The next call, whatever it is and on whatever host, leaves it so, and faulted exactly if the
  guest of that very call is unwound. -/
  call : ∀ name args results (h : Host σ),
    (v.call printer name args results h).2.1.Lawful ∧
    (v.call printer name args results h).2.1.Rests ∧
    ((v.call printer name args results h).2.1.phase = .faulted ↔
      v.Unwinds printer name args results h)
  /-- If it is faulted, the next call is like one of an idle invoker for its environment. -/
  recovers : v.phase = .faulted → ∀ w : Invoker, w.phase = .idle → w.environment = environment →
    ∀ name args results (h : Host σ), v.ready.trail = .idle :: v.trail ∧ w.ready = w ∧
      CallsLike printer h name args results v w

/-- A call keeps an invoker lawful and at rest, and ends faulted exactly if its guest is unwound. -/
theorem Lawful.call (lawful : v.Lawful) (rests : v.Rests) (printer : Printer σ) (name : String)
    (args : List HostValue) (results : List HostType) (h : Host σ) :
    (v.call printer name args results h).2.1.Lawful ∧
    (v.call printer name args results h).2.1.Rests ∧
    ((v.call printer name args results h).2.1.phase = .faulted ↔
      v.Unwinds printer name args results h) := by
  obtain ⟨phases, answer, after, course, calls⟩ :=
    exists_course printer h v.environment name args results
  rw [calls v rfl]
  have ready := rests.phase_ready
  have last := phase_foldl_advance (v := v.ready) phases
  rw [ready] at last
  refine ⟨lawful.ready.foldl_advance (ready ▸ course.legal), ?_⟩
  -- Where the invoker rests is the last phase of the way that the call went.
  rcases course.getLast with ⟨faulted, unwinds⟩ | ⟨idle, returns⟩
  · have phase := Option.some.inj (last.symm.trans faulted)
    exact ⟨.inr phase, fun _ => unwinds, fun _ => phase⟩
  · have phase := Option.some.inj (last.symm.trans idle)
    refine ⟨.inl phase, fun faulted => ?_, fun unwinds => (returns unwinds).elim⟩
    cases phase.symm.trans faulted

/-- Invokers for one environment make the same calls. -/
theorem callsLike {w : Invoker} (same : w.environment = v.environment) (printer : Printer σ)
    (h : Host σ) (name : String) (args : List HostValue) (results : List HostType) :
    CallsLike printer h name args results v w := by
  obtain ⟨phases, answer, after, -, calls⟩ :=
    exists_course printer h v.environment name args results
  rw [CallsLike, calls v rfl, calls w same]
  exact ⟨rfl, rfl, phases.reverse, trail_foldl_advance phases, trail_foldl_advance phases⟩

/-- A lawful invoker at rest goes through the phases of a call, whatever the call comes to. -/
theorem phased_of_lawful (lawful : v.Lawful) (rests : v.Rests) (printer : Printer σ) :
    v.Phased printer v.environment where
  environment_eq := rfl
  lawful := lawful
  rests := rests
  call := lawful.call rests printer
  recovers faulted w idle same name args results h := by
    refine ⟨?_, if_neg (by rw [idle]; decide), callsLike same printer h name args results⟩
    rw [Invoker.ready, if_pos faulted, trail_advance]

omit [Engine] in
/-- Phases are nothing to the environment of an invoker. -/
theorem environment_foldl_advance (phases : List Phase) :
    (phases.foldl Invoker.advance v).environment = v.environment := by
  induction phases generalizing v with
  | nil => rfl
  | cons next phases ih => exact ih

/-- One turn keeps what holds of an invoker. -/
theorem Phased.take {environment : Nat} {x : Invoker × Host σ}
    (phased : x.1.Phased printer environment) (turn : Turn σ) :
    (turn.take printer x).1.Phased printer environment := by
  cases turn with
  | setException inst fault | clearException inst | change f => exact phased
  | call name args results =>
    obtain ⟨lawful, rests, -⟩ := phased.call name args results x.2
    obtain ⟨phases, answer, after, -, calls⟩ :=
      exists_course printer x.2 x.1.environment name args results
    have same : (x.1.call printer name args results x.2).2.1.environment = environment := by
      rw [calls x.1 rfl, environment_foldl_advance, environment_ready, phased.environment_eq]
    exact same ▸ phased_of_lawful lawful rests printer

end Invoker

/-- **Phases.** Whatever an invoker calls, and whatever faults are latched and cleared and whatever
else happens to its host between the calls, it changes its phase only as it may; it is idle or faulted
between calls, faulted exactly if the guest of the call that is just over was unwound; and being
faulted makes no difference to the next call. -/
theorem phased_run (printer : Printer σ) (environment : Nat) (turns : List (Invoker.Turn σ))
    (h : Host σ) :
    (turns.foldl (Invoker.Turn.take printer)
      (Invoker.ofEnvironment environment, h)).1.Phased printer environment := by
  -- By induction on the turns, from whatever invoker and host the turns before have left.
  suffices kept : ∀ x : Invoker × Host σ, x.1.Phased printer environment →
      (turns.foldl (Invoker.Turn.take printer) x).1.Phased printer environment from
    kept _ (Invoker.phased_of_lawful (Invoker.lawful_ofEnvironment environment) (.inl rfl) printer)
  induction turns with
  | nil => exact fun _ phased => phased
  | cons turn turns ih => exact fun x phased => ih (turn.take printer x) (phased.take turn)

end Embedder
