import Embedder.Proofs.Host.Sequences
import Embedder.Proofs.Session.Footprint
import Embedder.Proofs.Session.Outcomes

namespace Embedder

open Session (Passes Slots Step empty hookedPrinter runWith)

/-!
# Runs of a runner, one after another

Whatever a session has come to, a runner with nothing latched can be asked for any runs and resets, one
after another. Where hooks leave it alone, what is latched in the end is the first fault that it was
told of, and until there is one, it goes on entering its guest.

* `follows_of_passes`: what a run finds after any operations of the runner.
* `counting`: a program that passes its threshold, and traps.
-/

namespace Session

/-- **Runs and faults.** In whatever a session that starts with nothing passes through, let a runner have
nothing latched, and let hooks leave it alone. Whatever it is asked for then, one after another, the
next run finds the first fault latched that it was told of. -/
theorem follows_of_passes [Engine] {s : Session} (passes : Passes hookedPrinter empty s)
    {quiet : Session → Prop} {id : Nat} {r : Runner} (present : s.runners.get? id = some r)
    (discreet : Discreet hookedPrinter quiet id r.environment r.inst) (calm : quiet s)
    (sandboxed : s.Sandboxed r.inst) (clear : s.latch? r.inst = some none) (ops : List Operation) :
    s.Follows hookedPrinter (operate hookedPrinter id ops s).2 id r
      (firstFault (operate hookedPrinter id ops s).1) := by
  let rule : HookRule := .any
  have any : ∀ hook, HookRule.admits hook := fun _ => trivial
  obtain ⟨g, proper⟩ := passes.proper any rfl
  obtain ⟨e, i, manned⟩ := proper.sound.manned proper.chained present
  obtain ⟨store, idle, latch⟩ := Option.map_eq_some_iff.1 clear
  have stands : s.Stands id r e store := ⟨present, manned.bound, manned.own, idle⟩
  have old : r.inst < s.instances.next := by
    obtain ⟨c, hc, -⟩ := Option.map_eq_some_iff.1 manned.there
    exact Pool.lt_next_of_get?_eq_some hc
  -- The operations start where the runner waits with nothing latched.
  have attends : s.Attends s g quiet id r none :=
    ⟨.refl, ⟨calm, r.threshold, r.counter, e, store, stands, latch⟩, nofun⟩
  have later := attends_operate (traced_of_any any) discreet proper sandboxed old ops attends
  rw [Option.none_or] at later
  exact follows_of_attends (traced_of_any any) discreet proper sandboxed idle later

/-! ### A counter and a trap -/

/-- A program whose instrumented entry point says that its counter, which is seven, is past the
threshold. Its plain entry point traps. -/
def counting : Bytes :=
  [0x00, 0x61, 0x73, 0x6d, 0x01, 0x00, 0x00, 0x00,
    -- three types: nothing at all; two numbers in, one number out; one more number in
    0x01, 0x11, 0x03, 0x60, 0x00, 0x00, 0x60, 0x02, 0x7f, 0x7f, 0x01, 0x7f,
    0x60, 0x03, 0x7f, 0x7f, 0x7e, 0x01, 0x7f,
    -- one function of the first type is imported
    0x02, 0x20, 0x01, 0x03] ++ Bytes.ofText nativeSpace ++
    [0x18] ++ Bytes.ofText "sandbox_counter_exceeded" ++ [0x00, 0x00,
    -- one of each other type is exported, and so are the counter and the threshold
    0x03, 0x03, 0x02, 0x01, 0x02,
    0x06, 0x0b, 0x02, 0x7e, 0x01, 0x42, 0x07, 0x0b, 0x7e, 0x01, 0x42, 0x05, 0x0b,
    0x07, 0x52, 0x04, 0x0c] ++ Bytes.ofText plainMain ++ [0x00, 0x01,
    0x19] ++ Bytes.ofText instrumentedMain ++ [0x00, 0x02,
    0x0f] ++ Bytes.ofText counterGlobal ++ [0x03, 0x00,
    0x11] ++ Bytes.ofText thresholdGlobal ++ [0x03, 0x01,
    -- their code
    0x0a, 0x0c, 0x02, 0x03, 0x00, 0x00, 0x0b, 0x06, 0x00, 0x10, 0x00, 0x41, 0x00, 0x0b]

/-- A runner of the program. -/
def counted : Session :=
  (runWith hookedPrinter
    [.createRuntime "rt" {} [.all] [] none [],
      .runtime "rt" (.createRunner "r" counting [] [] ⟨1, 0⟩ 1)] empty).2

/-- It is run up to its threshold, reset, and run until it traps. -/
def trapping : List Operation :=
  [.run .instrumented 5, .reset, .run .plain 0]

theorem hookless_counted : counted.Hookless := by
  intro commons
  have none : counted.app.hooks.entries.length = 0 := by decide +kernel
  show (counted.app.hooks.entries.find? _).map Prod.snd = _
  rw [List.length_eq_zero_iff.1 none]
  rfl

theorem sandboxed_counted : counted.Sandboxed 0 := by
  intro i m r there module runtime f offered
  have plain : ((counted.instance? 0).bind fun i => (counted.module? i.module).bind fun m =>
      (counted.runtime? m.runtime).map fun r => r.natives.all fun f =>
        f matches .native _) = some true := by
    decide +kernel
  rw [there, Option.bind_some, module, Option.bind_some, runtime, Option.map_some,
    Option.some.injEq, List.all_eq_true] at plain
  cases f with
  | native n => exact ⟨n, rfl⟩
  | probe p => cases plain _ offered

/-- After the trap, runs are refused with it. -/
theorem follows_counted : ∃ r, counted.runners.get? 0 = some r ∧
    counted.Follows hookedPrinter (operate hookedPrinter 0 trapping counted).2 0 r
      (some ⟨.trap, "wasm trap: wasm `unreachable` instruction executed"⟩) := by
  have made : (counted.runners.get? 0).map (fun r => (r.environment, r.inst)) = some (0, 0) := by
    decide +kernel
  obtain ⟨r, present, same⟩ := Option.map_eq_some_iff.1 made
  have inst : r.inst = 0 := congrArg Prod.snd same
  have fault : firstFault (operate hookedPrinter 0 trapping counted).1 =
      some ⟨.trap, "wasm trap: wasm `unreachable` instruction executed"⟩ := by
    decide +kernel
  have clear : counted.latch? 0 = some none := by decide +kernel
  refine ⟨r, present, ?_⟩
  rw [← fault]
  exact follows_of_passes (passes_runWith _ .here _) present
    (hookless_counted.silent.discreet 0 r.environment r.inst) rfl (inst ▸ sandboxed_counted)
    (inst ▸ clear) trapping

/-- What the runner was told, and what it is told when it runs again. -/
example : ((operate hookedPrinter 0 (trapping ++ [.run .instrumented 5]) counted).1.map fun
      | .ok outcome => (outcome, none)
      | .error error => (none, error.fault?)) =
    [(some (.thresholdExceeded 7 5), none), (none, none),
      (none, some ⟨.trap, "wasm trap: wasm `unreachable` instruction executed"⟩),
      (none, some ⟨.trap, "pending exception: wasm trap: wasm `unreachable` instruction executed"⟩)] := by
  decide +kernel

end Session

end Embedder
