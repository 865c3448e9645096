import Embedder.Proofs.Host.Results
import Embedder.Proofs.Session.Exclusion
import Embedder.Proofs.Session.Latch

namespace Embedder

open Session (Slots empty hookedPrinter runWith)

/-!
# Calls deliver

In a session, guests are linked by instantiation only, and so their callbacks always have the types
that they were declared with. Whatever a call of a session is asked to hand over and to tell, it does.

* `Session.proper_empty`: a session without objects is proper.
* `delivers_of_passes`: calls between the operations of a session, and calls of hooks.
-/

variable {s : Session}

/-- A session in which there is nothing is proper. -/
theorem Session.proper_empty [HookRule] (since : HookRule.since = 0) :
    Config.Proper (⟨empty, .none⟩ : Config Slots) :=
  ⟨sound_empty since, chained_empty, linked_empty, fun _ _ h => nomatch h⟩

namespace Session

/-- **Delivery.** Between any two operations of a session that starts with nothing, and for the hooks
that act while a guest runs, calls hand over what they are given, and tell what comes back. -/
theorem delivers_of_passes [Engine] (passes : Passes hookedPrinter empty s) :
    s.Delivers ∧ ∀ environment name args results (entry : Entry s environment name args results) w,
      entry.Meanwhile w → w.Delivers := by
  let rule : HookRule := .any
  have any : ∀ hook, HookRule.admits hook := fun _ => trivial
  obtain ⟨g, -, -, lead⟩ := passes.leads any (g := .none) (traced_of_any any)
  have proper := lead.proper (proper_empty rfl)
  refine ⟨proper.delivers, fun environment name args results entry w meanwhile => ?_⟩
  obtain ⟨g', -, -, -, later⟩ := entry.leads_meanwhile any (g := g) meanwhile
  exact (later.proper proper).delivers

/-- An environment of an instance whose plain entry point returns zero. -/
def returning : List Step :=
  [.createRuntime "rt" {} [] [] none [],
    .runtime "rt" (.load "m" returningZero),
    .module "m" (.instantiate "i" 1 0),
    .inst "i" (.createEnvironment "e" 1)]

/-- A call with two numbers, for a number, has an answer. -/
theorem delivers_returning : Passes hookedPrinter empty (runWith hookedPrinter returning empty).2 ∧
    (runWith hookedPrinter returning empty).2.Delivers ∧
    (stepWith hookedPrinter (.environment "e" (.call ⟨plainMain, [.value (.u32 1), .value (.i32 2)],
      [.u32]⟩)) (runWith hookedPrinter returning empty).2).1 matches
        .called ⟨.ok [.u32 0], .idle⟩ :=
  ⟨passes_runWith _ .here returning, (delivers_of_passes (passes_runWith _ .here returning)).1,
    by decide +kernel⟩

/-- A call with another category of numbers has none, and neither has a call for two results. -/
example : ((runWith hookedPrinter (returning ++
    [.environment "e" (.call ⟨plainMain, [.value (.u32 1), .value (.u64 2)], [.u32]⟩),
      .environment "e" (.call ⟨plainMain, [.value (.u32 1), .value (.u32 2)], [.u32, .u32]⟩)])
      empty).1.drop 4).map (fun
        | .called ⟨.error (.typeMismatch expected found), _⟩ => some (expected, found)
        | _ => none) = [some ("i32", "i64"), some ("2 results", "1 results")] := by
  decide +kernel

end Session

end Embedder
