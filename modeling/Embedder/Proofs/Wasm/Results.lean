import Embedder.Proofs.Wasm.Moves

namespace Embedder.Wasm

/-!
# What threads end with

Activations come and go while a thread runs, but the first one stays, and the thread is done when
this one is left. It is left with results of the types that were declared for it.

* `Thread.owed`: the types of the results that a thread has to end with.
* `Thread.step_honours`: one step leaves them as they are, or ends with such results.
-/

/-- The types of the results that the first of some activations ends with, if the running one ends
with results of given types. -/
def owedBy (results : List ValType) : List Frame → List ValType
  | [] => results
  | caller :: callers => owedBy caller.results callers

/-- The types of the results that a thread has to end with. -/
def Thread.owed (t : Thread) : List ValType :=
  owedBy t.frame.results t.callers

theorem Thread.Stays.owed {t t' : Thread} (stays : t.Stays t') : t'.owed = t.owed := by
  rw [Thread.owed, stays.results, stays.callers, Thread.owed]

/-- **One step.** What a thread has to end with stays as it is until the thread ends with it. -/
theorem Thread.step_honours {ν : Type} (g : Guest ν) (t : Thread) : (t.step g).Honours owed t.owed := by
  have moves := step_moves g t
  generalize t.step g = p at moves
  cases moves with
  | stays _ same => exact same.owed
  | @calls t' waiting callers results =>
    show owedBy _ t'.callers = owedBy _ _
    rw [callers, owedBy, results]
  | returns waiting results =>
    show owedBy _ _ = owedBy _ t.callers
    rw [waiting, owedBy, results]
  | finishes last typed =>
    show _ = owedBy _ t.callers
    rw [last]
    exact typed
  | traps => trivial
  | asks _ same => exact same.owed
  | grows same => exact same.owed

end Embedder.Wasm
