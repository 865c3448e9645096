import Embedder.Interpreter
import Embedder.Proofs.Host.Indifference
import Embedder.Proofs.Sink.Headers

namespace Embedder

/-!
# Headers in front of lines

A header in front of every line that is not empty is all that marking an output changes. A run goes by
nothing of it: whatever pieces it prints in, it ends in the same way and takes as much from the budget.

* `Output.Heads`: an output that is marked, and the same output that is not, with `Output.Heads.print`.
* `Host.Headed`: hosts that differ in what is marked.
* `Host.headed_benchmark`: benchmarks.
-/

/-! ### Outputs -/

/-- An output that has no header, and the same output with a header in front of every line. -/
structure Output.Heads (header : Bytes) (o o' : Output) : Prop where
  bare : o.header = none
  marked : o'.header = some ⟨header, (HeaderSink.mark header true o.captured).2⟩
  captured : o'.captured = (HeaderSink.mark header true o.captured).1

namespace Output.Heads

variable {header : Bytes} {o o' : Output}

/-- Before anything was printed. -/
theorem fresh (header : Bytes) : Heads header (.ofHeader none) (.ofHeader (some header)) :=
  ⟨rfl, rfl, rfl⟩

/-- The same print to both. -/
theorem print (heads : Heads header o o') (bytes : Bytes) :
    Heads header (o.print bytes) (o'.print bytes) := by
  have bare : o.print bytes = ⟨none, o.captured ++ bytes⟩ := by
    unfold Output.print
    rw [heads.bare]
  have marked : o'.print bytes =
      ⟨some ⟨header, (HeaderSink.mark header true (o.captured ++ bytes)).2⟩,
        (HeaderSink.mark header true (o.captured ++ bytes)).1⟩ := by
    unfold Output.print
    rw [heads.marked, heads.captured, HeaderSink.mark_append]
    rfl
  rw [bare, marked]
  exact ⟨rfl, rfl, rfl⟩

end Output.Heads

/-! ### Hosts -/

variable {σ : Type} {printer : Printer σ} {header : Bytes} {commons : Nat} {h k : Host σ}

/-- Some output has no header in the first host, and a header in the second one. -/
def Difference.headed (printer : Printer σ) (header : Bytes) (commons : Nat) : Difference σ where
  more := 0
  output id o o' := if id = commons then o.Heads header o' else o' = o
  app a b := Silent printer a ∧ b = a
  calm _ := True
  calms _ := trivial
  printed := by
    intro id o o' related bytes
    split at related
    case isTrue same => rw [if_pos same]; exact related.print bytes
    case isFalse other => rw [if_neg other, related]

/-- What goes to outputs alone is the same print to both hosts. -/
theorem evenhanded_silent : Evenhanded (.headed printer header commons) printer := by
  refine fun id bytes => ⟨fun {h k} like => .inr ?_, fun lost => absurd lost (Host.not_lost rfl)⟩
  obtain ⟨silent, same⟩ := like.app
  rw [silent id bytes h rfl, (same ▸ silent : Silent printer k.app) id bytes k rfl]
  exact ((fair_emit id bytes).like like).resolve_left (Host.not_lost rfl)

/-- Two hosts are the same, but for a header in front of every line of some output that is not
empty. -/
structure Host.Headed (header : Bytes) (commons : Nat) (h k : Host σ) : Prop where
  budget : ∀ id, (k.commons? id).map Commons.budget = (h.commons? id).map Commons.budget
  clock : ∀ id, (k.commons? id).map Commons.clock = (h.commons? id).map Commons.clock
  captured : (k.commons? commons).map (fun c => c.output.captured) =
    (h.commons? commons).map fun c => Bytes.headed header c.output.captured
  others : ∀ id, id ≠ commons → k.commons? id = h.commons? id
  runtimes : ∀ id, k.runtimes.get? id = h.runtimes.get? id
  modules : ∀ id, k.modules.get? id = h.modules.get? id
  instances : ∀ id, k.instances.get? id = h.instances.get? id
  environments : k.environments = h.environments
  blocks : k.blocks = h.blocks
  runners : k.runners = h.runners
  released : k.released = h.released
  app : k.app = h.app

theorem Host.Like.headed (like : h.Like (.headed printer header commons) k) :
    h.Headed header commons k where
  budget := like.budget?
  clock := like.clock?
  captured := like.map_commons? fun c c' same => by
    have heads : c.output.Heads header c'.output := by simpa [Difference.headed] using same.output
    exact heads.captured.trans (HeaderSink.mark_eq_headed header _)
  others id other := like.commons?_eq fun c c' same =>
    Commons.eq_of_like same (by simpa [Difference.headed, other] using same.output)
  runtimes id := Counted.rel_like_zero.1 (like.runtimes.get id)
  modules id := Counted.rel_like_zero.1 (like.modules.get id)
  instances id := Counted.rel_like_zero.1 (like.instances.get id)
  environments := like.environments
  blocks := like.blocks
  runners := like.runners
  released := like.released
  app := like.app.2

/-- The host with another output of some commons. -/
def Host.redirect (h : Host σ) (commons : Nat) (output : Output) : Host σ :=
  { h with commons := h.commons.modify commons fun c => { c with output } }

theorem Host.like_redirect (silent : Silent printer h.app) {o o' : Output}
    (heads : o.Heads header o') :
    (h.redirect commons o).Like (.headed printer header commons) (h.redirect commons o') where
  commons := by
    refine ⟨by simp only [redirect, Pool.next_modify], fun id => ?_⟩
    simp only [redirect, Pool.get?_modify]
    cases h.commons.get? id with
    | none => split <;> exact .none
    | some c =>
      split
      case isTrue same => exact .some ⟨rfl, rfl, by simpa [Difference.headed, same] using heads⟩
      case isFalse other => exact .some ⟨rfl, rfl, by simp [Difference.headed, other]⟩
  runtimes := .refl _
  modules := .refl _
  instances := .refl _
  environments := rfl
  blocks := rfl
  runners := rfl
  released := rfl
  app := ⟨silent, rfl⟩

/-- **Headers.** A header that is put in front of every line of what a benchmark prints, which is
captured from then on, changes nothing of the run: there is the same report, or the same error, and
as much is taken from the budgets and asked of the clocks. What is captured is the same text with the
header in front of its lines. -/
theorem Host.headed_benchmark [Engine] (silent : Silent printer h.app) (header : Bytes)
    (commons runtime : Nat) (run : RunConfig) (plain instrumented : Bytes) :
    let benchmark := HostM.benchmark printer runtime run plain instrumented
    let bare := exec benchmark (h.redirect commons (.ofHeader none))
    let headed := exec benchmark (h.redirect commons (.ofHeader (some header)))
    headed.1 = bare.1 ∧ bare.2.Headed header commons headed.2 := by
  obtain ⟨same, like⟩ := ((blind_benchmark evenhanded_silent runtime run plain instrumented).ends _ _
    (Host.like_redirect silent (.fresh header))).resolve_left (Host.not_lost rfl)
  exact ⟨same.symm, like.headed⟩

/-! ### A benchmark of two short runs -/

/-- A module whose plain entry point returns zero at once. -/
def returning : Bytes :=
  Wasm.preamble ++ [1, 7, 1, 0x60, 2, 0x7F, 0x7F, 1, 0x7F] ++ [3, 2, 1, 0] ++
    [7, 16, 1, 12] ++ Bytes.ofText plainMain ++ [0, 0] ++ [10, 6, 1, 4, 0, 0x41, 0, 11]

/-- A host with one small runtime. -/
def small : Host Unit :=
  let config : RuntimeConfig :=
    { heapSizeBytes := 100000, maxWasmStack := 1000, module := ⟨10, 0⟩, execStackSize := 10 }
  (exec (HostM.createRuntime config [] (.ofHeader none) (.ofReadings [] (.ok 0))) (.empty ())).2

theorem headed_benchmark_of_returning : Silent Host.emit small.app ∧
    let benchmark := HostM.benchmark Host.emit 0 { repetitions := 2 } returning []
    let bare := exec benchmark (small.redirect 0 (.ofHeader none))
    let headed := exec benchmark (small.redirect 0 (.ofHeader (some [35])))
    headed.1 = bare.1 ∧ bare.2.Headed [35] 0 headed.2 :=
  ⟨fun _ _ _ _ => rfl,
    Host.headed_benchmark (fun _ _ _ _ => rfl) [35] 0 0 { repetitions := 2 } returning []⟩

example : ((exec (HostM.benchmark Host.emit 0 { repetitions := 1 } returning [])
    (small.redirect 0 (.ofHeader (some [35])))).2.commons? 0).map (fun c => c.output.captured) =
      some (Bytes.ofText ("\n\n#Starting to run WASM program (type=plain)...\n\n\n" ++
        "#Running plain wasm...\n#Finished to run WASM program (type=plain)...\n")) := by
  decide +kernel

end Embedder
