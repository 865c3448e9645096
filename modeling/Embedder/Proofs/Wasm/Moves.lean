import Embedder.Proofs.Wasm.Extends
import Embedder.Wasm.Thread

namespace Embedder.Wasm

/-!
# What threads do

One step of a thread leaves the functions and the memory sizes of the guest alone, and of its activations
it touches the running one: this goes on, waits for another one, or is left.

* `Thread.Stays`: the same activation, called by the same ones.
* `Progress.Moves`, `Thread.step_moves`: what one step does to the activations and to the guest.
* `Thread.step_keeps`: what it leaves alone, and what it needs.
-/

variable {ν : Type}

/-- A thread in the same activation as another one, called by the same ones. -/
structure Thread.Stays (t t' : Thread) : Prop where
  results : t'.frame.results = t.frame.results
  callers : t'.callers = t.callers

/-- What one step of a thread comes to. -/
inductive Progress.Moves (g : Guest ν) (t : Thread) : Progress ν Thread → Prop
  /-- The running activation goes on. -/
  | stays {g' : Guest ν} {t' : Thread} (guest : g.Extends g') (same : t.Stays t') :
      Moves g t (.running g' t')
  /-- It waits for another one. -/
  | calls {t' : Thread} {waiting : Frame} (callers : t'.callers = waiting :: t.callers)
      (results : waiting.results = t.frame.results) : Moves g t (.running g t')
  /-- It is left, and its caller goes on. -/
  | returns {t' : Thread} {caller : Frame} (waiting : t.callers = caller :: t'.callers)
      (results : t'.frame.results = caller.results) : Moves g t (.running g t')
  /-- It is left, and there is no caller. -/
  | finishes {values : List Value} (last : t.callers = [])
      (typed : values.map Value.type = t.frame.results) : Moves g t (.finished values)
  /-- The thread is stopped. -/
  | traps {trap : Trap} : Moves g t (.trapped trap)
  /-- It needs one of the host's functions that the guest imports. -/
  | asks {name : ν} {args : List Value} {results : List ValType} {t' : Thread}
      (imported : g.Imports name) (same : t.Stays t') : Moves g t (.calls name args results t')
  /-- It needs more memory. -/
  | grows {memory pages : Nat} {t' : Thread} (same : t.Stays t') :
      Moves g t (.grows memory pages t')

namespace Thread

variable (g : Guest ν) (t : Thread)

variable {g t} in
/-- What comes of a step goes by the activation and its callers. -/
theorem Stays.moves {t' : Thread} {p : Progress ν Thread} (stays : t.Stays t') (moves : p.Moves g t') :
    p.Moves g t := by
  obtain ⟨results, callers⟩ := stays
  cases moves with
  | stays guest same =>
    exact .stays guest ⟨same.results.trans results, same.callers.trans callers⟩
  | calls called waits => exact .calls (callers ▸ called) (waits.trans results)
  | returns waiting same => exact .returns (callers ▸ waiting) same
  | finishes last typed => exact .finishes (callers ▸ last) (typed.trans results)
  | traps => exact .traps
  | asks imported same =>
    exact .asks imported ⟨same.results.trans results, same.callers.trans callers⟩
  | grows same => exact .grows ⟨same.results.trans results, same.callers.trans callers⟩

variable {t} in
/-- Only the running activation has changed. -/
theorem goes {t' : Thread} (same : t.Stays t') : (Progress.running g t' : Progress ν Thread).Moves g t :=
  .stays (.refl g) same

/-- A function that is left returns to its caller, or ends the thread. -/
theorem leave_moves : (t.leave g).Moves g t := by
  unfold leave
  dsimp only
  split
  · exact .traps
  case isFalse typed =>
    split
    case h_1 last => exact .finishes last (Decidable.not_not.1 typed)
    case h_2 caller callers waiting => exact .returns waiting rfl

/-- A branch leaves blocks, and maybe the function. -/
theorem branch_moves (depth : Nat) : (t.branch g depth).Moves g t := by
  unfold branch
  dsimp only
  split
  · split
    · exact leave_moves g t
    · exact .traps
  · split <;> exact goes g ⟨rfl, rfl⟩

/-- A block that has ended is left. -/
theorem endBlock_moves : (t.endBlock g).Moves g t := by
  unfold endBlock
  split
  · exact leave_moves g t
  · exact goes g ⟨rfl, rfl⟩

/-- A block or a loop is entered. -/
theorem block_moves (type : BlockType) (isLoop : Bool) (body : List Instr) :
    (t.block g type isLoop body).Moves g t := by
  unfold block
  split
  · exact .traps
  · exact goes g ⟨rfl, rfl⟩

/-- A function is called, or a callback is. -/
theorem call_moves (i : Nat) : (t.call g i).Moves g t := by
  unfold call
  dsimp only
  split
  · exact .traps
  case h_2 f hf =>
    split
    case h_1 name type => exact .asks ⟨type, Array.mem_of_getElem? hf⟩ ⟨rfl, rfl⟩
    · split
      · exact .traps
      · exact .calls rfl rfl

/-- A function of a table is called if it has the expected type. -/
theorem callIndirect_moves (type table place : Nat) :
    (t.callIndirect g type table place).Moves g t := by
  unfold callIndirect
  split
  · split
    · exact .traps
    · exact .traps
    · split
      · exact call_moves g t _
      · exact .traps
  · exact .traps

/-- A load reads memory, or traps. -/
theorem load_moves (a : Access) : (t.load g a).Moves g t := by
  unfold load
  split
  · split
    · exact .traps
    · split
      · exact goes g ⟨rfl, rfl⟩
      · exact .traps
  · exact .traps

/-- A store keeps the size of the memory, or traps. -/
theorem store_moves (a : Access) : (t.store g a).Moves g t := by
  unfold store
  split
  · split
    · exact .traps
    · split
      · exact .traps
      case h_2 h => exact .stays (Guest.storeBytes?_extends h) ⟨rfl, rfl⟩
  · exact .traps

/-- A fill keeps the size of the memory, or traps. -/
theorem fillMemory_moves (memory : Nat) : (t.fillMemory g memory).Moves g t := by
  unfold fillMemory
  split
  · split
    · exact .traps
    case h_2 m hm =>
      split
      · exact .traps
      case h_2 m' hf =>
        obtain ⟨size, maximum⟩ := Guest.fill?_shape hf
        exact .stays (Guest.extends_setMemory hm size maximum) ⟨rfl, rfl⟩
  · exact .traps

/-- A request for memory is handed on to the host. -/
theorem growMemory_moves (memory : Nat) : (t.growMemory g memory).Moves g t := by
  unfold growMemory
  split
  · split
    · exact goes g ⟨rfl, rfl⟩
    · exact .grows ⟨rfl, rfl⟩
  · exact .traps

/-- The result of an operation goes on the operands, or traps. -/
theorem answer_moves (rest : List Value) (r : Except Trap Value) :
    (t.answer g rest r).Moves g t := by
  cases r
  · exact .traps
  · exact goes g ⟨rfl, rfl⟩

/-- Numeric instructions touch nothing but operands. -/
theorem numeric_moves (i : Instr) : (t.numeric g i).Moves g t := by
  unfold numeric
  split
  case h_9 =>
    split
    · exact answer_moves g t _ _
    · exact .traps
  case h_10 => exact .traps
  all_goals exact answer_moves g t _ _

/-- A local variable gets another value. -/
theorem setLocal_moves (i : Nat) (v : Value) (operands : List Value) :
    (t.setLocal g i v operands).Moves g t := by
  unfold setLocal
  split
  · exact goes g ⟨rfl, rfl⟩
  · exact .traps

/-- Every instruction does one of these things, by cases on the instructions. -/
theorem exec_moves (i : Instr) : (t.exec g i).Moves g t := by
  have taken : ∀ operands, t.Stays (t.withOperands operands) := fun _ => ⟨rfl, rfl⟩
  unfold exec
  split
  case h_1 => exact .traps
  case h_2 => exact goes g ⟨rfl, rfl⟩
  case h_3 => exact block_moves g t _ _ _
  case h_4 => exact block_moves g t _ _ _
  case h_6 => exact branch_moves g t _
  case h_9 => exact leave_moves g t
  case h_10 => exact call_moves g t _
  case h_19 => exact load_moves g t _
  case h_20 => exact store_moves g t _
  case h_22 => exact growMemory_moves g t _
  case h_23 => exact fillMemory_moves g t _
  case h_27 => exact numeric_moves g t _
  case h_7 =>
    split
    · split
      · exact goes g ⟨rfl, rfl⟩
      · exact (taken _).moves (branch_moves g _ _)
    · exact .traps
  case h_18 =>
    split
    case h_1 v rest old _ present =>
      split
      case isTrue same =>
        refine .stays (Guest.extends_setGlobal fun _ old' present' => ?_) ⟨rfl, rfl⟩
        cases present.symm.trans present'
        exact same
      case isFalse => exact .traps
    case h_2 => exact .traps
  -- The others look at the operands, and then do one thing.
  all_goals first
    | exact goes g ⟨rfl, rfl⟩
    | split <;> first
      | exact .traps
      | exact goes g ⟨rfl, rfl⟩
      | exact (taken _).moves (block_moves g _ _ _ _)
      | exact (taken _).moves (branch_moves g _ _)
      | exact (taken _).moves (callIndirect_moves g _ _ _ _)
      | exact setLocal_moves g t _ _ _

/-- **One step.** What a step does to the activations and to the guest. -/
theorem step_moves : (t.step g).Moves g t := by
  unfold step
  split
  · exact endBlock_moves g t
  case h_2 i code _ =>
    have stays : t.Stays { t with frame := { t.frame with code } } := ⟨rfl, rfl⟩
    exact stays.moves (exec_moves g _ i)

/-- So a step of a thread keeps what the guest has. -/
theorem step_keeps : (t.step g).Keeps g := by
  have moves := step_moves g t
  generalize t.step g = p at moves
  cases moves with
  | stays guest => exact guest
  | calls => exact Guest.Extends.refl g
  | returns => exact Guest.Extends.refl g
  | asks imported => exact imported
  | finishes => trivial
  | traps => trivial
  | grows => trivial

end Thread

end Embedder.Wasm
