import Embedder.Wasm.Progress

namespace Embedder.Wasm

/-!
# Threads

The virtual machine: a stack of function activations that runs one instruction at a time. A thread
does not act on the host. Where it needs the host, for one of its functions or for more memory, it
stops with a request and is resumed with the answer.

* `Label`, `Frame`, `Thread`: blocks, activations, and a whole stack of them.
* `Thread.step`: one instruction.
* `Thread.start`, `Thread.resume`: a call from the host, and the answer to a request.
-/

variable {ν : Type}

/-- A block being executed: how many operands a branch to it takes along, the body to run again if
it is a loop, what follows it, and the operands below it. -/
structure Label where
  carried : Nat
  again : Option (List Instr)
  after : List Instr
  below : List Value
  deriving Repr

/-- An activation of a function: its result types, its locals, the blocks it is in (the innermost
first), what is left of the innermost block, and that block's operands. -/
structure Frame where
  results : List ValType
  locals : Array Value
  labels : List Label
  code : List Instr
  operands : List Value
  deriving Repr

/-- The running activation, the ones that wait for it, and how many more there may be. -/
structure Thread where
  frame : Frame
  callers : List Frame
  room : Nat
  deriving Repr

/-! ### Activations -/

/-- The activation of a function's code. -/
def Frame.ofCall (type : FuncType) (code : Code) (args : List Value) : Frame where
  results := type.results
  locals := (args ++ code.locals.map ValType.zero).toArray
  labels := []
  code := code.body
  operands := []

/-- The parameters and results of a block. -/
def blockArity (g : Guest ν) : BlockType → Option (Nat × Nat)
  | .empty => some (0, 0)
  | .value _ => some (0, 1)
  | .index i => (g.module.types[i]?).map fun t => (t.params.length, t.results.length)

namespace Thread

/-- A stack for a call of code from the host. -/
def start (type : FuncType) (code : Code) (args : List Value) (room : Nat) : Thread :=
  ⟨Frame.ofCall type code args, [], room⟩

/-- The thread with other operands. -/
def withOperands (t : Thread) (operands : List Value) : Thread :=
  { t with frame := { t.frame with operands } }

/-- The thread with one more operand. -/
def push (t : Thread) (v : Value) : Thread :=
  t.withOperands (v :: t.frame.operands)

/-- The thread with the answer to its request: the results, the last one on top. -/
def resume (t : Thread) (values : List Value) : Thread :=
  t.withOperands (values.reverse ++ t.frame.operands)

/-- The thread in a block of its running activation. -/
def enter (t : Thread) (label : Label) (body : List Instr) (operands : List Value) : Thread :=
  { t with frame := { t.frame with
      labels := label :: t.frame.labels
      code := body
      operands } }

/-- Leave the running activation with its results. -/
def leave (g : Guest ν) (t : Thread) : Progress ν Thread :=
  let values := (t.frame.operands.take t.frame.results.length).reverse
  if values.map Value.type ≠ t.frame.results then .trapped .illTyped
  else
    match t.callers with
    | [] => .finished values
    | caller :: callers => .running g (resume ⟨caller, callers, t.room + 1⟩ values)

/-- Branch out of `depth` blocks to the one around them. -/
def branch (g : Guest ν) (t : Thread) (depth : Nat) : Progress ν Thread :=
  match t.frame.labels.drop depth with
  | [] => if depth = t.frame.labels.length then t.leave g else .trapped .illTyped
  | label :: labels =>
    let carried := t.frame.operands.take label.carried
    match label.again with
    | some body =>
      .running g { t with frame := { t.frame with
        labels := label :: labels, code := body, operands := carried } }
    | none =>
      .running g { t with frame := { t.frame with
        labels, code := label.after, operands := carried ++ label.below } }

/-- Reach the end of the innermost block. -/
def endBlock (g : Guest ν) (t : Thread) : Progress ν Thread :=
  match t.frame.labels with
  | [] => t.leave g
  | label :: labels =>
    .running g { t with frame := { t.frame with
      labels, code := label.after, operands := t.frame.operands ++ label.below } }

/-- Begin a block that takes `params` operands. -/
def block (g : Guest ν) (t : Thread) (type : BlockType) (isLoop : Bool) (body : List Instr) :
    Progress ν Thread :=
  match blockArity g type with
  | none => .trapped .illTyped
  | some (params, results) =>
    let label : Label :=
      { carried := if isLoop then params else results
        again := if isLoop then some body else none
        after := t.frame.code
        below := t.frame.operands.drop params }
    .running g (t.enter label body (t.frame.operands.take params))

/-- Call a function with the operands on top as its arguments. -/
def call (g : Guest ν) (t : Thread) (i : Nat) : Progress ν Thread :=
  match g.funcs[i]? with
  | none => .trapped .illTyped
  | some f =>
    let count := f.type.params.length
    let args := (t.frame.operands.take count).reverse
    let t := t.withOperands (t.frame.operands.drop count)
    match f with
    | .native name type => .calls name args type.results t
    | .code type code =>
      match t.room with
      | 0 => .trapped .stackExhausted
      | room + 1 => .running g ⟨Frame.ofCall type code args, t.frame :: t.callers, room⟩

/-- Call the function at a place of a table, which has to be of a given type. -/
def callIndirect (g : Guest ν) (t : Thread) (type table place : Nat) : Progress ν Thread :=
  match g.tables[table]?, g.module.types[type]? with
  | some functions, some type =>
    match functions.get? place with
    | none => .trapped .tableOutOfBounds
    | some none => .trapped .uninitializedElement
    | some (some i) =>
      if (g.funcs[i]?).map Func.type = some type then t.call g i
      else .trapped .signatureMismatch
  | _, _ => .trapped .illTyped

/-! ### Memory -/

/-- The value that a load makes of the bytes it finds. -/
def loaded (a : Access) (bytes : Bytes) : Option Value :=
  let n := bytes.toNat
  let n64 := if a.signed then signExtend 64 (8 * a.width) n else n
  match a.type with
  | .i32 => some (.i32 (UInt32.ofNat n64))
  | .i64 => some (.i64 (UInt64.ofNat n64))
  | .f32 => some (.f32 (UInt32.ofNat n))
  | .f64 => some (.f64 (UInt64.ofNat n))
  | _ => none

/-- The bits that a store writes. -/
def storedBits? (a : Access) : Value → Option Nat
  | .i32 x => if a.type = .i32 then some x.toNat else none
  | .i64 x => if a.type = .i64 then some x.toNat else none
  | .f32 x => if a.type = .f32 then some x.toNat else none
  | .f64 x => if a.type = .f64 then some x.toNat else none
  | _ => none

/-- Load from memory. -/
def load (g : Guest ν) (t : Thread) (a : Access) : Progress ν Thread :=
  match t.frame.operands with
  | .i32 address :: rest =>
    match g.loadBytes? a.memory (address.toNat + a.offset) a.width with
    | none => .trapped .memoryOutOfBounds
    | some bytes =>
      match loaded a bytes with
      | some v => .running g (t.withOperands (v :: rest))
      | none => .trapped .illTyped
  | _ => .trapped .illTyped

/-- Store to memory. -/
def store (g : Guest ν) (t : Thread) (a : Access) : Progress ν Thread :=
  match t.frame.operands with
  | v :: .i32 address :: rest =>
    match storedBits? a v with
    | none => .trapped .illTyped
    | some n =>
      match g.storeBytes? a.memory (address.toNat + a.offset) (Bytes.ofNat a.width n) with
      | none => .trapped .memoryOutOfBounds
      | some g => .running g (t.withOperands rest)
  | _ => .trapped .illTyped

/-- Fill a stretch of memory. -/
def fillMemory (g : Guest ν) (t : Thread) (memory : Nat) : Progress ν Thread :=
  match t.frame.operands with
  | .i32 count :: .i32 b :: .i32 address :: rest =>
    match g.memories[memory]? with
    | none => .trapped .illTyped
    | some m =>
      match m.fill? address.toNat count.toNat (UInt8.ofNat b.toNat) with
      | none => .trapped .memoryOutOfBounds
      | some m => .running (g.setMemory memory m) (t.withOperands rest)
  | _ => .trapped .illTyped

/-- Ask for more pages. No pages are had without asking. -/
def growMemory (g : Guest ν) (t : Thread) (memory : Nat) : Progress ν Thread :=
  match t.frame.operands, g.memories[memory]? with
  | .i32 pages :: rest, some m =>
    if pages = 0 then .running g (t.withOperands (.i32 (UInt32.ofNat m.pages) :: rest))
    else .grows memory pages.toNat (t.withOperands rest)
  | _, _ => .trapped .illTyped

/-! ### Numbers -/

/-- A truth value as an operand. -/
def ofBool (b : Bool) : Value :=
  .i32 (if b then 1 else 0)

/-- Replace the operands on top by a value, or stop. -/
def answer (g : Guest ν) (t : Thread) (rest : List Value) : Except Trap Value → Progress ν Thread
  | .ok v => .running g (t.withOperands (v :: rest))
  | .error trap => .trapped trap

/-- An operation on the numbers on top. -/
def numeric (g : Guest ν) (t : Thread) (i : Instr) : Progress ν Thread :=
  match i, t.frame.operands with
  | .intTest .w32, .i32 x :: rest => t.answer g rest (.ok (ofBool (x = 0)))
  | .intTest .w64, .i64 x :: rest => t.answer g rest (.ok (ofBool (x = 0)))
  | .intBinary .w32 op, .i32 y :: .i32 x :: rest =>
    t.answer g rest ((op.eval32 x y).map .i32)
  | .intBinary .w64 op, .i64 y :: .i64 x :: rest =>
    t.answer g rest ((op.eval64 x y).map .i64)
  | .intCompare .w32 op, .i32 y :: .i32 x :: rest =>
    t.answer g rest (.ok (ofBool (op.eval32 x y)))
  | .intCompare .w64 op, .i64 y :: .i64 x :: rest =>
    t.answer g rest (.ok (ofBool (op.eval64 x y)))
  | .intUnary .w32 op, .i32 x :: rest =>
    t.answer g rest (.ok (.i32 (UInt32.ofNat (op.eval 32 x.toNat))))
  | .intUnary .w64 op, .i64 x :: rest =>
    t.answer g rest (.ok (.i64 (UInt64.ofNat (op.eval 64 x.toNat))))
  | .convert op, v :: rest =>
    match op.eval v with
    | some result => t.answer g rest result
    | none => .trapped .illTyped
  | _, _ => .trapped .illTyped

/-! ### Variables -/

/-- Set a local that exists. -/
def setLocal (g : Guest ν) (t : Thread) (i : Nat) (v : Value) (operands : List Value) :
    Progress ν Thread :=
  if i < t.frame.locals.size then
    .running g { t with frame := { t.frame with
      locals := t.frame.locals.setIfInBounds i v, operands } }
  else .trapped .illTyped

/-! ### One step -/

/-- One instruction of the running activation. -/
def exec (g : Guest ν) (t : Thread) (i : Instr) : Progress ν Thread :=
  match i with
  | .unreachable => .trapped .unreachable
  | .nop => .running g t
  | .block type body => t.block g type false body
  | .loop type body => t.block g type true body
  | .ifElse type yes no =>
    match t.frame.operands with
    | .i32 c :: rest => (t.withOperands rest).block g type false (if c = 0 then no else yes)
    | _ => .trapped .illTyped
  | .br depth => t.branch g depth
  | .brIf depth =>
    match t.frame.operands with
    | .i32 c :: rest =>
      if c = 0 then .running g (t.withOperands rest) else (t.withOperands rest).branch g depth
    | _ => .trapped .illTyped
  | .brTable depths otherwise =>
    match t.frame.operands with
    | .i32 c :: rest => (t.withOperands rest).branch g ((depths[c.toNat]?).getD otherwise)
    | _ => .trapped .illTyped
  | .ret => t.leave g
  | .call i => t.call g i
  | .callIndirect type table =>
    match t.frame.operands with
    | .i32 place :: rest => (t.withOperands rest).callIndirect g type table place.toNat
    | _ => .trapped .illTyped
  | .drop =>
    match t.frame.operands with
    | _ :: rest => .running g (t.withOperands rest)
    | [] => .trapped .illTyped
  | .select =>
    match t.frame.operands with
    | .i32 c :: y :: x :: rest =>
      .running g (t.withOperands ((if c = 0 then y else x) :: rest))
    | _ => .trapped .illTyped
  | .localGet i =>
    match t.frame.locals[i]? with
    | some v => .running g (t.push v)
    | none => .trapped .illTyped
  | .localSet i =>
    match t.frame.operands with
    | v :: rest => t.setLocal g i v rest
    | [] => .trapped .illTyped
  | .localTee i =>
    match t.frame.operands with
    | v :: rest => t.setLocal g i v (v :: rest)
    | [] => .trapped .illTyped
  | .globalGet i =>
    match g.globals[i]? with
    | some v => .running g (t.push v)
    | none => .trapped .illTyped
  | .globalSet i =>
    match t.frame.operands, g.globals[i]? with
    | v :: rest, some old =>
      if v.type = old.type then .running (g.setGlobal i v) (t.withOperands rest)
      else .trapped .illTyped
    | _, _ => .trapped .illTyped
  | .load a => t.load g a
  | .store a => t.store g a
  | .memorySize memory =>
    match g.memories[memory]? with
    | some m => .running g (t.push (.i32 (UInt32.ofNat m.pages)))
    | none => .trapped .illTyped
  | .memoryGrow memory => t.growMemory g memory
  | .memoryFill memory => t.fillMemory g memory
  | .const v => .running g (t.push v)
  | .refFunc i => .running g (t.push (.ref .func (some i)))
  | .refIsNull =>
    match t.frame.operands with
    | .ref _ target :: rest => .running g (t.withOperands (ofBool target.isNone :: rest))
    | _ => .trapped .illTyped
  | i => t.numeric g i

/-- One step: the next instruction, or the end of a block. -/
def step (g : Guest ν) (t : Thread) : Progress ν Thread :=
  match t.frame.code with
  | [] => t.endBlock g
  | i :: code => { t with frame := { t.frame with code } }.exec g i

end Thread

end Embedder.Wasm
