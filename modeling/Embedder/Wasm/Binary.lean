import Embedder.Bytes
import Embedder.Text.Utf8
import Embedder.Wasm.Module

namespace Embedder.Wasm

/-!
# The binary format

A decoder for version 1 of the format. It reads a byte string from the front and fails on the
first thing that is not part of a module.

* `Decoder`: a reader of a prefix.
* `Decoder.unsigned`, `Decoder.signed`: numbers of variable length.
* `Decoder.instrs`: a sequence of instructions with everything nested in it.
* `Module.decode?`: a whole module, well formed and with nothing left over.
-/

-- Powers are those of the core library, whatever else is imported.
attribute [local instance (1100)] instPowNat

/-- A reader of a prefix of a byte string; it may fail. -/
abbrev Decoder (α : Type) := StateT Bytes Option α

-- A zero is the numeral, whatever else is imported.
attribute [local instance (1100)] Zero.ofOfNat0

namespace Decoder

/-! ### Bytes and numbers -/

/-- One byte. -/
def byte : Decoder Nat := fun bs =>
  match bs with
  | [] => none
  | b :: rest => some (b.toNat, rest)

/-- The next `count` bytes. -/
def bytes (count : Nat) : Decoder Bytes := fun bs =>
  if count ≤ bs.length then some (bs.take count, bs.drop count) else none

/-- Whether nothing is left. -/
def atEnd : Decoder Bool := fun bs =>
  some (bs.isEmpty, bs)

/-- One byte of a given value. -/
def expect (value : Nat) : Decoder Unit := do
  if (← byte) ≠ value then failure

/-- An unsigned number of at most `width` bits, seven bits a byte. -/
def unsigned (width : Nat) : Decoder Nat :=
  go width
where
  /-- The number whose remaining width is at most `7 * groups`. -/
  go (width : Nat) : Decoder Nat := do
    let b ← byte
    if b < 128 then
      if b < 2 ^ width then pure b else failure
    else
      if _ : 7 < width then
        pure (b - 128 + 128 * (← go (width - 7)))
      else failure
  termination_by width

/-- A signed number of at most `width` bits, seven bits a byte. -/
def signed (width : Nat) : Decoder Int :=
  go width
where
  /-- The number whose remaining width is `width`. -/
  go (width : Nat) : Decoder Int := do
    let b ← byte
    if b < 128 then
      let n : Int := if b < 64 then b else (b : Int) - 128
      if -(2 ^ (width - 1)) ≤ n ∧ n < 2 ^ (width - 1) then pure n else failure
    else
      if _ : 7 < width then
        pure ((b : Int) - 128 + 128 * (← go (width - 7)))
      else failure
  termination_by width

/-- A 32-bit unsigned number. -/
def u32 : Decoder Nat :=
  unsigned 32

/-- A little-endian number of a width in bytes. -/
def fixed (width : Nat) : Decoder Nat := do
  pure (← bytes width).toNat

/-- A fixed number of items. -/
def times (item : Decoder α) : Nat → Decoder (List α)
  | 0 => pure []
  | count + 1 => do
    let a ← item
    let as ← times item count
    pure (a :: as)

/-- Items preceded by their number. -/
def list (item : Decoder α) : Decoder (List α) := do
  times item (← u32)

/-- A text preceded by its length in bytes. -/
def name : Decoder String := do
  match Text.decode? (← bytes (← u32)) with
  | some text => pure text
  | none => failure

/-- What a decoder makes of exactly the next `count` bytes. -/
def within (count : Nat) (inner : Decoder α) : Decoder α := do
  match inner (← bytes count) with
  | some (a, []) => pure a
  | _ => failure

/-! ### Types -/

/-- The value type of a byte. -/
def valTypeOf? : Nat → Option ValType
  | 0x7F => some .i32
  | 0x7E => some .i64
  | 0x7D => some .f32
  | 0x7C => some .f64
  | 0x7B => some .v128
  | 0x70 => some (.ref .func)
  | 0x6F => some (.ref .external)
  | _ => none

/-- A value type. -/
def valType : Decoder ValType := do
  match valTypeOf? (← byte) with
  | some t => pure t
  | none => failure

/-- The type of a reference. -/
def refType : Decoder RefType := do
  match ← valType with
  | .ref t => pure t
  | _ => failure

/-- A function type. -/
def funcType : Decoder FuncType := do
  expect 0x60
  pure ⟨← list valType, ← list valType⟩

/-- Limits. -/
def limits : Decoder Limits := do
  match ← byte with
  | 0 => pure ⟨← u32, none⟩
  | 1 => do
    let minimum ← u32
    pure ⟨minimum, some (← u32)⟩
  | _ => failure

/-- The type of a global. -/
def globalType : Decoder GlobalType := do
  let type ← valType
  match ← byte with
  | 0 => pure ⟨type, false⟩
  | 1 => pure ⟨type, true⟩
  | _ => failure

/-- A table of functions. -/
def tableType : Decoder Limits := do
  let _ ← refType
  limits

/-- The operands of a block: none, one result, or a type by index. -/
def blockType : Decoder BlockType := do
  match ← signed 33 with
  | -64 => pure .empty
  | n =>
    if 0 ≤ n then pure (.index n.toNat)
    else match valTypeOf? (n + 128).toNat with
      | some t => pure (.value t)
      | none => failure

/-! ### Instructions -/

/-- The alignment, memory and offset of an access. -/
def access (type : ValType) (width : Nat) (isSigned : Bool) : Decoder Access := do
  let align ← u32
  let memory ← if 64 ≤ align then u32 else pure 0
  pure ⟨type, width, isSigned, memory, ← u32⟩

/-- The accesses by opcode from `0x28` on, loads before stores. -/
def accessOf? : Nat → Option (ValType × Nat × Bool)
  | 0x28 => some (.i32, 4, false)
  | 0x29 => some (.i64, 8, false)
  | 0x2A => some (.f32, 4, false)
  | 0x2B => some (.f64, 8, false)
  | 0x2C => some (.i32, 1, true)
  | 0x2D => some (.i32, 1, false)
  | 0x2E => some (.i32, 2, true)
  | 0x2F => some (.i32, 2, false)
  | 0x30 => some (.i64, 1, true)
  | 0x31 => some (.i64, 1, false)
  | 0x32 => some (.i64, 2, true)
  | 0x33 => some (.i64, 2, false)
  | 0x34 => some (.i64, 4, true)
  | 0x35 => some (.i64, 4, false)
  | 0x36 => some (.i32, 4, false)
  | 0x37 => some (.i64, 8, false)
  | 0x38 => some (.f32, 4, false)
  | 0x39 => some (.f64, 8, false)
  | 0x3A => some (.i32, 1, false)
  | 0x3B => some (.i32, 2, false)
  | 0x3C => some (.i64, 1, false)
  | 0x3D => some (.i64, 2, false)
  | 0x3E => some (.i64, 4, false)
  | _ => none

/-- The comparisons in the order of their opcodes. -/
def comparisons : List IntCompare :=
  [.eq, .ne, .ltS, .ltU, .gtS, .gtU, .leS, .leU, .geS, .geU]

/-- The operations on one integer in the order of their opcodes. -/
def unaries : List IntUnary :=
  [.clz, .ctz, .popcnt]

/-- The operations on two integers in the order of their opcodes. -/
def binaries : List IntBinary :=
  [.add, .sub, .mul, .divS, .divU, .remS, .remU, .and, .or, .xor, .shl, .shrS, .shrU, .rotl, .rotr]

/-- The instruction at a place of a list that starts at an opcode. -/
def pick (items : List α) (first op : Nat) (instr : α → Instr) : Option Instr :=
  if first ≤ op then (items[op - first]?).map instr else none

/-- The instructions that consist of an opcode alone. -/
def simpleInstr? (op : Nat) : Option Instr :=
  match op with
  | 0x00 => some .unreachable
  | 0x01 => some .nop
  | 0x0F => some .ret
  | 0x1A => some .drop
  | 0x1B => some .select
  | 0x45 => some (.intTest .w32)
  | 0x50 => some (.intTest .w64)
  | 0xA7 => some (.convert .wrap)
  | 0xA8 => some (.convert (.truncate false true .w32))
  | 0xA9 => some (.convert (.truncate false false .w32))
  | 0xAA => some (.convert (.truncate true true .w32))
  | 0xAB => some (.convert (.truncate true false .w32))
  | 0xAC => some (.convert (.widen true))
  | 0xAD => some (.convert (.widen false))
  | 0xAE => some (.convert (.truncate false true .w64))
  | 0xAF => some (.convert (.truncate false false .w64))
  | 0xB0 => some (.convert (.truncate true true .w64))
  | 0xB1 => some (.convert (.truncate true false .w64))
  | 0xBC => some (.convert .reinterpret)
  | 0xBD => some (.convert .reinterpret)
  | 0xBE => some (.convert .reinterpret)
  | 0xBF => some (.convert .reinterpret)
  | 0xC0 => some (.intUnary .w32 .extend8)
  | 0xC1 => some (.intUnary .w32 .extend16)
  | 0xC2 => some (.intUnary .w64 .extend8)
  | 0xC3 => some (.intUnary .w64 .extend16)
  | 0xC4 => some (.intUnary .w64 .extend32)
  | 0xD1 => some .refIsNull
  | op =>
    (pick comparisons 0x46 op (.intCompare .w32)).or <|
    (pick comparisons 0x51 op (.intCompare .w64)).or <|
    (pick unaries 0x67 op (.intUnary .w32)).or <|
    (pick binaries 0x6A op (.intBinary .w32)).or <|
    (pick unaries 0x79 op (.intUnary .w64)).or <|
    pick binaries 0x7C op (.intBinary .w64)

/-- What follows an opcode other than those of blocks. -/
def plainInstr (op : Nat) : Decoder Instr := do
  match op with
  | 0x0C => pure (.br (← u32))
  | 0x0D => pure (.brIf (← u32))
  | 0x0E => do
    let depths ← list u32
    pure (.brTable depths (← u32))
  | 0x10 => pure (.call (← u32))
  | 0x11 => do
    let type ← u32
    pure (.callIndirect type (← u32))
  | 0x20 => pure (.localGet (← u32))
  | 0x21 => pure (.localSet (← u32))
  | 0x22 => pure (.localTee (← u32))
  | 0x23 => pure (.globalGet (← u32))
  | 0x24 => pure (.globalSet (← u32))
  | 0x3F => pure (.memorySize (← u32))
  | 0x40 => pure (.memoryGrow (← u32))
  | 0x41 => do
    let n ← signed 32
    pure (.const (.i32 (UInt32.ofNat (n % 2 ^ (32 : Nat)).toNat)))
  | 0x42 => do
    let n ← signed 64
    pure (.const (.i64 (UInt64.ofNat (n % 2 ^ (64 : Nat)).toNat)))
  | 0x43 => pure (.const (.f32 (UInt32.ofNat (← fixed 4))))
  | 0x44 => pure (.const (.f64 (UInt64.ofNat (← fixed 8))))
  | 0xD0 => pure (.const (.ref (← refType) none))
  | 0xD2 => pure (.refFunc (← u32))
  | 0xFC => do
    match ← u32 with
    | 11 => pure (.memoryFill (← u32))
    | _ => failure
  | 0xFD => do
    match ← u32 with
    | 12 => do
      let low ← fixed 8
      pure (.const (.v128 (UInt64.ofNat low) (UInt64.ofNat (← fixed 8))))
    | _ => failure
  | op =>
    match simpleInstr? op, accessOf? op with
    | some i, _ => pure i
    | none, some (type, width, isSigned) => do
      let a ← access type width isSigned
      pure (if op < 0x36 then .load a else .store a)
    | none, none => failure

/-- Instructions up to the end of their block, and whether an alternative follows; nested blocks
and instructions together are at most `fuel`. -/
def instrs : (fuel : Nat) → Decoder (List Instr × Bool)
  | 0 => failure
  | fuel + 1 => do
    match ← byte with
    | 0x0B => pure ([], false)
    | 0x05 => pure ([], true)
    | op => do
      let i ← match op with
        | 0x02 => do
          let type ← blockType
          match ← instrs fuel with
          | (body, false) => pure (.block type body)
          | _ => failure
        | 0x03 => do
          let type ← blockType
          match ← instrs fuel with
          | (body, false) => pure (.loop type body)
          | _ => failure
        | 0x04 => do
          let type ← blockType
          match ← instrs fuel with
          | (yes, false) => pure (.ifElse type yes [])
          | (yes, true) => do
            match ← instrs fuel with
            | (no, false) => pure (.ifElse type yes no)
            | _ => failure
        | op => plainInstr op
      let (is, alternative) ← instrs fuel
      pure (i :: is, alternative)

/-- Instructions up to an end that nothing else follows. -/
def expr : Decoder (List Instr) := fun bs => do
  match ← instrs (bs.length + 1) bs with
  | ((body, false), rest) => some (body, rest)
  | _ => none

/-- An initial value. -/
def constExpr : Decoder ConstExpr := do
  match ← expr with
  | [.const v] => pure (.value v)
  | [.refFunc i] => pure (.refFunc i)
  | [.globalGet i] => pure (.globalGet i)
  | _ => failure

/-! ### Sections -/

/-- An import. -/
def importItem : Decoder Import := do
  let space ← name
  let item ← name
  let kind ← match ← byte with
    | 0 => .func <$> u32
    | 1 => .table <$> tableType
    | 2 => .memory <$> limits
    | 3 => .global <$> globalType
    | _ => failure
  pure ⟨space, item, kind⟩

/-- A global with its initial value. -/
def globalItem : Decoder GlobalDef := do
  let type ← globalType
  pure ⟨type, ← constExpr⟩

/-- An export. -/
def exportItem : Decoder Export := do
  let item ← name
  let target ← match ← byte with
    | 0 => .func <$> u32
    | 1 => .table <$> u32
    | 2 => .memory <$> u32
    | 3 => .global <$> u32
    | _ => failure
  pure ⟨item, target⟩

/-- Functions for the first table. -/
def elementItem : Decoder Element := do
  expect 0
  let offset ← constExpr
  pure ⟨0, offset, ← list u32⟩

/-- Locals of one type, given by their number. -/
def localGroup : Decoder (Nat × ValType) := do
  let count ← u32
  pure (count, ← valType)

/-- The most locals of a function. -/
def maxLocals : Nat := 50000

/-- The locals and the body of a function. -/
def codeItem : Decoder Code := do
  let size ← u32
  within size do
    let groups ← list localGroup
    if maxLocals < (groups.map Prod.fst).sum then failure
    let body ← expr
    pure ⟨groups.flatMap fun g => List.replicate g.1 g.2, body⟩

/-- Bytes for a memory. -/
def dataItem : Decoder Data := do
  let memory ← match ← u32 with
    | 0 => pure 0
    | 2 => u32
    | _ => failure
  let offset ← constExpr
  pure ⟨memory, offset, ← bytes (← u32)⟩

/-- The place of a section among the others, by its number. -/
def sectionOrder? : Nat → Option Nat
  | 1 => some 1
  | 2 => some 2
  | 3 => some 3
  | 4 => some 4
  | 5 => some 5
  | 6 => some 6
  | 7 => some 7
  | 8 => some 8
  | 9 => some 9
  | 12 => some 10
  | 10 => some 11
  | 11 => some 12
  | _ => none

/-- The module with what one section holds; `count` is the announced number of data segments. -/
def sectionBody (id : Nat) (m : Module) (count : Option Nat) : Decoder (Module × Option Nat) := do
  match id with
  | 1 => pure ({ m with types := (← list funcType).toArray }, count)
  | 2 => pure ({ m with imports := ← list importItem }, count)
  | 3 => pure ({ m with functions := ← list u32 }, count)
  | 4 => pure ({ m with tables := ← list tableType }, count)
  | 5 => pure ({ m with memories := ← list limits }, count)
  | 6 => pure ({ m with globals := ← list globalItem }, count)
  | 7 => pure ({ m with exports := ← list exportItem }, count)
  | 8 => pure ({ m with start := some (← u32) }, count)
  | 9 => pure ({ m with elements := ← list elementItem }, count)
  | 10 => pure ({ m with codes := ← list codeItem }, count)
  | 11 => pure ({ m with datas := ← list dataItem }, count)
  | 12 => pure (m, some (← u32))
  | _ => failure

/-- The sections after place `last`, at most `fuel` of them. -/
def sections : (fuel last : Nat) → Module → Option Nat → Decoder (Module × Option Nat)
  | 0, _, _, _ => failure
  | fuel + 1, last, m, count => do
    if ← atEnd then pure (m, count)
    else
      let id ← byte
      let size ← u32
      if id = 0 then
        within size do
          let _ ← name
          set ([] : Bytes)
        sections fuel last m count
      else
        match sectionOrder? id with
        | none => failure
        | some place =>
          if place ≤ last then failure
          let (m, count) ← within size (sectionBody id m count)
          sections fuel place m count

end Decoder

/-- The module that a byte string encodes. -/
def Module.decode? (bytes : Bytes) : Option Module := do
  if bytes.take 8 ≠ preamble then none
  let ((m, count), _) ← Decoder.sections (bytes.length + 1) 0 .empty none (bytes.drop 8)
  if m.isValid && count.all (· = m.datas.length) then some m else none

end Embedder.Wasm
