import Embedder.Wasm.Binary

namespace Embedder.Wasm

/-!
# The text format

A reader for small modules in text: memories with a size, and functions that return constants,
each possibly exported. A text that is itself a binary module is read as one.

* `Token`, `SExpr`: the lexical and the nested form of a text.
* `Module.ofText?`: the module of a text.
-/

-- Powers are those of the core library, whatever else is imported.
attribute [local instance (1100)] instPowNat

/-! ### Tokens -/

/-- The lexical elements of a text. -/
inductive Token where
  | left
  | right
  | atom (text : String)
  | quoted (text : String)
  deriving DecidableEq, Repr

/-- Where the lexer stands. What it has read of an atom or a text is held in reverse. -/
inductive Lexing where
  | between
  | inAtom (read : List Char)
  | inText (read : List Char)
  | inLineComment
  | inBlockComment (depth : Nat)

/-- The characters of numbers, names and keywords. -/
def isAtomChar (c : Char) : Bool :=
  c.isAlphanum || "!#$%&'*+-./:<=>?@\\^_|~".toList.contains c

/-- The blanks of the format. -/
def isBlank (c : Char) : Bool :=
  c = ' ' || c = '\t' || c = '\n' || c = '\r'

/-- The atom read so far. -/
def atomOf (read : List Char) : Token :=
  .atom (String.ofList read.reverse)

/-- The lexical elements of a text. -/
def tokens : Lexing → List Char → Option (List Token)
  | .between, [] => some []
  | .between, ';' :: ';' :: cs => tokens .inLineComment cs
  | .between, '(' :: ';' :: cs => tokens (.inBlockComment 0) cs
  | .between, '(' :: cs => (tokens .between cs).map (.left :: ·)
  | .between, ')' :: cs => (tokens .between cs).map (.right :: ·)
  | .between, '"' :: cs => tokens (.inText []) cs
  | .between, c :: cs =>
    if isBlank c then tokens .between cs
    else if isAtomChar c then tokens (.inAtom [c]) cs
    else none
  | .inAtom read, [] => some [atomOf read]
  | .inAtom read, '(' :: cs => (tokens .between cs).map (atomOf read :: .left :: ·)
  | .inAtom read, ')' :: cs => (tokens .between cs).map (atomOf read :: .right :: ·)
  | .inAtom read, c :: cs =>
    if isBlank c then (tokens .between cs).map (atomOf read :: ·)
    else if isAtomChar c then tokens (.inAtom (c :: read)) cs
    else none
  | .inText _, [] => none
  | .inText read, '"' :: cs =>
    (tokens .between cs).map (.quoted (String.ofList read.reverse) :: ·)
  | .inText read, c :: cs =>
    if c = '\\' || c.toNat < 0x20 then none else tokens (.inText (c :: read)) cs
  | .inLineComment, [] => some []
  | .inLineComment, c :: cs => tokens (if c = '\n' then .between else .inLineComment) cs
  | .inBlockComment _, [] => none
  | .inBlockComment depth, ';' :: ')' :: cs =>
    tokens (if depth = 0 then .between else .inBlockComment (depth - 1)) cs
  | .inBlockComment depth, '(' :: ';' :: cs => tokens (.inBlockComment (depth + 1)) cs
  | .inBlockComment depth, _ :: cs => tokens (.inBlockComment depth) cs

/-! ### Nested expressions -/

/-- An atom, a text, or a list between parentheses. -/
inductive SExpr where
  | atom (text : String)
  | quoted (text : String)
  | list (items : List SExpr)
  deriving Repr

/-- The expressions of a list of tokens. The lists still open are held inside out, their items in
reverse. -/
def SExpr.nest : (opened : List (List SExpr)) → (items : List SExpr) → List Token →
    Option (List SExpr)
  | [], items, [] => some items.reverse
  | _ :: _, _, [] => none
  | opened, items, .left :: ts => nest (items :: opened) [] ts
  | [], _, .right :: _ => none
  | outer :: opened, items, .right :: ts => nest opened (.list items.reverse :: outer) ts
  | opened, items, .atom text :: ts => nest opened (.atom text :: items) ts
  | opened, items, .quoted text :: ts => nest opened (.quoted text :: items) ts

/-! ### Modules -/

/-- The number type of a keyword. -/
def numTypeOf? : String → Option ValType
  | "i32" => some .i32
  | "i64" => some .i64
  | _ => none

/-- A signed or unsigned decimal number. -/
def integerOf? (text : String) : Option Int :=
  match text.toList with
  | '-' :: cs => (String.ofList cs).toNat?.map fun n => -(n : Int)
  | _ => text.toNat?.map fun n => (n : Int)

/-- The constant of a folded instruction. -/
def constantOf? : SExpr → Option Value
  | .list [.atom "i32.const", .atom n] => do
    let n ← integerOf? n
    if -(2 ^ (31 : Nat)) ≤ n ∧ n < 2 ^ (32 : Nat) then
      some (.i32 (UInt32.ofNat (n % 2 ^ (32 : Nat)).toNat))
    else none
  | .list [.atom "i64.const", .atom n] => do
    let n ← integerOf? n
    if -(2 ^ (63 : Nat)) ≤ n ∧ n < 2 ^ (64 : Nat) then
      some (.i64 (UInt64.ofNat (n % 2 ^ (64 : Nat)).toNat))
    else none
  | _ => none

/-- Take the names that a field exports itself under off its front. -/
def inlineExports : List SExpr → List String × List SExpr
  | .list [.atom "export", .quoted name] :: items =>
    let (names, rest) := inlineExports items
    (name :: names, rest)
  | items => ([], items)

/-- Take the declared results off the front. -/
def inlineResults : List SExpr → Option (List ValType × List SExpr)
  | .list (.atom "result" :: types) :: items => do
    let types ← types.mapM fun
      | .atom t => numTypeOf? t
      | _ => none
    pure (types, items)
  | items => some ([], items)

/-- The module with one more field. -/
def Module.addField? (m : Module) : SExpr → Option Module
  | .list (.atom "memory" :: items) => do
    let (names, rest) := inlineExports items
    let limits ← match rest with
      | [.atom least] => do pure ⟨← least.toNat?, none⟩
      | [.atom least, .atom most] => do pure ⟨← least.toNat?, some (← most.toNat?)⟩
      | _ => none
    let target := ExportTarget.memory m.memories.length
    pure { m with
      memories := m.memories ++ [limits]
      exports := m.exports ++ names.map fun n => ⟨n, target⟩ }
  | .list (.atom "func" :: items) => do
    let (names, rest) := inlineExports items
    let (results, body) ← inlineResults rest
    let values ← body.mapM constantOf?
    if values.map Value.type ≠ results then none
    let target := ExportTarget.func m.functions.length
    pure { m with
      types := m.types.push ⟨[], results⟩
      functions := m.functions ++ [m.types.size]
      codes := m.codes ++ [⟨[], values.map .const⟩]
      exports := m.exports ++ names.map fun n => ⟨n, target⟩ }
  | _ => none

/-- The module of a text. -/
def Module.ofText? (text : String) : Option Module := do
  if text.startsWith "\x00asm" then Module.decode? (Bytes.ofText text)
  else
    match ← SExpr.nest [] [] (← tokens .between text.toList) with
    | [.list (.atom "module" :: fields)] => do
      let m ← fields.foldlM Module.addField? .empty
      if m.isValid then some m else none
    | _ => none

end Embedder.Wasm
