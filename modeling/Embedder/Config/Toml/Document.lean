import Embedder.Config.Toml.Tables
import Embedder.Config.Toml.Text

namespace Embedder.Toml

/-!
# Documents in TOML

* `readValue`: a value.
* `Draft`: a document as far as it has been read.
* `read?`: the document of a text.
-/

/-! ### Values -/

/-- The words that are values of no use to a configuration. -/
def words : List (List Char) :=
  [['t', 'r', 'u', 'e'], ['f', 'a', 'l', 's', 'e'], ['i', 'n', 'f'], ['n', 'a', 'n']]

/-- A value that is a word; infinity and the like may have a sign. -/
def readWord (cs : List Char) : Option (Node × List Char) :=
  (words.find? (·.isPrefixOf cs)).map fun w => (.other, cs.drop w.length)

/-- A float that is a word with a sign. -/
def readSignedWord (cs : List Char) : Option (Node × List Char) :=
  match (readSign cs).2 with
  | 'i' :: rest => readWord ('i' :: rest)
  | 'n' :: rest => readWord ('n' :: rest)
  | _ => none

/-- A value that is one word: a date or time, a number, or a name. -/
def readPlain (cs : List Char) : Option (Node × List Char) :=
  match cs with
  | c :: _ =>
    if c = '+' ∨ c = '-' ∨ c.isDigit then
      match readMoment cs with
      | some rest => some (.other, rest)
      | none =>
        match readSignedWord cs with
        | some result => some result
        | none => do
          let (v, rest) ← readNumber cs
          pure ((v.map Node.integer).getD .other, rest)
    else readWord cs
  | [] => none

mutual

/-- A value; `fuel` bounds how often parts are entered, and `level` how deep they are. -/
def readValue : (fuel level : Nat) → List Char → Option (Node × List Char)
  | 0, _, _ => none
  | fuel + 1, level, cs =>
    match cs with
    | '[' :: rest =>
      if depthLimit ≤ level + 1 then none
      else (readItems fuel (level + 1) (skipVoid false rest)).map
        fun (items, rest) => (.list items, rest)
    | '\x7b' :: rest =>
      if depthLimit ≤ level + 1 then none
      else
        match skipBlanks rest with
        | '\x7d' :: rest => some (.record [], rest)
        | rest => (readPairs fuel (level + 1) [] rest).map fun (t, rest) => (t.toNode, rest)
    | _ =>
      match readQuoted cs with
      | some (text, rest) => some (.text (String.ofList text), rest)
      | none => readPlain cs

/-- The items of an array up to its closing bracket; a comma may follow the last one. -/
def readItems : (fuel level : Nat) → List Char → Option (List Node × List Char)
  | 0, _, _ => none
  | _, _, ']' :: rest => some ([], rest)
  | fuel + 1, level, cs => do
    let (n, rest) ← readValue fuel level cs
    match skipVoid false rest with
    | ',' :: rest => do
      let (ns, rest) ← readItems fuel level (skipVoid false rest)
      pure (n :: ns, rest)
    | ']' :: rest => pure ([n], rest)
    | _ => none

/-- The keys and values of a table in one line, added to what it holds already. -/
def readPairs : (fuel level : Nat) → Entries → List Char → Option (Entries × List Char)
  | 0, _, _, _ => none
  | fuel + 1, level, t, cs => do
    let (key, rest) ← readKey cs
    let rest ← expect '=' rest
    let (n, rest) ← readValue fuel level (skipBlanks rest)
    let t ← t.insert? key.dropLast (← key.getLast?) n
    match skipBlanks rest with
    | ',' :: rest => readPairs fuel level t rest
    | '\x7d' :: rest => pure (t, rest)
    | _ => none

end

/-! ### Lines -/

/-- A document as far as it has been read: the closed tables, and the open one with its place. The
table of the lines before all headers has no name. -/
structure Draft where
  closed : Entries
  name : Option (List String × String)
  isElement : Bool
  current : Entries

namespace Draft

/-- Nothing read yet. -/
def empty : Draft :=
  ⟨[], none, false, []⟩

/-- All tables, the open one closed. -/
def close? (d : Draft) : Option Entries :=
  match d.name with
  | none => some d.current
  | some (path, k) => d.closed.close? path k d.isElement d.current

/-- Add a key and its value to the open table. -/
def insert? (d : Draft) (key : List String) (n : Node) : Option Draft := do
  pure { d with current := ← d.current.insert? key.dropLast (← key.getLast?) n }

/-- Open the table of a header. -/
def openTable? (d : Draft) (key : List String) : Option Draft := do
  let path := key.dropLast
  let k ← key.getLast?
  let (current, closed) ← (← d.close?).openTable? path k
  pure ⟨closed, some (path, k), false, current⟩

/-- Open an element of the array of a header. -/
def openElement? (d : Draft) (key : List String) : Option Draft := do
  let path := key.dropLast
  let k ← key.getLast?
  let closed ← (← d.close?).openElement? path k
  pure ⟨closed, some (path, k), true, []⟩

end Draft

/-- One line that is neither blank nor a comment, without its end. -/
def readStatement (d : Draft) (cs : List Char) : Option (Draft × List Char) :=
  match cs with
  | '[' :: '[' :: rest => do
    let (key, rest) ← readKey rest
    let rest ← expect ']' (← expect ']' rest)
    pure (← d.openElement? key, rest)
  | '[' :: rest => do
    let (key, rest) ← readKey rest
    pure (← d.openTable? key, ← expect ']' rest)
  | _ => do
    let (key, rest) ← readKey cs
    let rest := skipBlanks (← expect '=' rest)
    let (n, rest) ← readValue (2 * rest.length + 2) 0 rest
    pure (← d.insert? key n, rest)

/-- The lines of a document; `fuel` bounds how many there are. -/
def readLines : (fuel : Nat) → Draft → List Char → Option Draft
  | 0, _, _ => none
  | fuel + 1, d, cs =>
    match skipVoid false cs with
    | [] => some d
    | rest => do
      let (d, rest) ← readStatement d rest
      readLines fuel d (← endLine rest)

/-- The text without the mark that tells its byte order. -/
def withoutByteOrderMark : List Char → List Char
  | '\ufeff' :: rest => rest
  | cs => cs

/-- The document of a text. -/
def read? (text : String) : Option Node := do
  let cs := withoutByteOrderMark text.toList
  let d ← readLines (cs.length + 1) .empty cs
  pure (← d.close?).toNode

end Embedder.Toml

namespace Embedder

/-- The configuration file of a text. -/
def ConfigFile.ofToml? (text : String) : Option ConfigFile := do
  ConfigFile.ofNode? .ignored {} (← Toml.read? text)

end Embedder
