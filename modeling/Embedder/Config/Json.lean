import Embedder.Bytes
import Embedder.Config.Document

namespace Embedder.Json

/-!
# Documents in JSON

* `write`: the compact text of a document.
* `read?`: the document of a text. A number that is no integer, a truth value, and anything in which
  a character is written by half, are values of no use, but not errors.
-/

/-! ### Writing -/

/-- The letter that names a control character after a backslash. -/
def shortEscape? (c : Char) : Option Char :=
  if c = '"' then some '"'
  else if c = '\\' then some '\\'
  else if c = '\x08' then some 'b'
  else if c = '\t' then some 't'
  else if c = '\n' then some 'n'
  else if c = '\x0c' then some 'f'
  else if c = '\r' then some 'r'
  else none

/-- How one character stands inside a text. -/
def escape (c : Char) : List Char :=
  match shortEscape? c with
  | some letter => ['\\', letter]
  | none =>
    if c.toNat < 32 then
      ['\\', 'u', '0', '0', Bytes.hexDigit (c.toNat / 16), Bytes.hexDigit (c.toNat % 16)]
    else [c]

/-- A text between quotes. -/
def writeText (s : String) : List Char :=
  '"' :: (s.toList.flatMap escape ++ ['"'])

mutual

/-- The characters of a document. -/
def writeNode : Node → List Char
  | .null => ['n', 'u', 'l', 'l']
  | .integer v => (toString v).toList
  | .text s => writeText s
  | .list items => '[' :: (writeItems items ++ [']'])
  | .record fields => '\x7b' :: (writeFields fields ++ ['\x7d'])
  | .other => ['t', 'r', 'u', 'e']

/-- The items of a list with commas between them. -/
def writeItems : List Node → List Char
  | [] => []
  | [n] => writeNode n
  | n :: ns => writeNode n ++ ',' :: writeItems ns

/-- The fields of a record with commas between them. -/
def writeFields : List (String × Node) → List Char
  | [] => []
  | [(k, n)] => writeText k ++ ':' :: writeNode n
  | (k, n) :: fields => writeText k ++ ':' :: (writeNode n ++ ',' :: writeFields fields)

end

/-- The compact text of a document. -/
def write (n : Node) : String :=
  String.ofList (writeNode n)

/-! ### Texts -/

/-- Whether a character may stand between the parts of a document. -/
def isBlank (c : Char) : Bool :=
  c = ' ' || c = '\t' || c = '\n' || c = '\r'

/-- What follows the blanks at the start. -/
def skipBlanks (cs : List Char) : List Char :=
  cs.dropWhile isBlank

/-- The number of hexadecimal digits. -/
def hexNumber? (digits : List Char) : Option Nat :=
  digits.foldlM (fun n c => (Bytes.hexValue? c).map (16 * n + ·)) 0

/-- The character that a letter names after a backslash. -/
def ofShortEscape? (letter : Char) : Option Char :=
  if letter = '"' then some '"'
  else if letter = '\\' then some '\\'
  else if letter = '/' then some '/'
  else if letter = 'b' then some '\x08'
  else if letter = 'f' then some '\x0c'
  else if letter = 'n' then some '\n'
  else if letter = 'r' then some '\r'
  else if letter = 't' then some '\t'
  else none

/-- The numbers of the characters up to the closing quote, and what follows it. A character that is
written as two halves still counts as two. -/
def readUnits : List Char → Option (List Nat × List Char)
  | [] => none
  | '"' :: rest => some ([], rest)
  | '\\' :: 'u' :: a :: b :: c :: d :: rest => do
    let unit ← hexNumber? [a, b, c, d]
    let (units, rest) ← readUnits rest
    pure (unit :: units, rest)
  | '\\' :: letter :: rest => do
    let c ← ofShortEscape? letter
    let (units, rest) ← readUnits rest
    pure (c.toNat :: units, rest)
  | c :: rest =>
    if c.toNat < 32 ∨ c = '\\' then none
    else do
      let (units, rest) ← readUnits rest
      pure (c.toNat :: units, rest)

/-- Whether a number is the first half of a character. -/
def isHighHalf (n : Nat) : Bool :=
  0xD800 ≤ n && n < 0xDC00

/-- Whether a number is the second half of a character. -/
def isLowHalf (n : Nat) : Bool :=
  0xDC00 ≤ n && n < 0xE000

/-- The characters of numbers, if none is written by half. -/
def joinHalves? : List Nat → Option (List Char)
  | [] => some []
  | [n] => if isHighHalf n || isLowHalf n then none else some [Char.ofNat n]
  | n :: m :: rest =>
    if isHighHalf n then
      if isLowHalf m then
        (joinHalves? rest).map
          (Char.ofNat (0x10000 + (n - 0xD800) * 0x400 + (m - 0xDC00)) :: ·)
      else none
    else if isLowHalf n then none
    else (joinHalves? (m :: rest)).map (Char.ofNat n :: ·)

/-- The text up to the closing quote, `none` if a character is written by half, and what follows. -/
def readText (cs : List Char) : Option (Option String × List Char) := do
  let (units, rest) ← readUnits cs
  pure ((joinHalves? units).map String.ofList, rest)

/-! ### Numbers and words -/

/-- The number of decimal digits. -/
def decimalNumber (digits : List Char) : Nat :=
  digits.foldl (fun n c => 10 * n + (c.toNat - 48)) 0

/-- The digits at the start, of which there has to be one, and what follows them. -/
def someDigits (cs : List Char) : Option (List Char × List Char) :=
  match cs.takeWhile Char.isDigit with
  | [] => none
  | digits => some (digits, cs.dropWhile Char.isDigit)

/-- The digits of a whole number, without leading zeros, and what follows them. -/
def wholeDigits (cs : List Char) : Option (List Char × List Char) :=
  match cs with
  | '0' :: rest => some (['0'], rest)
  | _ => someDigits cs

/-- Pass over the digits after a point, if there is one; the answer tells whether there was. -/
def skipFraction (cs : List Char) : Option (Bool × List Char) :=
  match cs with
  | '.' :: rest => (someDigits rest).map fun (_, rest) => (true, rest)
  | _ => some (false, cs)

/-- What follows a sign, if there is one. -/
def skipSign : List Char → List Char
  | '+' :: rest => rest
  | '-' :: rest => rest
  | cs => cs

/-- Pass over an exponent, if there is one; the answer tells whether there was. -/
def skipExponent (cs : List Char) : Option (Bool × List Char) :=
  match cs with
  | 'e' :: rest => (someDigits (skipSign rest)).map fun (_, rest) => (true, rest)
  | 'E' :: rest => (someDigits (skipSign rest)).map fun (_, rest) => (true, rest)
  | _ => some (false, cs)

/-- A number without its sign, `none` if it is written like a number that is no integer. -/
def readMagnitude (cs : List Char) : Option (Option Nat × List Char) := do
  let (digits, rest) ← wholeDigits cs
  let (isFraction, rest) ← skipFraction rest
  let (isScaled, rest) ← skipExponent rest
  pure (if isFraction || isScaled then none else some (decimalNumber digits), rest)

/-- A number. Zero with a sign is no integer. -/
def readNumber (cs : List Char) : Option (Node × List Char) :=
  match cs with
  | '-' :: rest => do
    let (magnitude, rest) ← readMagnitude rest
    match magnitude with
    | some (n + 1) => pure (.integer (-((n : Int) + 1)), rest)
    | _ => pure (.other, rest)
  | _ => do
    let (magnitude, rest) ← readMagnitude cs
    match magnitude with
    | some n => pure (.integer n, rest)
    | none => pure (.other, rest)

/-- The words that are values. -/
def words : List (List Char × Node) :=
  [(['n', 'u', 'l', 'l'], .null), (['t', 'r', 'u', 'e'], .other),
    (['f', 'a', 'l', 's', 'e'], .other)]

/-- A value that is a word. -/
def readWord (cs : List Char) : Option (Node × List Char) :=
  (words.find? fun w => w.1.isPrefixOf cs).map fun w => (w.2, cs.drop w.1.length)

/-! ### Documents -/

/-- What follows a character that has to come next, after blanks. -/
def expect (c : Char) (cs : List Char) : Option (List Char) :=
  match skipBlanks cs with
  | d :: rest => if d = c then some rest else none
  | [] => none

/-- Whether a list or record goes on after one of its items: what follows the comma, or else what
follows the closing bracket. -/
def endOrComma (close : Char) (cs : List Char) : Option (List Char ⊕ List Char) :=
  match skipBlanks cs with
  | c :: rest => if c = ',' then some (.inl rest) else if c = close then some (.inr rest) else none
  | [] => none

/-- The record of fields; with a name that is written by half it is of no use. -/
def recordOf (fields : List (Option String × Node)) : Node :=
  match fields.mapM fun f => f.1.map fun k => (k, f.2) with
  | some fields => .record fields
  | none => .other

mutual

/-- A document, blanks before it, and what follows; `fuel` bounds how often parts are entered. -/
def readNode : (fuel : Nat) → List Char → Option (Node × List Char)
  | 0, _ => none
  | fuel + 1, cs =>
    match skipBlanks cs with
    | '"' :: rest => do
      let (s, rest) ← readText rest
      pure ((s.map Node.text).getD .other, rest)
    | '[' :: rest =>
      match skipBlanks rest with
      | ']' :: rest => some (.list [], rest)
      | rest => (readItems fuel rest).map fun (items, rest) => (.list items, rest)
    | '\x7b' :: rest =>
      match skipBlanks rest with
      | '\x7d' :: rest => some (.record [], rest)
      | rest => (readFields fuel rest).map fun (fields, rest) => (recordOf fields, rest)
    | c :: rest =>
      if c = '-' ∨ c.isDigit then readNumber (c :: rest) else readWord (c :: rest)
    | [] => none

/-- The items of a list up to its closing bracket. -/
def readItems : (fuel : Nat) → List Char → Option (List Node × List Char)
  | 0, _ => none
  | fuel + 1, cs => do
    let (n, rest) ← readNode fuel cs
    match ← endOrComma ']' rest with
    | .inr rest => pure ([n], rest)
    | .inl rest => do
      let (ns, rest) ← readItems fuel rest
      pure (n :: ns, rest)

/-- The fields of a record up to its closing bracket. -/
def readFields : (fuel : Nat) → List Char → Option (List (Option String × Node) × List Char)
  | 0, _ => none
  | fuel + 1, cs => do
    let (k, rest) ← readText (← expect '"' cs)
    let (n, rest) ← readNode fuel (← expect ':' rest)
    match ← endOrComma '\x7d' rest with
    | .inr rest => pure ([(k, n)], rest)
    | .inl rest => do
      let (fields, rest) ← readFields fuel rest
      pure ((k, n) :: fields, rest)

end

/-- The document of a text. -/
def read? (text : String) : Option Node := do
  let cs := text.toList
  let (n, rest) ← readNode (2 * cs.length + 2) cs
  if (skipBlanks rest).isEmpty then some n else none

end Embedder.Json

namespace Embedder

/-- The configuration file of a JSON text. -/
def ConfigFile.ofJson? (text : String) : Option ConfigFile := do
  ConfigFile.ofNode? .refused {} (← Json.read? text)

/-- The runtime configuration of a JSON text. -/
def RuntimeConfig.ofJson? (text : String) : Option RuntimeConfig := do
  RuntimeConfig.ofNode? .refused {} (← Json.read? text)

/-- The module configuration of a JSON text. -/
def ModuleConfig.ofJson? (text : String) : Option ModuleConfig := do
  ModuleConfig.ofNode? .refused {} (← Json.read? text)

/-- The run configuration of a JSON text. -/
def RunConfig.ofJson? (text : String) : Option RunConfig := do
  RunConfig.ofNode? .refused {} (← Json.read? text)

end Embedder
