import Embedder.Bytes

namespace Embedder.Toml

/-!
# The words of TOML

Blanks, line ends, texts, keys, numbers and times. Each reader takes what it reads from the start of
a list of characters and gives the rest.

* `skipBlanks`, `skipVoid`, `endLine`: what stands between words.
* `readQuoted`, `readKey`: texts in quotes, and dotted keys.
* `readNumber`, `readMoment`: numbers, dates and times.
-/

-- Powers are those of the core library, whatever else is imported.
attribute [local instance (1100)] instPowNat

/-! ### Between words -/

/-- Whether a character is a blank inside a line. -/
def isBlank (c : Char) : Bool :=
  c = ' ' || c = '\t'

/-- Whether a character may stand in a comment or between quotes as it is. -/
def isPlain (c : Char) : Bool :=
  c = '\t' || (32 ≤ c.toNat && c.toNat ≠ 127)

/-- What follows the blanks at the start. -/
def skipBlanks (cs : List Char) : List Char :=
  cs.dropWhile isBlank

/-- What follows a line end, if one comes next. -/
def lineEnd? : List Char → Option (List Char)
  | '\n' :: rest => some rest
  | '\r' :: '\n' :: rest => some rest
  | _ => none

/-- What follows blanks, line ends and comments; `inComment` tells whether a comment has begun. -/
def skipVoid : (inComment : Bool) → List Char → List Char
  | _, [] => []
  | _, '\n' :: rest => skipVoid false rest
  | _, '\r' :: '\n' :: rest => skipVoid false rest
  | false, c :: rest =>
    if isBlank c then skipVoid false rest
    else if c = '#' then skipVoid true rest
    else c :: rest
  | true, c :: rest => if isPlain c then skipVoid true rest else c :: rest

/-- What follows the line, of which only blanks and a comment may be left. -/
def endLine (cs : List Char) : Option (List Char) :=
  let rest :=
    match skipBlanks cs with
    | '#' :: rest => rest.dropWhile isPlain
    | rest => rest
  match rest with
  | [] => some []
  | _ => lineEnd? rest

/-! ### Texts -/

/-- The character of some hexadecimal digits, if there is one of that number. -/
def charOfHex? (digits : List Char) : Option Char := do
  let n ← digits.foldlM (fun n c => (Bytes.hexValue? c).map (16 * n + ·)) 0
  if n.isValidChar then some (Char.ofNat n) else none

/-- The character that a letter names after a backslash. -/
def ofShortEscape? (letter : Char) : Option Char :=
  if letter = 'b' then some '\x08'
  else if letter = 't' then some '\t'
  else if letter = 'n' then some '\n'
  else if letter = 'f' then some '\x0c'
  else if letter = 'r' then some '\r'
  else if letter = '"' then some '"'
  else if letter = '\\' then some '\\'
  else none

/-- A text between double quotes, the first of which has been read. -/
def readBasic : List Char → Option (List Char × List Char)
  | [] => none
  | '"' :: rest => some ([], rest)
  | '\\' :: 'u' :: a :: b :: c :: d :: rest => do
    let x ← charOfHex? [a, b, c, d]
    let (text, rest) ← readBasic rest
    pure (x :: text, rest)
  | '\\' :: 'U' :: a :: b :: c :: d :: e :: f :: g :: h :: rest => do
    let x ← charOfHex? [a, b, c, d, e, f, g, h]
    let (text, rest) ← readBasic rest
    pure (x :: text, rest)
  | '\\' :: letter :: rest => do
    let x ← ofShortEscape? letter
    let (text, rest) ← readBasic rest
    pure (x :: text, rest)
  | c :: rest =>
    if isPlain c && c ≠ '\\' then do
      let (text, rest) ← readBasic rest
      pure (c :: text, rest)
    else none

/-- A text between single quotes, the first of which has been read. -/
def readLiteral : List Char → Option (List Char × List Char)
  | [] => none
  | '\'' :: rest => some ([], rest)
  | c :: rest =>
    if isPlain c then do
      let (text, rest) ← readLiteral rest
      pure (c :: text, rest)
    else none

/-- A piece of a text over several lines. -/
inductive Piece where
  /-- A character as it is. -/
  | plain (c : Char)
  /-- A character after a backslash. -/
  | escaped (c : Char)
  /-- A backslash at the end of a line: the blanks and line ends after it do not count. -/
  | continuation
  deriving DecidableEq, Repr

/-- The characters of pieces; `skipping` tells whether blanks and line ends are passed over. -/
def joinPieces : (skipping : Bool) → List Piece → List Char
  | _, [] => []
  | true, .plain c :: pieces =>
    if isBlank c || c = '\n' then joinPieces true pieces else c :: joinPieces false pieces
  | false, .plain c :: pieces => c :: joinPieces false pieces
  | _, .escaped c :: pieces => c :: joinPieces false pieces
  | _, .continuation :: pieces => joinPieces true pieces

/-- Up to two quotes that belong to a text although they follow the three that may close it. -/
def extraQuotes (quote : Char) : List Char → List Char × List Char
  | a :: b :: rest =>
    if a = quote then if b = quote then ([a, b], rest) else ([a], b :: rest) else ([], a :: b :: rest)
  | [a] => if a = quote then ([a], []) else ([], [a])
  | [] => ([], [])

/-- Whether nothing but blanks is left of the line. -/
def isLineOver (cs : List Char) : Bool :=
  (lineEnd? (skipBlanks cs)).isSome

/-- A text between three double quotes, the first three of which have been read. -/
def readLongBasic : List Char → Option (List Piece × List Char)
  | [] => none
  | '"' :: '"' :: '"' :: rest =>
    let (extra, rest) := extraQuotes '"' rest
    some (extra.map .plain, rest)
  | '\\' :: 'u' :: a :: b :: c :: d :: rest => do
    let x ← charOfHex? [a, b, c, d]
    let (pieces, rest) ← readLongBasic rest
    pure (.escaped x :: pieces, rest)
  | '\\' :: 'U' :: a :: b :: c :: d :: e :: f :: g :: h :: rest => do
    let x ← charOfHex? [a, b, c, d, e, f, g, h]
    let (pieces, rest) ← readLongBasic rest
    pure (.escaped x :: pieces, rest)
  | '\\' :: letter :: rest => do
    match ofShortEscape? letter with
    | some x =>
      let (pieces, rest) ← readLongBasic rest
      pure (.escaped x :: pieces, rest)
    | none =>
      if isLineOver (letter :: rest) then
        let (pieces, rest) ← readLongBasic rest
        pure (.continuation :: pieces, rest)
      else none
  | '\r' :: '\n' :: rest => do
    let (pieces, rest) ← readLongBasic rest
    pure (.plain '\n' :: pieces, rest)
  | c :: rest =>
    if (isPlain c && c ≠ '\\') || c = '\n' then do
      let (pieces, rest) ← readLongBasic rest
      pure (.plain c :: pieces, rest)
    else none

/-- A text between three single quotes, the first three of which have been read. -/
def readLongLiteral : List Char → Option (List Char × List Char)
  | [] => none
  | '\'' :: '\'' :: '\'' :: rest => some (extraQuotes '\'' rest)
  | '\r' :: '\n' :: rest => do
    let (text, rest) ← readLongLiteral rest
    pure ('\n' :: text, rest)
  | c :: rest =>
    if isPlain c || c = '\n' then do
      let (text, rest) ← readLongLiteral rest
      pure (c :: text, rest)
    else none

/-- What follows the line end that may come first in a text over several lines. -/
def skipFirstLineEnd (cs : List Char) : List Char :=
  (lineEnd? cs).getD cs

/-- A text in quotes of any of the four kinds, if a quote comes next. -/
def readQuoted : List Char → Option (List Char × List Char)
  | '"' :: '"' :: '"' :: rest => do
    let (pieces, rest) ← readLongBasic (skipFirstLineEnd rest)
    pure (joinPieces false pieces, rest)
  | '"' :: rest => readBasic rest
  | '\'' :: '\'' :: '\'' :: rest => readLongLiteral (skipFirstLineEnd rest)
  | '\'' :: rest => readLiteral rest
  | _ => none

/-! ### Keys -/

/-- How many parts a dotted key, and how many levels a value may have: one less than this. -/
def depthLimit : Nat := 80

/-- Whether a character may stand in a key without quotes. -/
def isBare (c : Char) : Bool :=
  c.isAlphanum || c = '_' || c = '-'

/-- One part of a key. -/
def readKeyPart : List Char → Option (String × List Char)
  | '"' :: rest => (readBasic rest).map fun (text, rest) => (String.ofList text, rest)
  | '\'' :: rest => (readLiteral rest).map fun (text, rest) => (String.ofList text, rest)
  | cs =>
    match cs.takeWhile isBare with
    | [] => none
    | part => some (String.ofList part, cs.dropWhile isBare)

/-- The parts of a dotted key, with the blanks around each; `fuel` bounds how many there are. -/
def readKeyParts : (fuel : Nat) → List Char → Option (List String × List Char)
  | 0, _ => none
  | fuel + 1, cs => do
    let (part, rest) ← readKeyPart (skipBlanks cs)
    match skipBlanks rest with
    | '.' :: rest => do
      let (parts, rest) ← readKeyParts fuel rest
      pure (part :: parts, rest)
    | rest => pure ([part], rest)

/-- A dotted key and the blanks around it. -/
def readKey (cs : List Char) : Option (List String × List Char) :=
  readKeyParts (depthLimit - 1) cs

/-! ### Numbers -/

/-- Digits with single underscores between them. -/
def readDigits (isDigit : Char → Bool) : List Char → List Char × List Char
  | '_' :: d :: rest =>
    if isDigit d then
      let (digits, rest) := readDigits isDigit rest
      (d :: digits, rest)
    else ([], '_' :: d :: rest)
  | d :: rest =>
    if isDigit d then
      let (digits, rest) := readDigits isDigit rest
      (d :: digits, rest)
    else ([], d :: rest)
  | [] => ([], [])

/-- Digits with single underscores between them; there has to be one, and it comes first. -/
def someDigits (isDigit : Char → Bool) : List Char → Option (List Char × List Char)
  | d :: rest => if isDigit d then some (readDigits isDigit (d :: rest)) else none
  | [] => none

/-- The number of digits to a base. -/
def number (base : Nat) (digits : List Char) : Nat :=
  digits.foldl (fun n c => base * n + (Bytes.hexValue? c).getD 0) 0

/-- The digits of a decimal number, without leading zeros. -/
def wholeDigits : List Char → Option (List Char × List Char)
  | '0' :: rest => some (['0'], rest)
  | cs => someDigits Char.isDigit cs

/-- An integer, if it is one of 64 bits. -/
def integer? (v : Int) : Option Int :=
  if -2 ^ (63 : Nat) ≤ v ∧ v < 2 ^ (63 : Nat) then some v else none

/-- The least number that, as a float of 64 bits, is infinite. -/
def firstInfinite : Nat := 2 ^ (1024 : Nat) - 2 ^ (970 : Nat)

/-- Whether a mantissa times a power of ten is infinite as a float of 64 bits. -/
def isInfinite (mantissa : Nat) (exponent : Int) : Bool :=
  let magnitude := (Nat.toDigits 10 mantissa).length + exponent
  if mantissa = 0 then false
  else if magnitude < 300 then false
  else if 320 < magnitude then true
  else if 0 ≤ exponent then firstInfinite ≤ mantissa * 10 ^ exponent.toNat
  else firstInfinite * 10 ^ (-exponent).toNat ≤ mantissa

/-- Whether a number is negative, and what follows its sign, if it has one. -/
def readSign : List Char → Bool × List Char
  | '-' :: rest => (true, rest)
  | '+' :: rest => (false, rest)
  | cs => (false, cs)

/-- The digits after a point, if there is one. -/
def readFraction : List Char → Option (Option (List Char) × List Char)
  | '.' :: rest => (someDigits Char.isDigit rest).map fun (digits, rest) => (some digits, rest)
  | cs => some (none, cs)

/-- The power of ten after an exponent's letter, if there is one. -/
def readExponent : List Char → Option (Option Int × List Char)
  | c :: rest =>
    if c = 'e' ∨ c = 'E' then do
      let (isNegative, rest) := readSign rest
      let (digits, rest) ← someDigits Char.isDigit rest
      let n : Int := number 10 digits
      pure (some (if isNegative then -n else n), rest)
    else some (none, c :: rest)
  | [] => some (none, [])

/-- A decimal number: an integer of 64 bits, or else a float, of which there is no use. A positive
float must not be infinite. -/
def readDecimal (cs : List Char) : Option (Option Int × List Char) := do
  let (isNegative, rest) := readSign cs
  let (digits, rest) ← wholeDigits rest
  let (fraction, rest) ← readFraction rest
  let (exponent, rest) ← readExponent rest
  if fraction.isNone ∧ exponent.isNone then
    let n : Int := number 10 digits
    let v ← integer? (if isNegative then -n else n)
    pure (some v, rest)
  else
    let after := fraction.getD []
    if !isNegative && isInfinite (number 10 (digits ++ after)) (exponent.getD 0 - after.length) then
      none
    else pure (none, rest)

/-- A number of some base after its two letters. -/
def readBased (base : Nat) (isDigit : Char → Bool) (cs : List Char) :
    Option (Option Int × List Char) := do
  let (digits, rest) ← someDigits isDigit cs
  let v ← integer? (number base digits)
  pure (some v, rest)

/-- Whether a character is a digit to base eight. -/
def isOctal (c : Char) : Bool :=
  c.isDigit && c ≠ '8' && c ≠ '9'

/-- A number: an integer, or a float, of which there is no use. -/
def readNumber : List Char → Option (Option Int × List Char)
  | '0' :: 'x' :: rest => readBased 16 (fun c => (Bytes.hexValue? c).isSome) rest
  | '0' :: 'o' :: rest => readBased 8 isOctal rest
  | '0' :: 'b' :: rest => readBased 2 (fun c => c = '0' || c = '1') rest
  | cs => readDecimal cs

/-! ### Dates and times -/

/-- A number of exactly `width` digits in a range. -/
def readField (width low high : Nat) (cs : List Char) : Option (Nat × List Char) :=
  let digits := cs.take width
  let n := number 10 digits
  if digits.length = width ∧ digits.all Char.isDigit ∧ low ≤ n ∧ n ≤ high then
    some (n, cs.drop width)
  else none

/-- What follows a character that has to come next. -/
def expect (c : Char) : List Char → Option (List Char)
  | d :: rest => if d = c then some rest else none
  | [] => none

/-- The days of a month. -/
def daysOf (year month : Nat) : Nat :=
  if month = 2 then
    if year % 4 = 0 ∧ (year % 100 ≠ 0 ∨ year % 400 = 0) then 29 else 28
  else if month = 4 ∨ month = 6 ∨ month = 9 ∨ month = 11 then 30
  else 31

/-- What follows a date. -/
def skipDate (cs : List Char) : Option (List Char) := do
  let (year, rest) ← readField 4 0 9999 cs
  let (month, rest) ← readField 2 1 12 (← expect '-' rest)
  let (_, rest) ← readField 2 1 (daysOf year month) (← expect '-' rest)
  pure rest

/-- What follows the digits after a point, if there is one. -/
def skipSubseconds : List Char → Option (List Char)
  | '.' :: rest =>
    match rest.takeWhile Char.isDigit with
    | [] => none
    | _ => some (rest.dropWhile Char.isDigit)
  | cs => some cs

/-- What follows a time. -/
def skipTime (cs : List Char) : Option (List Char) := do
  let (_, rest) ← readField 2 0 23 cs
  let (_, rest) ← readField 2 0 59 (← expect ':' rest)
  let (_, rest) ← readField 2 0 60 (← expect ':' rest)
  skipSubseconds rest

/-- What follows the offset of a time. -/
def skipOffset : List Char → Option (List Char)
  | c :: rest =>
    if c = 'Z' ∨ c = 'z' then some rest
    else if c = '+' ∨ c = '-' then do
      let (_, rest) ← readField 2 0 23 rest
      let (_, rest) ← readField 2 0 59 (← expect ':' rest)
      pure rest
    else none
  | [] => none

/-- What follows the time of a day, if there is one. -/
def skipTimeOfDay (cs : List Char) : List Char :=
  match cs with
  | c :: rest =>
    if c = 'T' ∨ c = 't' ∨ c = ' ' then
      match skipTime rest with
      | some rest => (skipOffset rest).getD rest
      | none => cs
    else cs
  | [] => cs

/-- What follows a date, a time, or both. -/
def readMoment (cs : List Char) : Option (List Char) :=
  match skipDate cs with
  | some rest => some (skipTimeOfDay rest)
  | none => skipTime cs

end Embedder.Toml
