import Mathlib.Data.List.DropRight
import Embedder.Config.Json

namespace Embedder.Json

/-!
# How documents are spelled in JSON

The grammar of JSON, as a relation between a text, what stands at its start, and how it goes on.
Every way to spell a document is read as that document, by induction on the spelling: blanks are
passed over, escapes are resolved, and the bound on how often parts are entered is never met,
because every part takes up at least one character.

* `Blanks`, `Quoted`, `Whole`, `Fraction`, `Exponent`: the parts that are spelled without nesting.
* `Spells`: documents, and the insides of lists and records.
* `Spells.reads`: what is read at the start of a spelling.
* `read?_of_spelled`: whole texts.
* `spelled_write`: what is written is a spelling.
-/

/-! ### The grammar -/

/-- The first text is the second one after any number of blanks. -/
def Blanks (s t : List Char) : Prop :=
  ∃ bs : List Char, (∀ c ∈ bs, isBlank c) ∧ s = bs ++ t

/-- The letters that name a character after a backslash. -/
def letters : List (Char × Char) :=
  [('"', '"'), ('\\', '\\'), ('/', '/'), ('b', '\x08'), ('f', '\x0c'), ('n', '\n'), ('r', '\r'),
    ('t', '\t')]

/-- Characters up to a closing quote: the text that spells them, the characters, and the rest. -/
inductive Quoted : List Char → List Char → List Char → Prop where
  | close (t : List Char) : Quoted ('"' :: t) [] t
  | plain {s cs t : List Char} {c : Char} (printable : 32 ≤ c.toNat) (quote : c ≠ '"')
    (backslash : c ≠ '\\') (more : Quoted s cs t) : Quoted (c :: s) (c :: cs) t
  | letter {s cs t : List Char} {l c : Char} (named : (l, c) ∈ letters) (more : Quoted s cs t) :
    Quoted ('\\' :: l :: s) (c :: cs) t
  | number {s cs t : List Char} {h₁ h₂ h₃ h₄ c : Char}
    (value : hexNumber? [h₁, h₂, h₃, h₄] = some c.toNat) (more : Quoted s cs t) :
    Quoted ('\\' :: 'u' :: h₁ :: h₂ :: h₃ :: h₄ :: s) (c :: cs) t
  | halves {s cs t : List Char} {h₁ h₂ h₃ h₄ l₁ l₂ l₃ l₄ c : Char} {high low : Nat}
    (first : hexNumber? [h₁, h₂, h₃, h₄] = some high) (isHigh : 0xD800 ≤ high ∧ high < 0xDC00)
    (second : hexNumber? [l₁, l₂, l₃, l₄] = some low) (isLow : 0xDC00 ≤ low ∧ low < 0xE000)
    (value : c.toNat = 0x10000 + (high - 0xD800) * 0x400 + (low - 0xDC00))
    (more : Quoted s cs t) :
    Quoted ('\\' :: 'u' :: h₁ :: h₂ :: h₃ :: h₄ :: '\\' :: 'u' :: l₁ :: l₂ :: l₃ :: l₄ :: s)
      (c :: cs) t

/-- Decimal digits, of which there is one at least. -/
def Digits (ds : List Char) : Prop :=
  ds ≠ [] ∧ ∀ d ∈ ds, d.isDigit

/-- Decimal digits without leading zeros. -/
def Whole (ds : List Char) : Prop :=
  Digits ds ∧ (ds.head? = some '0' → ds = ['0'])

/-- The digits after a point, if there is one. -/
def Fraction (f : List Char) : Prop :=
  f = [] ∨ ∃ ds, Digits ds ∧ f = '.' :: ds

/-- An exponent, if there is one. -/
def Exponent (e : List Char) : Prop :=
  e = [] ∨ ∃ c sign ds, (c = 'e' ∨ c = 'E') ∧ (sign = [] ∨ sign = ['+'] ∨ sign = ['-']) ∧
    Digits ds ∧ e = c :: (sign ++ ds)

/-- What may stand at the start of a text: a document, or the inside of a list or of a record up to
and with its closing bracket. -/
inductive Part where
  | value (n : Node)
  | items (ns : List Node)
  | fields (fs : List (String × Node))

/-- A text, what is spelled at its start, and how it goes on. Truth values and numbers that are not
integers are values of no use. -/
inductive Spells : List Char → Part → List Char → Prop where
  | nullWord (t : List Char) : Spells ('n' :: 'u' :: 'l' :: 'l' :: t) (.value .null) t
  | trueWord (t : List Char) : Spells ('t' :: 'r' :: 'u' :: 'e' :: t) (.value .other) t
  | falseWord (t : List Char) : Spells ('f' :: 'a' :: 'l' :: 's' :: 'e' :: t) (.value .other) t
  | natural {ds : List Char} (t : List Char) (whole : Whole ds) :
    Spells (ds ++ t) (.value (.integer (Nat.ofDigitChars 10 ds 0))) t
  | negative {ds : List Char} (t : List Char) (whole : Whole ds) (nonzero : ds ≠ ['0']) :
    Spells ('-' :: (ds ++ t)) (.value (.integer (-(Nat.ofDigitChars 10 ds 0 : Int)))) t
  | negativeZero (t : List Char) : Spells ('-' :: '0' :: t) (.value .other) t
  | real {sign ds f e : List Char} (t : List Char) (signed : sign = [] ∨ sign = ['-'])
    (whole : Whole ds) (fraction : Fraction f) (exponent : Exponent e) (either : f ++ e ≠ []) :
    Spells (sign ++ (ds ++ (f ++ (e ++ t)))) (.value .other) t
  | text {s cs t : List Char} (quoted : Quoted s cs t) :
    Spells ('"' :: s) (.value (.text (String.ofList cs))) t
  | emptyList {s t : List Char} (close : Blanks s (']' :: t)) :
    Spells ('[' :: s) (.value (.list [])) t
  | list {s t : List Char} {ns : List Node} (inside : Spells s (.items ns) t) :
    Spells ('[' :: s) (.value (.list ns)) t
  | emptyRecord {s t : List Char} (close : Blanks s ('\x7d' :: t)) :
    Spells ('\x7b' :: s) (.value (.record [])) t
  | record {s t : List Char} {fs : List (String × Node)} (inside : Spells s (.fields fs) t) :
    Spells ('\x7b' :: s) (.value (.record fs)) t
  | lastItem {s u v t : List Char} {n : Node} (before : Blanks s u) (item : Spells u (.value n) v)
    (close : Blanks v (']' :: t)) : Spells s (.items [n]) t
  | item {s u v w t : List Char} {n : Node} {ns : List Node} (before : Blanks s u)
    (item : Spells u (.value n) v) (comma : Blanks v (',' :: w)) (more : Spells w (.items ns) t) :
    Spells s (.items (n :: ns)) t
  | lastField {s k u v w x t : List Char} {name : List Char} {n : Node}
    (before : Blanks s ('"' :: k)) (quoted : Quoted k name u) (colon : Blanks u (':' :: v))
    (between : Blanks v w)
    (value : Spells w (.value n) x) (close : Blanks x ('\x7d' :: t)) :
    Spells s (.fields [(String.ofList name, n)]) t
  | field {s k u v w x y t : List Char} {name : List Char} {n : Node} {fs : List (String × Node)}
    (before : Blanks s ('"' :: k)) (quoted : Quoted k name u) (colon : Blanks u (':' :: v))
    (between : Blanks v w) (value : Spells w (.value n) x) (comma : Blanks x (',' :: y))
    (more : Spells y (.fields fs) t) : Spells s (.fields ((String.ofList name, n) :: fs)) t

/-- A text spells a document, with blanks before it and after it. -/
def Spelled (text : String) (n : Node) : Prop :=
  ∃ s t, Blanks text.toList s ∧ Spells s (.value n) t ∧ Blanks t []

/-! ### Blanks -/

theorem Blanks.refl (s : List Char) : Blanks s s :=
  ⟨[], by simp, rfl⟩

/-- There may be no blanks at all. -/
theorem Blanks.length_le {s t : List Char} (blanks : Blanks s t) : t.length ≤ s.length := by
  obtain ⟨bs, -, rfl⟩ := blanks
  simp

/-- Blanks are passed over, with those behind them. -/
theorem Blanks.skip {s t : List Char} (blanks : Blanks s t) : skipBlanks s = skipBlanks t := by
  obtain ⟨bs, blank, rfl⟩ := blanks
  induction bs with
  | nil => rfl
  | cons b bs ih =>
    obtain ⟨first, rest⟩ := List.forall_mem_cons.1 blank
    rw [← ih rest]
    exact List.dropWhile_cons_of_pos first

/-- What begins with something else is not passed over. -/
theorem skipBlanks_cons {c : Char} {t : List Char} (h : isBlank c = false) :
    skipBlanks (c :: t) = c :: t :=
  List.dropWhile_cons_of_neg (by simp [h])

/-- After blanks there are no blanks. -/
theorem skipBlanks_skipBlanks (s : List Char) : skipBlanks (skipBlanks s) = skipBlanks s :=
  List.dropWhile_idempotent isBlank s

/-- A sign is found behind blanks. -/
theorem Blanks.expect {s t : List Char} {c : Char} (blanks : Blanks s (c :: t))
    (h : isBlank c = false) : expect c s = some t := by
  rw [Json.expect, blanks.skip, skipBlanks_cons h]
  exact if_pos rfl

/-- After a comma, there is more to come. -/
theorem Blanks.endOrComma_comma {s t : List Char} (blanks : Blanks s (',' :: t)) (close : Char) :
    endOrComma close s = some (.inl t) := by
  rw [endOrComma, blanks.skip, skipBlanks_cons rfl]
  rfl

/-- Where a bracket closes, there is no more. -/
theorem Blanks.endOrComma_close {s t : List Char} {close : Char} (blanks : Blanks s (close :: t))
    (notBlank : isBlank close = false) (notComma : close ≠ ',') :
    endOrComma close s = some (.inr t) := by
  rw [endOrComma, blanks.skip, skipBlanks_cons notBlank]
  simp only [if_neg notComma, if_pos]

/-- A value is read in the same way behind other blanks. -/
theorem readNode_of_skip {s t : List Char} (same : skipBlanks s = skipBlanks t) (fuel : Nat) :
    readNode fuel s = readNode fuel t := by
  cases fuel with
  | zero => rfl
  | succ fuel => rw [readNode, readNode, same]

/-- So are items. -/
theorem readItems_skipBlanks (fuel : Nat) (s : List Char) :
    readItems fuel (skipBlanks s) = readItems fuel s := by
  cases fuel with
  | zero => rfl
  | succ fuel =>
    rw [readItems, readItems, readNode_of_skip (skipBlanks_skipBlanks s)]

/-- So are fields. -/
theorem readFields_skipBlanks (fuel : Nat) (s : List Char) :
    readFields fuel (skipBlanks s) = readFields fuel s := by
  cases fuel with
  | zero => rfl
  | succ fuel => rw [readFields, readFields, Json.expect, Json.expect, skipBlanks_skipBlanks]

/-! ### Texts -/

/-- A text takes up its closing quote at least. -/
theorem Quoted.length_lt {s cs t : List Char} (quoted : Quoted s cs t) : t.length < s.length := by
  induction quoted <;> simp only [List.length_cons] at * <;> omega

/-- The number of a character is not one of a half. -/
theorem isHalf_toNat (c : Char) : isHighHalf c.toNat = false ∧ isLowHalf c.toNat = false := by
  have valid : c.toNat < 0xD800 ∨ 0xDFFF < c.toNat ∧ c.toNat < 0x110000 := c.valid
  simp only [isHighHalf, isLowHalf, Bool.and_eq_false_iff, decide_eq_false_iff_not]
  omega

/-- No character is a half, so each stands for itself. -/
theorem joinHalves?_cons (c : Char) {us : List Nat} {cs : List Char}
    (joined : joinHalves? us = some cs) : joinHalves? (c.toNat :: us) = some (c :: cs) := by
  obtain ⟨notHigh, notLow⟩ := isHalf_toNat c
  cases us with
  | nil =>
    cases joined
    simp [joinHalves?, notHigh, notLow]
  | cons m us => simp [joinHalves?, notHigh, notLow, joined]

/-- A high half and a low half stand for one character. -/
theorem joinHalves?_halves {c : Char} {high low : Nat} {us : List Nat} {cs : List Char}
    (isHigh : 0xD800 ≤ high ∧ high < 0xDC00) (isLow : 0xDC00 ≤ low ∧ low < 0xE000)
    (value : c.toNat = 0x10000 + (high - 0xD800) * 0x400 + (low - 0xDC00))
    (joined : joinHalves? us = some cs) : joinHalves? (high :: low :: us) = some (c :: cs) := by
  have first : isHighHalf high = true := by simpa [isHighHalf] using isHigh
  have second : isLowHalf low = true := by simpa [isLowHalf] using isLow
  simp [joinHalves?, first, second, joined, ← value]

/-- Every letter that names a character is read as that character. -/
theorem ofShortEscape?_of_mem {l c : Char} (named : (l, c) ∈ letters) :
    ofShortEscape? l = some c := by
  have all : ∀ entry ∈ letters, ofShortEscape? entry.1 = some entry.2 := by decide
  exact all _ named

/-- The characters of a quoted text are read, by way of numbers of which two may make one
character. -/
theorem Quoted.reads {s cs t : List Char} (quoted : Quoted s cs t) :
    ∃ us, readUnits s = some (us, t) ∧ joinHalves? us = some cs := by
  -- Units are read first and joined afterwards, so both are carried along.
  induction quoted with
  | close t => exact ⟨[], rfl, rfl⟩
  | @plain s cs t c printable quote backslash _ ih =>
    obtain ⟨us, read, joined⟩ := ih
    refine ⟨c.toNat :: us, ?_, joinHalves?_cons c joined⟩
    have allowed : ¬ (c.toNat < 32 ∨ c = '\\') := by
      rintro (control | rfl)
      · omega
      · exact backslash rfl
    rw [readUnits, if_neg allowed, read]
    · rfl
    all_goals simp_all
  | @letter s cs t l c named _ ih =>
    obtain ⟨us, read, joined⟩ := ih
    refine ⟨c.toNat :: us, ?_, joinHalves?_cons c joined⟩
    have escape := ofShortEscape?_of_mem named
    have other : l ≠ 'u' := by
      rintro rfl
      cases escape
    rw [readUnits, escape, read]
    · rfl
    all_goals simp_all
  | @number s cs t h₁ h₂ h₃ h₄ c value _ ih =>
    obtain ⟨us, read, joined⟩ := ih
    exact ⟨c.toNat :: us, by simp [readUnits, value, read], joinHalves?_cons c joined⟩
  | @halves s cs t h₁ h₂ h₃ h₄ l₁ l₂ l₃ l₄ c high low first isHigh second isLow value _ ih =>
    obtain ⟨us, read, joined⟩ := ih
    exact ⟨high :: low :: us, by simp [readUnits, first, second, read],
      joinHalves?_halves isHigh isLow value joined⟩

/-- A text is read as the characters that it spells. -/
theorem Quoted.readText {s cs t : List Char} (quoted : Quoted s cs t) :
    readText s = some (some (String.ofList cs), t) := by
  obtain ⟨us, read, joined⟩ := quoted.reads
  simp [Json.readText, read, joined]

/-! ### Numbers -/

/-- What may follow a document: a blank, a comma, a closing bracket, or nothing. -/
def Ends (t : List Char) : Prop :=
  ∀ c ∈ t.head?, isBlank c ∨ c = ',' ∨ c = ']' ∨ c = '\x7d'

/-- What follows a value continues no digits. -/
theorem Ends.not_digit {t : List Char} (ends : Ends t) : ∀ c ∈ t.head?, c.isDigit = false := by
  intro c first
  rcases ends c first with blank | rfl | rfl | rfl
  · simp only [isBlank, Bool.or_eq_true, decide_eq_true_eq] at blank
    rcases blank with ((rfl | rfl) | rfl) | rfl <;> rfl
  all_goals rfl

/-- A text is cut where what is looked for ends. -/
theorem takeWhile_dropWhile_append {p : Char → Bool} {front rest : List Char}
    (inside : ∀ c ∈ front, p c = true) (stops : ∀ c ∈ rest.head?, p c = false) :
    (front ++ rest).takeWhile p = front ∧ (front ++ rest).dropWhile p = rest := by
  rw [List.takeWhile_append_of_pos inside, List.dropWhile_append_of_pos inside]
  cases rest with
  | nil => simp
  | cons c rest => simp [stops c rfl]

/-- Digits are read to their end. -/
theorem someDigits_append {ds t : List Char} (digits : Digits ds)
    (ends : ∀ c ∈ t.head?, c.isDigit = false) : someDigits (ds ++ t) = some (ds, t) := by
  obtain ⟨nonempty, digit⟩ := digits
  obtain ⟨first, rest⟩ := takeWhile_dropWhile_append digit ends
  rw [someDigits, first, rest]
  cases ds with
  | nil => exact absurd rfl nonempty
  | cons d ds => rfl

/-- A whole number is read to its end. -/
theorem wholeDigits_append {ds t : List Char} (whole : Whole ds)
    (ends : ∀ c ∈ t.head?, c.isDigit = false) : wholeDigits (ds ++ t) = some (ds, t) := by
  obtain ⟨digits, zero⟩ := whole
  by_cases first : ds.head? = some '0'
  · rw [zero first]
    rfl
  · rw [wholeDigits.eq_def]
    split
    case h_1 rest same =>
      cases ds with
      | nil => exact absurd rfl digits.1
      | cons d ds =>
        cases same
        exact absurd rfl first
    case h_2 => exact someDigits_append digits ends

theorem decimalNumber_eq (ds : List Char) : decimalNumber ds = Nat.ofDigitChars 10 ds 0 := rfl

/-- Something that begins with a digit or a sign follows no number. -/
theorem skipFraction_append {f t : List Char} (fraction : Fraction f)
    (ends : ∀ c ∈ t.head?, c.isDigit = false ∧ c ≠ '.') :
    skipFraction (f ++ t) = some (!f.isEmpty, t) := by
  rcases fraction with rfl | ⟨ds, digits, rfl⟩
  · cases t with
    | nil => rfl
    | cons c t =>
      have other := (ends c rfl).2
      rw [List.nil_append, skipFraction.eq_def]
      split
      case h_1 same =>
        cases same
        exact absurd rfl other
      case h_2 => rfl
  · rw [List.cons_append, skipFraction, someDigits_append digits fun c first => (ends c first).1]
    rfl

/-- A sign before digits is passed over. -/
theorem skipSign_append {sign ds t : List Char}
    (signed : sign = [] ∨ sign = ['+'] ∨ sign = ['-']) (digits : Digits ds) :
    skipSign (sign ++ (ds ++ t)) = ds ++ t := by
  rcases signed with rfl | rfl | rfl
  · obtain ⟨nonempty, digit⟩ := digits
    cases ds with
    | nil => exact absurd rfl nonempty
    | cons d ds =>
      have := digit d (by simp)
      rw [List.nil_append, List.cons_append, skipSign.eq_def]
      split
      case h_1 same => cases same; cases this
      case h_2 same => cases same; cases this
      case h_3 => rfl
  · rfl
  · rfl

/-- An exponent is passed over, and it is known whether there was one. -/
theorem skipExponent_append {e t : List Char} (exponent : Exponent e) (ends : Ends t) :
    skipExponent (e ++ t) = some (!e.isEmpty, t) := by
  rcases exponent with rfl | ⟨c, sign, ds, letter, signed, digits, rfl⟩
  · cases t with
    | nil => rfl
    | cons c t =>
      have follows := ends c rfl
      rw [List.nil_append, skipExponent.eq_def]
      split
      case h_1 same => cases same; simp [isBlank] at follows
      case h_2 same => cases same; simp [isBlank] at follows
      case h_3 => rfl
  · have read := someDigits_append digits ends.not_digit
    have signless := skipSign_append (t := t) signed digits
    rcases letter with rfl | rfl <;>
      simp [skipExponent, signless, read]

/-- What begins with a fraction or an exponent, or follows a document, begins with no digit. -/
theorem not_digit_of_parts {f e t : List Char} (fraction : Fraction f) (exponent : Exponent e)
    (ends : Ends t) :
    (∀ c ∈ (f ++ (e ++ t)).head?, c.isDigit = false) ∧
      ∀ c ∈ (e ++ t).head?, c.isDigit = false ∧ c ≠ '.' := by
  have scaled : ∀ c ∈ (e ++ t).head?, c.isDigit = false ∧ c ≠ '.' := by
    intro c first
    rcases exponent with rfl | ⟨x, sign, ds, letter, -, -, rfl⟩
    · refine ⟨ends.not_digit c first, ?_⟩
      rintro rfl
      simpa [isBlank] using ends '.' first
    · cases first
      rcases letter with rfl | rfl <;> exact ⟨rfl, by decide⟩
  refine ⟨fun c first => ?_, scaled⟩
  rcases fraction with rfl | ⟨ds, -, rfl⟩
  · exact (scaled c first).1
  · cases first
    rfl

/-- A number is read as an integer just if it has neither a fraction nor an exponent. -/
theorem readMagnitude_append {ds f e t : List Char} (whole : Whole ds) (fraction : Fraction f)
    (exponent : Exponent e) (ends : Ends t) :
    readMagnitude (ds ++ (f ++ (e ++ t))) =
      some (if f ++ e = [] then some (decimalNumber ds) else none, t) := by
  obtain ⟨notDigit, notPoint⟩ := not_digit_of_parts fraction exponent ends
  simp only [readMagnitude, wholeDigits_append whole notDigit,
    skipFraction_append fraction notPoint, skipExponent_append exponent ends, Option.bind_eq_bind,
    Option.bind_some, Option.pure_def, Option.some.injEq, Prod.mk.injEq, and_true]
  cases f <;> cases e <;> rfl

/-- Digits behind a number make it no smaller. -/
theorem le_ofDigitChars (ds : List Char) (n : Nat) : n ≤ Nat.ofDigitChars 10 ds n := by
  induction ds generalizing n with
  | nil => simp
  | cons d ds ih =>
    rw [Nat.ofDigitChars_cons]
    have := ih (10 * n + (d.toNat - '0'.toNat))
    omega

/-- The digits of a number that is not written as zero do not make zero. -/
theorem Whole.pos {ds : List Char} (whole : Whole ds) (nonzero : ds ≠ ['0']) :
    0 < Nat.ofDigitChars 10 ds 0 := by
  obtain ⟨⟨nonempty, digit⟩, zero⟩ := whole
  cases ds with
  | nil => exact absurd rfl nonempty
  | cons d ds =>
    have other : d ≠ '0' := by
      rintro rfl
      exact nonzero (zero rfl)
    have above : '0'.toNat < d.toNat := by
      have low := (Char.isDigit_iff_toNat.1 (digit d (by simp))).1
      refine Nat.lt_of_le_of_ne low fun same => other ?_
      exact (Char.toNat_inj.1 same).symm
    have := le_ofDigitChars ds (10 * 0 + (d.toNat - '0'.toNat))
    rw [Nat.ofDigitChars_cons]
    omega

/-- A whole number has no sign. -/
theorem Whole.head_ne_minus {ds t : List Char} (whole : Whole ds) :
    ∀ rest, ds ++ t ≠ '-' :: rest := by
  rintro rest same
  obtain ⟨⟨nonempty, digit⟩, -⟩ := whole
  cases ds with
  | nil => exact nonempty rfl
  | cons d ds =>
    cases same
    cases digit '-' (by simp)

/-- A number without a sign. -/
theorem readNumber_of_whole {ds f e t : List Char} (whole : Whole ds) (fraction : Fraction f)
    (exponent : Exponent e) (ends : Ends t) :
    readNumber (ds ++ (f ++ (e ++ t))) =
      some (if f ++ e = [] then .integer (Nat.ofDigitChars 10 ds 0) else .other, t) := by
  rw [readNumber.eq_def]
  split
  case h_1 same => exact absurd same (whole.head_ne_minus _)
  case h_2 =>
    rw [readMagnitude_append whole fraction exponent ends, ← decimalNumber_eq]
    by_cases plain : f ++ e = [] <;> simp [plain]

/-- A number with a sign. -/
theorem readNumber_of_minus {ds f e t : List Char} (whole : Whole ds) (fraction : Fraction f)
    (exponent : Exponent e) (ends : Ends t) :
    readNumber ('-' :: (ds ++ (f ++ (e ++ t)))) =
      some (if f ++ e = [] ∧ ds ≠ ['0'] then .integer (-(Nat.ofDigitChars 10 ds 0 : Int))
        else .other, t) := by
  rw [readNumber, readMagnitude_append whole fraction exponent ends, decimalNumber_eq]
  by_cases plain : f ++ e = []
  · by_cases nonzero : ds = ['0']
    · subst nonzero
      simp [plain]
      rfl
    · obtain ⟨n, value⟩ := Nat.exists_eq_add_of_lt (whole.pos nonzero)
      rw [Nat.zero_add] at value
      simp [plain, nonzero, value]
  · simp [plain]

/-! ### Documents -/

/-- The name of a field takes up two quotes and a colon at least. -/
theorem length_le_of_name {s k u v w name : List Char} (before : Blanks s ('"' :: k))
    (quoted : Quoted k name u) (colon : Blanks u (':' :: v)) (between : Blanks v w) :
    w.length + 3 ≤ s.length := by
  have := before.length_le
  have := quoted.length_lt
  have := colon.length_le
  have := between.length_le
  simp only [List.length_cons] at *
  omega

/-- What is spelled takes up some of the text. -/
theorem Spells.length_lt {s t : List Char} {p : Part} (spells : Spells s p t) :
    t.length < s.length := by
  -- Every part has a character of its own: a word, a digit, a quote, a bracket or a comma.
  induction spells with
  | nullWord | trueWord | falseWord | negativeZero =>
    simp only [List.length_cons]
    omega
  | natural t whole | negative t whole =>
    have := List.length_pos_iff.2 whole.1.1
    simp only [List.length_append, List.length_cons]
    omega
  | real t _ whole =>
    have := List.length_pos_iff.2 whole.1.1
    simp only [List.length_append]
    omega
  | text quoted =>
    have := quoted.length_lt
    simp only [List.length_cons]
    omega
  | emptyList close | emptyRecord close =>
    have := close.length_le
    simp only [List.length_cons] at this ⊢
    omega
  | list _ ih | record _ ih =>
    simp only [List.length_cons]
    omega
  | lastItem before _ close ih =>
    have := before.length_le
    have := close.length_le
    simp only [List.length_cons] at this
    omega
  | item before _ comma _ ih ih' =>
    have := before.length_le
    have := comma.length_le
    simp only [List.length_cons] at this
    omega
  | lastField before quoted colon between _ close ih =>
    have := length_le_of_name before quoted colon between
    have := close.length_le
    simp only [List.length_cons] at this
    omega
  | field before quoted colon between _ comma _ ih ih' =>
    have := length_le_of_name before quoted colon between
    have := comma.length_le
    simp only [List.length_cons] at this
    omega

/-- A digit is none of the characters that separate the parts of a document. -/
theorem isBlank_of_isDigit {d : Char} (digit : d.isDigit) : isBlank d = false ∧ d ≠ ']' := by
  constructor
  · by_contra blank
    simp only [isBlank, Bool.not_eq_false, Bool.or_eq_true, decide_eq_true_eq] at blank
    rcases blank with ((rfl | rfl) | rfl) | rfl <;> cases digit
  · rintro rfl
    cases digit

/-- A document begins with a character that is no blank and closes no bracket. -/
theorem Spells.exists_first {s t : List Char} {n : Node} (spells : Spells s (.value n) t) :
    ∃ c rest, s = c :: rest ∧ isBlank c = false ∧ c ≠ ']' := by
  have digit : ∀ {ds : List Char}, Whole ds → ∀ u, ∃ c rest, ds ++ u = c :: rest ∧
      isBlank c = false ∧ c ≠ ']' := by
    rintro ds ⟨⟨nonempty, digit⟩, -⟩ u
    cases ds with
    | nil => exact absurd rfl nonempty
    | cons d ds => exact ⟨d, ds ++ u, rfl, isBlank_of_isDigit (digit d (by simp))⟩
  cases spells with
  | natural t whole => exact digit whole t
  | real t signed whole =>
    rcases signed with rfl | rfl
    · exact digit whole _
    · exact ⟨'-', _, rfl, rfl, by decide⟩
  | _ => exact ⟨_, _, rfl, rfl, by decide⟩

/-- Where a digit or a sign comes next, a number is read. -/
theorem readNode_number {c : Char} (first : c = '-' ∨ c.isDigit) (fuel : Nat) (rest : List Char) :
    readNode (fuel + 1) (c :: rest) = readNumber (c :: rest) := by
  -- A number is the last case, so its first character must be none of the others.
  have other : ∀ d : Char, d.isDigit = false → d ≠ '-' → c ≠ d := by
    rintro d notDigit notMinus rfl
    rcases first with rfl | digit
    · exact notMinus rfl
    · cases notDigit.symm.trans digit
  have notBlank : isBlank c = false := by
    rcases first with rfl | digit
    · rfl
    · exact (isBlank_of_isDigit digit).1
  rw [readNode, skipBlanks_cons notBlank]
  split
  case h_1 same => exact absurd (List.cons.inj same).1 (other _ rfl (by decide))
  case h_2 same => exact absurd (List.cons.inj same).1 (other _ rfl (by decide))
  case h_3 same => exact absurd (List.cons.inj same).1 (other _ rfl (by decide))
  case h_4 =>
    rename_i same
    cases same
    exact if_pos first
  case h_5 same => cases same

/-- Where digits come next, a number is read. -/
theorem readNode_whole {ds : List Char} (whole : Whole ds) (fuel : Nat) (t : List Char) :
    readNode (fuel + 1) (ds ++ t) = readNumber (ds ++ t) := by
  obtain ⟨⟨nonempty, digit⟩, -⟩ := whole
  cases ds with
  | nil => exact absurd rfl nonempty
  | cons d ds => exact readNode_number (.inr (digit d (by simp))) fuel _

/-- Where a list opens that is not closed at once, its items are read. -/
theorem readNode_list {s u : List Char} {n : Node} {v : List Char} (before : Blanks s u)
    (item : Spells u (.value n) v) (fuel : Nat) :
    readNode (fuel + 1) ('[' :: s) =
      (readItems fuel s).map fun (items, rest) => (.list items, rest) := by
  obtain ⟨c, rest, rfl, notBlank, notClose⟩ := item.exists_first
  rw [readNode, skipBlanks_cons rfl]
  simp only
  rw [← readItems_skipBlanks fuel s, before.skip, skipBlanks_cons notBlank]
  split
  case h_1 same => exact absurd (List.cons.inj same).1 notClose
  case h_2 => rfl

/-- Where a record opens that is not closed at once, its fields are read. -/
theorem readNode_record {s k : List Char} (before : Blanks s ('"' :: k)) (fuel : Nat) :
    readNode (fuel + 1) ('\x7b' :: s) =
      (readFields fuel s).map fun (fields, rest) => (recordOf fields, rest) := by
  rw [readNode, skipBlanks_cons rfl]
  simp only
  rw [← readFields_skipBlanks fuel s, before.skip, skipBlanks_cons rfl]
  rfl

/-- A record whose names are all texts is one of these names. -/
theorem recordOf_some (fs : List (String × Node)) :
    recordOf (fs.map fun f => (some f.1, f.2)) = .record fs := by
  have all : (fs.map fun f => (some f.1, f.2)).mapM
      (fun f => f.1.map fun k => (k, f.2)) = some fs := by
    induction fs with
    | nil => rfl
    | cons f fs ih => simp [ih]
  rw [recordOf, all]

/-- Blanks follow a value if what closes or separates comes behind them. -/
theorem Blanks.ends {v t : List Char} {c : Char} (blanks : Blanks v (c :: t))
    (closes : c = ',' ∨ c = ']' ∨ c = '\x7d') : Ends v := by
  obtain ⟨bs, blank, rfl⟩ := blanks
  intro d first
  cases bs with
  | nil =>
    cases first
    exact .inr closes
  | cons b bs =>
    cases first
    exact .inl (blank d (by simp))

/-- What is read of a part where its spelling starts, given that parts may be entered often enough
for the length of the spelling. -/
def Read (s : List Char) (t : List Char) : Part → Prop
  | .value n => Ends t → ∀ fuel, 2 * s.length ≤ fuel + 1 + 2 * t.length →
    readNode (fuel + 1) s = some (n, t)
  | .items ns => ∀ fuel, 2 * s.length ≤ fuel + 2 * t.length → readItems (fuel + 1) s = some (ns, t)
  | .fields fs => ∀ fuel, 2 * s.length ≤ fuel + 2 * t.length →
    readFields (fuel + 1) s = some (fs.map fun f => (some f.1, f.2), t)

/-- **Reading.** What is spelled at the start of a text is read there. -/
theorem Spells.reads {s t : List Char} {p : Part} (spells : Spells s p t) : Read s t p := by
  -- The first item of a list is entered without a character between, so the bound is twice the
  -- length: a part that is entered after another one has cost a bracket, a comma or a colon.
  induction spells with
  | nullWord t => exact fun _ _ _ => rfl
  | trueWord t => exact fun _ _ _ => rfl
  | falseWord t => exact fun _ _ _ => rfl
  | natural t whole =>
    intro ends fuel enough
    have number := readNumber_of_whole whole (.inl rfl) (.inl rfl) ends
    rw [readNode_whole whole]
    simpa using number
  | negative t whole nonzero =>
    intro ends fuel enough
    have number := readNumber_of_minus whole (.inl rfl) (.inl rfl) ends
    rw [readNode_number (.inl rfl)]
    simpa [nonzero] using number
  | negativeZero t =>
    intro ends fuel enough
    have zero : Whole ['0'] := ⟨⟨by simp, by simp⟩, fun _ => rfl⟩
    have number := readNumber_of_minus zero (.inl rfl) (.inl rfl) ends
    rw [readNode_number (.inl rfl)]
    simpa using number
  | real t signed whole fraction exponent either =>
    intro ends fuel enough
    rcases signed with rfl | rfl
    · rw [List.nil_append, readNode_whole whole,
        readNumber_of_whole whole fraction exponent ends, if_neg either]
    · rw [List.singleton_append, readNode_number (.inl rfl),
        readNumber_of_minus whole fraction exponent ends, if_neg fun plain => either plain.1]
  | text quoted =>
    intro ends fuel enough
    rw [readNode, skipBlanks_cons rfl]
    simp [quoted.readText]
  | emptyList close =>
    intro ends fuel enough
    rw [readNode, skipBlanks_cons rfl]
    simp only [close.skip, skipBlanks_cons (c := ']') rfl]
  | emptyRecord close =>
    intro ends fuel enough
    rw [readNode, skipBlanks_cons rfl]
    simp only [close.skip, skipBlanks_cons (c := '\x7d') rfl]
  | @list s t ns inside ih =>
    intro ends fuel enough
    have := inside.length_lt
    simp only [List.length_cons] at enough
    obtain ⟨fuel, rfl⟩ : ∃ k, fuel = k + 1 := ⟨fuel - 1, by omega⟩
    have read := ih fuel (by omega)
    cases inside with
    | lastItem before item _ => rw [readNode_list before item, read]; rfl
    | item before item _ _ => rw [readNode_list before item, read]; rfl
  | @record s t fs inside ih =>
    intro ends fuel enough
    have := inside.length_lt
    simp only [List.length_cons] at enough
    obtain ⟨fuel, rfl⟩ : ∃ k, fuel = k + 1 := ⟨fuel - 1, by omega⟩
    have read := ih fuel (by omega)
    obtain ⟨k, before⟩ : ∃ k, Blanks s ('"' :: k) := by
      cases inside with
      | lastField before => exact ⟨_, before⟩
      | field before => exact ⟨_, before⟩
    rw [readNode_record before, read]
    exact congrArg (fun n => some (n, t)) (recordOf_some fs)
  | @lastItem s u v t n before item close ih =>
    intro fuel enough
    have := before.length_le
    have := item.length_lt
    have := close.length_le
    simp only [List.length_cons] at this
    obtain ⟨fuel, rfl⟩ : ∃ k, fuel = k + 1 := ⟨fuel - 1, by omega⟩
    have read := ih (close.ends (by simp)) fuel (by omega)
    have closed : endOrComma ']' v = some (.inr t) := close.endOrComma_close rfl (by decide)
    rw [readItems, readNode_of_skip before.skip, read]
    simp [closed]
  | @item s u v w t n ns before item comma more ih ih' =>
    intro fuel enough
    have := before.length_le
    have := item.length_lt
    have := comma.length_le
    have := more.length_lt
    simp only [List.length_cons] at *
    obtain ⟨fuel, rfl⟩ : ∃ k, fuel = k + 1 := ⟨fuel - 1, by omega⟩
    have read := ih (comma.ends (by simp)) fuel (by omega)
    have goesOn : endOrComma ']' v = some (.inl w) := comma.endOrComma_comma _
    rw [readItems, readNode_of_skip before.skip, read]
    simp [goesOn, ih' fuel (by omega)]
  | @lastField s k u v w x t name n before quoted colon between value close ih =>
    intro fuel enough
    have := length_le_of_name before quoted colon between
    have := value.length_lt
    have := close.length_le
    simp only [List.length_cons] at *
    obtain ⟨fuel, rfl⟩ : ∃ k, fuel = k + 1 := ⟨fuel - 1, by omega⟩
    have read := ih (close.ends (by simp)) fuel (by omega)
    have closed : endOrComma '\x7d' x = some (.inr t) := close.endOrComma_close rfl (by decide)
    rw [readFields, before.expect rfl]
    simp [quoted.readText, colon.expect rfl, readNode_of_skip between.skip, read, closed]
  | @field s k u v w x y t name n fs before quoted colon between value comma more ih ih' =>
    intro fuel enough
    have := length_le_of_name before quoted colon between
    have := value.length_lt
    have := comma.length_le
    have := more.length_lt
    simp only [List.length_cons] at *
    obtain ⟨fuel, rfl⟩ : ∃ k, fuel = k + 1 := ⟨fuel - 1, by omega⟩
    have read := ih (comma.ends (by simp)) fuel (by omega)
    have goesOn : endOrComma '\x7d' x = some (.inl y) := comma.endOrComma_comma _
    rw [readFields, before.expect rfl]
    simp [quoted.readText, colon.expect rfl, readNode_of_skip between.skip, read, goesOn,
      ih' fuel (by omega)]

/-- A text that spells a document is read as that document. -/
theorem read?_of_spelled {text : String} {n : Node} (spelled : Spelled text n) :
    read? text = some n := by
  obtain ⟨s, t, before, spells, after⟩ := spelled
  have := before.length_le
  have := spells.length_lt
  have ends : Ends t := by
    obtain ⟨bs, blank, rfl⟩ := after
    intro c first
    rw [List.append_nil] at first
    exact .inl (blank c (List.mem_of_head? first))
  have read := spells.reads ends (2 * text.toList.length + 1) (by omega)
  have done : skipBlanks t = [] := after.skip
  simp [read?, readNode_of_skip before.skip, read, done]

/-! ### What is written -/

/-- The four digits of a control character give its number. -/
theorem hexNumber?_control : ∀ n < 32,
    hexNumber? ['0', '0', Bytes.hexDigit (n / 16), Bytes.hexDigit (n % 16)] = some n := by
  decide

/-- The characters with a short escape are those that the grammar names. -/
theorem mem_letters_of_shortEscape? {c l : Char} (short : shortEscape? c = some l) :
    (l, c) ∈ letters := by
  unfold shortEscape? at short
  split_ifs at short <;> cases short <;> subst c <;> decide

/-- A character without a short escape is neither a quote nor a backslash. -/
theorem ne_of_shortEscape?_eq_none {c : Char} (short : shortEscape? c = none) :
    c ≠ '"' ∧ c ≠ '\\' := by
  constructor <;> rintro rfl <;> cases short

/-- A text is written as one of its spellings. -/
theorem quoted_escape (cs t : List Char) : Quoted (cs.flatMap escape ++ '"' :: t) cs t := by
  induction cs with
  | nil => exact .close t
  | cons c cs ih =>
    rw [List.flatMap_cons, List.append_assoc, escape]
    cases short : shortEscape? c with
    | some l => exact .letter (mem_letters_of_shortEscape? short) ih
    | none =>
      obtain ⟨quote, backslash⟩ := ne_of_shortEscape?_eq_none short
      by_cases control : c.toNat < 32
      · simp only [if_pos control]
        exact .number (hexNumber?_control _ control) ih
      · simp only [if_neg control]
        exact .plain (by omega) quote backslash ih

/-- Numbers are written without leading zeros. -/
theorem whole_toDigits (m : Nat) : Whole (Nat.toDigits 10 m) := by
  refine ⟨⟨Nat.toDigits_ne_nil, fun d => Nat.isDigit_of_mem_toDigits (by decide) (by decide)⟩, ?_⟩
  induction m using Nat.strongRecOn with
  | ind m ih =>
    intro first
    by_cases small : m < 10
    · rw [Nat.toDigits_of_lt_base small] at first ⊢
      exact congrArg (fun d => [d]) (Option.some.inj first)
    · -- The digits before the last one begin with zero too, so they are those of zero.
      rw [Nat.toDigits_eq_if (by decide), if_neg small,
        List.head?_append_of_ne_nil _ Nat.toDigits_ne_nil] at first
      have zero := Nat.ofDigitChars_ten_toDigits (n := m / 10)
      rw [ih (m / 10) (by omega) first] at zero
      have : 0 = m / 10 := zero
      omega

/-- An integer is written as one of its spellings. -/
theorem spells_integer (v : Int) (t : List Char) :
    Spells ((toString v).toList ++ t) (.value (.integer v)) t := by
  cases v with
  | ofNat m =>
    have written : (toString (Int.ofNat m)).toList = Nat.toDigits 10 m := by
      simp [Int.toString_eq_repr, Int.repr_eq_if]
    rw [written]
    have spells := Spells.natural t (whole_toDigits m)
    rwa [Nat.ofDigitChars_ten_toDigits] at spells
  | negSucc m =>
    have written : (toString (Int.negSucc m)).toList = '-' :: Nat.toDigits 10 (m + 1) := by
      simp [Int.toString_eq_repr, Int.repr_eq_if]
    -- Zero with a minus would not be an integer.
    have nonzero : Nat.toDigits 10 (m + 1) ≠ ['0'] := by
      intro zero
      have value := Nat.ofDigitChars_ten_toDigits (n := m + 1)
      rw [zero] at value
      cases value
    rw [written]
    have spells := Spells.negative t (whole_toDigits (m + 1)) nonzero
    rwa [Nat.ofDigitChars_ten_toDigits] at spells

/-- What is written for a text spells it. -/
theorem spells_writeText (k : String) (t : List Char) :
    ∃ s, writeText k ++ t = '"' :: s ∧ Quoted s k.toList t := by
  refine ⟨k.toList.flatMap escape ++ '"' :: t, ?_, quoted_escape _ _⟩
  simp [writeText]

mutual

/-- Every document is written as one of its spellings. -/
theorem spells_writeNode : ∀ (n : Node) (t : List Char), Spells (writeNode n ++ t) (.value n) t
  | .null, t => .nullWord t
  | .integer v, t => by
    rw [writeNode]
    exact spells_integer v t
  | .text s, t => by
    obtain ⟨cs, written, quoted⟩ := spells_writeText s t
    rw [writeNode, written]
    simpa using Spells.text quoted
  | .list items, t => by
    rw [writeNode, List.cons_append, List.append_assoc]
    cases items with
    | nil => exact .emptyList (.refl _)
    | cons n ns => exact .list (spells_writeItems (n :: ns) t (by simp))
  | .record fields, t => by
    rw [writeNode, List.cons_append, List.append_assoc]
    cases fields with
    | nil => exact .emptyRecord (.refl _)
    | cons f fs => exact .record (spells_writeFields (f :: fs) t (by simp))
  | .other, t => .trueWord t

/-- What is written for items spells them, by induction on values and on lists of them. -/
theorem spells_writeItems : ∀ (ns : List Node) (t : List Char), ns ≠ [] →
    Spells (writeItems ns ++ ']' :: t) (.items ns) t
  | [], _, nonempty => absurd rfl nonempty
  | [n], t, _ => .lastItem (.refl _) (spells_writeNode n _) (.refl _)
  | n :: m :: ns, t, _ => by
    rw [writeItems, List.append_assoc, List.cons_append]
    · exact .item (.refl _) (spells_writeNode n _) (.refl _)
        (spells_writeItems (m :: ns) t (by simp))
    · simp

/-- What is written for fields spells them. -/
theorem spells_writeFields : ∀ (fs : List (String × Node)) (t : List Char), fs ≠ [] →
    Spells (writeFields fs ++ '\x7d' :: t) (.fields fs) t
  | [], _, nonempty => absurd rfl nonempty
  | [(k, n)], t, _ => by
    obtain ⟨s, written, quoted⟩ := spells_writeText k (':' :: (writeNode n ++ '\x7d' :: t))
    have spells := Spells.lastField (.refl _) quoted (.refl _) (.refl _)
      (spells_writeNode n ('\x7d' :: t)) (.refl _)
    rw [String.ofList_toList, ← written] at spells
    simpa [writeFields] using spells
  | (k, n) :: f :: fs, t, _ => by
    obtain ⟨s, written, quoted⟩ := spells_writeText k
      (':' :: (writeNode n ++ ',' :: (writeFields (f :: fs) ++ '\x7d' :: t)))
    have spells := Spells.field (.refl _) quoted (.refl _) (.refl _)
      (spells_writeNode n (',' :: (writeFields (f :: fs) ++ '\x7d' :: t))) (.refl _)
      (spells_writeFields (f :: fs) t (by simp))
    rw [String.ofList_toList, ← written] at spells
    simpa [writeFields] using spells

end

/-- What is written for a document spells it. -/
theorem spelled_write (n : Node) : Spelled (write n) n := by
  refine ⟨writeNode n, [], ?_, ?_, .refl _⟩
  · rw [write, String.toList_ofList]
    exact .refl _
  · simpa using spells_writeNode n []

end Embedder.Json
