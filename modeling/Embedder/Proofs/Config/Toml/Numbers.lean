import Mathlib.Data.Nat.Digits.Defs
import Embedder.Proofs.Config.Toml.Spelling

namespace Embedder.Toml

/-!
# How values of one word are spelled in TOML

Numbers, dates, times and names. Each word is one value, and it is read as that value wherever it
comes before something that may follow a value. Dates are tried before numbers, so most of the work
is to tell the words apart: after the first digits of a number there is neither a dash nor a colon.

* `Grouped`, `Fraction`, `Exponent`: the digits of numbers.
* `Date`, `Time`, `Moment`: points in time.
* `Plain`: words with their values.
* `Plain.reads`: what is read; an integer that has more than 64 bits is none.
-/

-- Powers are those of the core library, whatever else is imported.
attribute [local instance (1100)] instPowNat

/-! ### The grammar -/

/-- Digits with single underscores between them, and the digits alone. -/
inductive Grouped (isDigit : Char → Bool) : List Char → List Char → Prop where
  | last {d : Char} (digit : isDigit d) : Grouped isDigit [d] [d]
  | digit {d : Char} {s ds : List Char} (digit : isDigit d) (more : Grouped isDigit s ds) :
    Grouped isDigit (d :: s) (d :: ds)
  | separator {d : Char} {s ds : List Char} (digit : isDigit d) (more : Grouped isDigit s ds) :
    Grouped isDigit (d :: '_' :: s) (d :: ds)

/-- A sign, if there is one. -/
def Sign (sign : List Char) : Prop :=
  sign = [] ∨ sign = ['+'] ∨ sign = ['-']

/-- Decimal digits without leading zeros, and the digits alone. -/
def Whole (s ds : List Char) : Prop :=
  Grouped Char.isDigit s ds ∧ (ds.head? = some '0' → ds = ['0'])

/-- The integer of a sign and some digits. -/
def integerOf (sign ds : List Char) : Int :=
  if sign = ['-'] then -Nat.ofDigitChars 10 ds 0 else Nat.ofDigitChars 10 ds 0

/-- A point with digits after it, if there is one, and the digits alone. -/
inductive Fraction : List Char → List Char → Prop where
  | absent : Fraction [] []
  | present {s ds : List Char} (grouped : Grouped Char.isDigit s ds) : Fraction ('.' :: s) ds

/-- A letter with a power of ten after it, if there is one, and the power. -/
inductive Exponent : List Char → Int → Prop where
  | absent : Exponent [] 0
  | present {c : Char} {sign s ds : List Char} (letter : c = 'e' ∨ c = 'E') (signed : Sign sign)
    (grouped : Grouped Char.isDigit s ds) : Exponent (c :: (sign ++ s)) (integerOf sign ds)

/-- A mantissa times a power of ten is finite as a float of 64 bits. -/
def IsFinite (mantissa : Nat) (exponent : Int) : Prop :=
  mantissa * 10 ^ exponent.toNat < firstInfinite * 10 ^ (-exponent).toNat

instance (mantissa : Nat) (exponent : Int) : Decidable (IsFinite mantissa exponent) :=
  inferInstanceAs (Decidable (_ < _))

/-- The letters after a zero that tell the base of a number. -/
def bases : List (Char × Nat) :=
  [('x', 16), ('o', 8), ('b', 2)]

/-- Whether a character is a digit to some base. -/
def isDigitTo (base : Nat) (c : Char) : Bool :=
  (Bytes.hexValue? c).any (· < base)

/-- A number of exactly `width` decimal digits in a range. -/
structure InRange (width low high : Nat) (ds : List Char) : Prop where
  width : ds.length = width
  digits : ∀ d ∈ ds, d.isDigit
  low : low ≤ Nat.ofDigitChars 10 ds 0
  high : Nat.ofDigitChars 10 ds 0 ≤ high

/-- The year, the month and the day. -/
inductive Date : List Char → Prop where
  | mk {y m d : List Char} (year : InRange 4 0 9999 y) (month : InRange 2 1 12 m)
    (day : InRange 2 1 (daysOf (Nat.ofDigitChars 10 y 0) (Nat.ofDigitChars 10 m 0)) d) :
    Date (y ++ '-' :: (m ++ '-' :: d))

/-- The hour, the minute, the second, and maybe a part of it. -/
inductive Time : List Char → Prop where
  | mk {h m s f : List Char} (hour : InRange 2 0 23 h) (minute : InRange 2 0 59 m)
    (second : InRange 2 0 60 s) (fraction : Json.Fraction f) :
    Time (h ++ ':' :: (m ++ ':' :: (s ++ f)))

/-- How far a time is from that of the zero meridian, if it is known. -/
inductive Offset : List Char → Prop where
  | absent : Offset []
  | zero {c : Char} (letter : c = 'Z' ∨ c = 'z') : Offset [c]
  | shifted {c : Char} {h m : List Char} (sign : c = '+' ∨ c = '-') (hour : InRange 2 0 23 h)
    (minute : InRange 2 0 59 m) : Offset (c :: (h ++ ':' :: m))

/-- A date, a time, or both. -/
inductive Moment : List Char → Prop where
  | date {d : List Char} (date : Date d) : Moment d
  | time {t : List Char} (time : Time t) : Moment t
  | both {d t o : List Char} {c : Char} (date : Date d) (separator : c = 'T' ∨ c = 't' ∨ c = ' ')
    (time : Time t) (offset : Offset o) : Moment (d ++ c :: (t ++ o))

/-- A word and its value. Integers may have any size here; a float must be finite unless it is
negative. -/
inductive Plain : List Char → Node → Prop where
  | decimal {sign s ds : List Char} (signed : Sign sign) (whole : Whole s ds) :
    Plain (sign ++ s) (.integer (integerOf sign ds))
  | based {letter : Char} {base : Nat} {s ds : List Char} (named : (letter, base) ∈ bases)
    (grouped : Grouped (isDigitTo base) s ds) :
    Plain ('0' :: letter :: s) (.integer (number base ds))
  | float {sign s ds f fs e : List Char} {x : Int} (signed : Sign sign) (whole : Whole s ds)
    (fraction : Fraction f fs) (exponent : Exponent e x) (either : f ++ e ≠ [])
    (finite : sign ≠ ['-'] → IsFinite (Nat.ofDigitChars 10 (ds ++ fs) 0) (x - fs.length)) :
    Plain (sign ++ (s ++ (f ++ e))) .other
  | truth {w : List Char} (named : w = ['t', 'r', 'u', 'e'] ∨ w = ['f', 'a', 'l', 's', 'e']) :
    Plain w .other
  | limit {sign w : List Char} (signed : Sign sign)
    (named : w = ['i', 'n', 'f'] ∨ w = ['n', 'a', 'n']) : Plain (sign ++ w) .other
  | moment {w : List Char} (moment : Moment w) : Plain w .other

/-! ### Digits -/

/-- A digit is no character that is none. -/
theorem isDigit_ne {c d : Char} (digit : c.isDigit = true) (other : d.isDigit = false) : c ≠ d := by
  rintro rfl
  cases digit.symm.trans other

section Grouped

variable {isDigit : Char → Bool} {s ds : List Char} (grouped : Grouped isDigit s ds)
include grouped

/-- There is a digit at least, and there is nothing else without the underscores. -/
theorem Grouped.digits : ds ≠ [] ∧ ∀ d ∈ ds, isDigit d := by
  induction grouped with
  | last digit => exact ⟨by simp, by simpa using digit⟩
  | digit digit _ ih => exact ⟨by simp, List.forall_mem_cons.2 ⟨digit, ih.2⟩⟩
  | separator digit _ ih => exact ⟨by simp, List.forall_mem_cons.2 ⟨digit, ih.2⟩⟩

/-- Digits begin with a digit, with or without the underscores. -/
theorem Grouped.exists_first : ∃ d u es, s = d :: u ∧ ds = d :: es ∧ isDigit d := by
  cases grouped with
  | last digit => exact ⟨_, _, _, rfl, rfl, digit⟩
  | digit digit => exact ⟨_, _, _, rfl, rfl, digit⟩
  | separator digit => exact ⟨_, _, _, rfl, rfl, digit⟩

/-- Digits are spelled by digits and underscores. -/
theorem Grouped.mem : ∀ c ∈ s, isDigit c ∨ c = '_' := by
  induction grouped with
  | last digit => simpa using .inl digit
  | digit digit _ ih => exact List.forall_mem_cons.2 ⟨.inl digit, ih⟩
  | separator digit _ ih =>
    exact List.forall_mem_cons.2 ⟨.inl digit, List.forall_mem_cons.2 ⟨.inr rfl, ih⟩⟩

/-- Digits are read up to where they end. -/
theorem Grouped.readDigits (other : isDigit '_' = false) {t : List Char}
    (stops : ∀ c ∈ t.head?, isDigit c = false ∧ c ≠ '_') :
    readDigits isDigit (s ++ t) = (ds, t) := by
  -- A digit is read whatever comes next, as it is no separator.
  have step : ∀ {d : Char}, isDigit d → ∀ u, Toml.readDigits isDigit (d :: u) =
      (d :: (Toml.readDigits isDigit u).1, (Toml.readDigits isDigit u).2) := by
    intro d digit u
    rw [Toml.readDigits, if_pos digit]
    rintro _ _ rfl
    cases digit.symm.trans other
  induction grouped with
  | @last d digit =>
    have done : Toml.readDigits isDigit t = ([], t) := by
      cases t with
      | nil => rfl
      | cons c t =>
        obtain ⟨notDigit, notSeparator⟩ := stops c rfl
        rw [Toml.readDigits, if_neg (by simp [notDigit])]
        exact fun _ _ separator _ => notSeparator separator
    rw [List.singleton_append, step digit, done]
  | digit digit _ ih => rw [List.cons_append, step digit, ih]
  | @separator d s ds digit more ih =>
    obtain ⟨e, u, es, rfl, rfl, isDigit'⟩ := more.exists_first
    have rest : Toml.readDigits isDigit ('_' :: ((e :: u) ++ t)) =
        Toml.readDigits isDigit ((e :: u) ++ t) := by
      rw [List.cons_append, step isDigit', Toml.readDigits, if_pos isDigit']
    rw [List.cons_append, List.cons_append, step digit, rest, ih]

/-- Digits with underscores between them are read to their end. -/
theorem Grouped.someDigits (other : isDigit '_' = false) {t : List Char}
    (stops : ∀ c ∈ t.head?, isDigit c = false ∧ c ≠ '_') :
    someDigits isDigit (s ++ t) = some (ds, t) := by
  have read := grouped.readDigits other stops
  obtain ⟨d, u, es, rfl, rfl, digit⟩ := grouped.exists_first
  rw [List.cons_append, Toml.someDigits, if_pos digit]
  exact congrArg some read

end Grouped

/-- Digits stand for themselves. -/
theorem grouped_of_digits {ds : List Char} (digits : Json.Digits ds) :
    Grouped Char.isDigit ds ds := by
  obtain ⟨nonempty, digit⟩ := digits
  induction ds with
  | nil => exact absurd rfl nonempty
  | cons d ds ih =>
    obtain ⟨first, rest⟩ := List.forall_mem_cons.1 digit
    cases ds with
    | nil => exact .last first
    | cons e es => exact .digit first (ih (by simp) rest)

/-- What may follow some decimal digits: neither another one nor what would make them the start of a
date or a time. -/
def Cut (t : List Char) : Prop :=
  ∀ c ∈ t.head?, c.isDigit = false ∧ c ≠ '_' ∧ c ≠ '-' ∧ c ≠ ':'

/-- What cuts digits off is neither a digit nor an underscore. -/
theorem Cut.stops {t : List Char} (cut : Cut t) : ∀ c ∈ t.head?, c.isDigit = false ∧ c ≠ '_' :=
  fun c first => ⟨(cut c first).1, (cut c first).2.1⟩

/-- What follows a value continues no digits. -/
theorem Ends.not_isDigit {t : List Char} (ends : Ends t) : ∀ c ∈ t.head?, c.isDigit = false := by
  refine ends.not fun c digit => ?_
  simp only [isBlank, isEnd, Bool.or_eq_false_iff, decide_eq_false_iff_not]
  simp [isDigit_ne digit (d := ' ') rfl, isDigit_ne digit (d := '\t') rfl,
    isDigit_ne digit (d := '#') rfl, isDigit_ne digit (d := '\n') rfl,
    isDigit_ne digit (d := '\r') rfl, isDigit_ne digit (d := ',') rfl,
    isDigit_ne digit (d := ']') rfl, isDigit_ne digit (d := '\x7d') rfl]

/-- What follows a value cuts its digits off. -/
theorem Ends.cut {t : List Char} (ends : Ends t) : Cut t := fun c first =>
  ⟨ends.not_isDigit c first, ends.ne rfl rfl c first, ends.ne rfl rfl c first,
    ends.ne rfl rfl c first⟩

/-- Without separators, the digits begin with zero only if there is just one. -/
theorem Grouped.eq_zero {s : List Char} (grouped : Grouped Char.isDigit s ['0']) : s = ['0'] := by
  cases grouped with
  | last => rfl
  | digit _ more => exact absurd rfl more.digits.1
  | separator _ more => exact absurd rfl more.digits.1

/-- A whole number is read without its underscores. -/
theorem Whole.wholeDigits {s ds t : List Char} (whole : Whole s ds) (cut : Cut t) :
    wholeDigits (s ++ t) = some (ds, t) := by
  obtain ⟨grouped, zero⟩ := whole
  have read := grouped.someDigits rfl cut.stops
  obtain ⟨d, u, es, rfl, rfl, digit⟩ := grouped.exists_first
  by_cases first : d = '0'
  · subst first
    cases zero rfl
    cases grouped.eq_zero
    rfl
  · rw [Toml.wholeDigits.eq_def]
    split
    case h_1 same => exact absurd (List.cons.inj same).1 first
    case h_2 => exact read

/-- A decimal digit has the same value in base sixteen. -/
theorem hexValue?_of_isDigit {c : Char} (digit : c.isDigit) :
    Bytes.hexValue? c = some (c.toNat - '0'.toNat) := by
  simp only [Char.isDigit, Bool.and_eq_true, decide_eq_true_eq, UInt32.le_iff_toNat_le] at digit
  have range : 48 ≤ c.toNat ∧ c.toNat ≤ 57 := digit
  rw [Bytes.hexValue?, if_pos range]
  rfl

/-- Numbers in base ten are those of the library. -/
theorem number_eq {ds : List Char} (digits : ∀ d ∈ ds, d.isDigit) :
    number 10 ds = Nat.ofDigitChars 10 ds 0 := by
  have general : ∀ n, ds.foldl (fun n c => 10 * n + (Bytes.hexValue? c).getD 0) n =
      Nat.ofDigitChars 10 ds n := by
    induction ds with
    | nil => exact fun _ => rfl
    | cons d ds ih =>
      obtain ⟨first, rest⟩ := List.forall_mem_cons.1 digits
      intro n
      rw [List.foldl_cons, hexValue?_of_isDigit first, Nat.ofDigitChars_cons]
      exact ih rest _
  exact general 0

/-! ### Dates and times -/

/-- A field of a date or a time is read if it is in its range. -/
theorem InRange.readField {width low high : Nat} {ds : List Char} (inRange : InRange width low high ds)
    (t : List Char) : readField width low high (ds ++ t) = some (Nat.ofDigitChars 10 ds 0, t) := by
  obtain ⟨rfl, digits, atLeast, atMost⟩ := inRange
  have value := number_eq digits
  simp [Toml.readField, value, atLeast, atMost, List.all_eq_true.2 digits]

/-- What is read as a field are as many digits as the field is wide. -/
theorem readField_eq_some {width low high n : Nat} {cs rest : List Char}
    (read : readField width low high cs = some (n, rest)) :
    rest = cs.drop width ∧ (cs.take width).length = width ∧ ∀ c ∈ cs.take width, c.isDigit := by
  simp only [readField] at read
  split at read
  next fits =>
    cases read
    exact ⟨rfl, fits.1, List.all_eq_true.1 fits.2.1⟩
  next => cases read

/-- No number is read where a character is none of its digits. -/
theorem readField_eq_none {width low high : Nat} {cs : List Char} {c : Char}
    (mem : c ∈ cs.take width) (other : c.isDigit = false) : readField width low high cs = none := by
  cases read : readField width low high cs with
  | none => rfl
  | some result =>
    have digit := (readField_eq_some read).2.2 c mem
    cases digit.symm.trans other

/-- A date is passed over. -/
theorem Date.skipDate {d : List Char} (date : Date d) (t : List Char) :
    skipDate (d ++ t) = some t := by
  obtain ⟨year, month, day⟩ := date
  simp [Toml.skipDate, year.readField, month.readField, day.readField, expect]

/-- What follows a time does not go on with its part of a second. -/
theorem Time.skipTime {s t : List Char} (time : Time s)
    (stops : ∀ c ∈ t.head?, c.isDigit = false ∧ c ≠ '.') : skipTime (s ++ t) = some t := by
  obtain ⟨hour, minute, second, fraction⟩ := time
  rename_i f
  have part : skipSubseconds (f ++ t) = some t := by
    rcases fraction with rfl | ⟨ds, ⟨nonempty, digits⟩, rfl⟩
    · rw [List.nil_append, skipSubseconds.eq_def]
      split
      case h_1 => exact absurd rfl (stops '.' rfl).2
      case h_2 => rfl
    · obtain ⟨front, rest⟩ :=
        Json.takeWhile_dropWhile_append digits fun c first => (stops c first).1
      rw [List.cons_append, skipSubseconds, front, rest]
      cases ds with
      | nil => exact absurd rfl nonempty
      | cons d ds => rfl
  simp [Toml.skipTime, hour.readField, minute.readField, second.readField, expect, part]

/-- A time is no date: there is a colon where the year would go on. -/
theorem Time.skipDate {s : List Char} (time : Time s) (t : List Char) :
    skipDate (s ++ t) = none := by
  obtain ⟨hour, minute, second, fraction⟩ := time
  rename_i h m sec f
  match h, hour.width with
  | [a, b], _ =>
    have colon : ':' ∈ ([a, b] ++ ':' :: (m ++ ':' :: (sec ++ f)) ++ t).take 4 := by simp
    simp only [Toml.skipDate, readField_eq_none colon rfl, Option.bind_eq_bind, Option.bind_none]

/-- An offset is passed over, if there is one. -/
theorem Offset.skipOffset {o t : List Char} (offset : Offset o) (ends : Ends t) :
    (skipOffset (o ++ t)).getD (o ++ t) = t := by
  cases offset with
  | absent =>
    cases t with
    | nil => rfl
    | cons c t =>
      have other : ∀ d, isBlank d = false → isEnd d = false → c ≠ d := fun d notBlank goesOn =>
        ends.ne notBlank goesOn c rfl
      simp [Toml.skipOffset, other 'Z' rfl rfl, other 'z' rfl rfl, other '+' rfl rfl,
        other '-' rfl rfl]
  | zero letter => simp [Toml.skipOffset, letter]
  | @shifted c h m sign hour minute =>
    have notLetter : ¬ (c = 'Z' ∨ c = 'z') := by
      rcases sign with rfl | rfl <;> decide
    simp [Toml.skipOffset, notLetter, sign, hour.readField, minute.readField, expect]

/-- After a date alone, no time of the day comes: behind a blank there is no digit. -/
theorem Ends.skipTimeOfDay {t : List Char} (ends : Ends t) : skipTimeOfDay t = t := by
  cases t with
  | nil => rfl
  | cons c t =>
    by_cases blank : c = ' '
    · subst blank
      have rest : Ends t := by
        obtain ⟨u, ⟨bs, blanks, same⟩, first⟩ := ends
        cases bs with
        | nil =>
          subst same
          cases first ' ' rfl
        | cons b bs =>
          cases same
          exact ⟨u, ⟨bs, (List.forall_mem_cons.1 blanks).2, rfl⟩, first⟩
      -- A blank could separate a date from a time, but no digit comes after it.
      have noTime : skipTime t = none := by
        cases t with
        | nil => rfl
        | cons d t =>
          have other : readField 2 0 23 (d :: t) = none :=
            readField_eq_none (c := d) (by simp) (rest.not_isDigit d rfl)
          simp [skipTime, other]
      simp [Toml.skipTimeOfDay, noTime]
    · have upper := ends.ne (d := 'T') rfl rfl c rfl
      have lower := ends.ne (d := 't') rfl rfl c rfl
      simp [Toml.skipTimeOfDay, blank, upper, lower]

/-- A field begins with a digit. -/
theorem InRange.exists_first {width low high : Nat} {ds : List Char}
    (inRange : InRange (width + 1) low high ds) : ∃ d es, ds = d :: es ∧ d.isDigit := by
  obtain ⟨d, es, rfl⟩ := List.exists_cons_of_length_eq_add_one inRange.width
  exact ⟨d, es, rfl, inRange.digits d (by simp)⟩

/-- A date begins with a digit. -/
theorem Date.exists_first {d : List Char} (date : Date d) : ∃ c u, d = c :: u ∧ c.isDigit := by
  obtain ⟨year, -, -⟩ := date
  obtain ⟨c, u, rfl, digit⟩ := year.exists_first
  exact ⟨c, _, rfl, digit⟩

/-- A time begins with a digit. -/
theorem Time.exists_first {t : List Char} (time : Time t) : ∃ c u, t = c :: u ∧ c.isDigit := by
  obtain ⟨hour, -, -, -⟩ := time
  obtain ⟨c, u, rfl, digit⟩ := hour.exists_first
  exact ⟨c, _, rfl, digit⟩

/-- So does either of them, and both together. -/
theorem Moment.exists_first {w : List Char} (moment : Moment w) :
    ∃ c u, w = c :: u ∧ c.isDigit := by
  cases moment with
  | date date => exact date.exists_first
  | time time => exact time.exists_first
  | both date =>
    obtain ⟨c, u, rfl, digit⟩ := date.exists_first
    exact ⟨c, _, rfl, digit⟩

/-- A point in time is read. -/
theorem Moment.reads {w t : List Char} (moment : Moment w) (ends : Ends t) :
    readMoment (w ++ t) = some t := by
  cases moment with
  | date date => simp [readMoment, date.skipDate, ends.skipTimeOfDay]
  | time time =>
    have skipped := time.skipTime fun c first =>
      ⟨ends.not_isDigit c first, ends.ne (d := '.') rfl rfl c first⟩
    rw [readMoment, time.skipDate, skipped]
  | @both d s o c date separator time offset =>
    -- What comes after a time does not continue it.
    have follows : ∀ c ∈ (o ++ t).head?, c.isDigit = false ∧ c ≠ '.' := by
      intro c first
      cases offset with
      | absent => exact ⟨ends.not_isDigit c first, ends.ne (d := '.') rfl rfl c first⟩
      | zero letter =>
        cases first
        rcases letter with rfl | rfl <;> decide
      | shifted sign =>
        cases first
        rcases sign with rfl | rfl <;> decide
    have skipped := time.skipTime follows
    have rest := offset.skipOffset ends
    have whole : d ++ c :: (s ++ o) ++ t = d ++ c :: (s ++ (o ++ t)) := by simp
    rw [whole, readMoment, date.skipDate]
    simp [skipTimeOfDay, separator, skipped, rest]

/-- No dash and no colon comes right after some digits of a number. -/
theorem expect_drop {s t : List Char} (mem : ∀ c ∈ s, c.isDigit ∨ c = '_') (cut : Cut t)
    {d : Char} (other : d = '-' ∨ d = ':') {width : Nat}
    (long : ((s ++ t).take width).length = width)
    (digits : ∀ c ∈ (s ++ t).take width, c.isDigit) : expect d ((s ++ t).drop width) = none := by
  -- All that is passed over is in the number, and what follows is in it or ends it: no separator.
  induction width generalizing s with
  | zero =>
    have differs : ∀ c ∈ (s ++ t).head?, c ≠ d := by
      cases s with
      | nil =>
        intro c first
        obtain ⟨-, -, notDash, notColon⟩ := cut c first
        rcases other with rfl | rfl <;> assumption
      | cons c s =>
        intro _ first
        cases first
        rcases mem c (by simp) with digit | rfl
        · rcases other with rfl | rfl <;> exact isDigit_ne digit rfl
        · rcases other with rfl | rfl <;> decide
    rw [List.drop_zero]
    cases first : s ++ t with
    | nil => rfl
    | cons c u => exact if_neg (differs c (by rw [first]; rfl))
  | succ width ih =>
    cases s with
    | nil =>
      cases t with
      | nil => simp at long
      | cons c t =>
        have digit := digits c (by simp)
        cases digit.symm.trans (cut c rfl).1
    | cons c s =>
      exact ih (fun c inside => mem c (by simp [inside])) (by simpa using long)
        fun c inside => digits c (by simp [inside])

/-- Digits that are cut off are no date and no time. -/
theorem readMoment_digits {s t : List Char} (mem : ∀ c ∈ s, c.isDigit ∨ c = '_') (cut : Cut t) :
    readMoment (s ++ t) = none := by
  have noDate : skipDate (s ++ t) = none := by
    cases read : readField 4 0 9999 (s ++ t) with
    | none => simp [skipDate, read]
    | some result =>
      obtain ⟨same, long, digits⟩ := readField_eq_some read
      simp [skipDate, read, same, expect_drop mem cut (.inl rfl) long digits]
  have noTime : skipTime (s ++ t) = none := by
    cases read : readField 2 0 23 (s ++ t) with
    | none => simp [skipTime, read]
    | some result =>
      obtain ⟨same, long, digits⟩ := readField_eq_some read
      simp [skipTime, read, same, expect_drop mem cut (.inr rfl) long digits]
  rw [readMoment, noDate, noTime]

/-- No date and no time begins with a character that is no digit, or has one in the second place. -/
theorem readMoment_eq_none {cs : List Char} {c : Char} (mem : c ∈ cs.take 2)
    (other : c.isDigit = false) : readMoment cs = none := by
  have early : c ∈ cs.take 4 := (List.take_sublist_take_left (by decide)).mem mem
  simp [readMoment, skipDate, skipTime, readField_eq_none mem other, readField_eq_none early other]

/-! ### Numbers -/

/-- A sign is read off, and remembered if it is a minus. -/
theorem readSign_append {sign : List Char} (signed : Sign sign) {c : Char}
    (other : c ≠ '+' ∧ c ≠ '-') (u : List Char) :
    readSign (sign ++ c :: u) = (decide (sign = ['-']), c :: u) := by
  rcases signed with rfl | rfl | rfl
  · rw [List.nil_append, readSign.eq_def]
    split
    case h_1 same => exact absurd (List.cons.inj same).1 other.2
    case h_2 same => exact absurd (List.cons.inj same).1 other.1
    case h_3 => rfl
  · rfl
  · rfl

/-- A sign is read off from before digits. -/
theorem readSign_grouped {sign s ds : List Char} (signed : Sign sign)
    (grouped : Grouped Char.isDigit s ds) (t : List Char) :
    readSign (sign ++ (s ++ t)) = (decide (sign = ['-']), s ++ t) := by
  obtain ⟨d, u, es, rfl, rfl, digit⟩ := grouped.exists_first
  exact readSign_append signed ⟨isDigit_ne digit rfl, isDigit_ne digit rfl⟩ _

/-- The number of a sign and some digits, as it is read. -/
theorem integerOf_eq (sign : List Char) {ds : List Char} (digits : ∀ d ∈ ds, d.isDigit) :
    (if decide (sign = ['-']) then -(number 10 ds : Int) else number 10 ds) =
      integerOf sign ds := by
  simp [integerOf, number_eq digits]

/-- A fraction cuts off the digits before it. -/
theorem Fraction.cut {f fs t : List Char} (fraction : Fraction f fs) (cut : Cut t) :
    Cut (f ++ t) := by
  cases fraction with
  | absent => exact cut
  | present =>
    intro c first
    cases first
    decide

/-- An exponent cuts off the digits before it. -/
theorem Exponent.cut {e t : List Char} {x : Int} (exponent : Exponent e x) (cut : Cut t) :
    Cut (e ++ t) := by
  cases exponent with
  | absent => exact cut
  | present letter =>
    intro c first
    cases first
    rcases letter with rfl | rfl <;> decide

/-- The digits after a point are read, if there is one. -/
theorem Fraction.reads {f fs t : List Char} (fraction : Fraction f fs) (cut : Cut t)
    (noPoint : ∀ c ∈ t.head?, c ≠ '.') :
    readFraction (f ++ t) = some (if f = [] then none else some fs, t) := by
  cases fraction with
  | absent =>
    rw [List.nil_append, readFraction.eq_def]
    split
    case h_1 => exact absurd rfl (noPoint '.' rfl)
    case h_2 => rfl
  | present grouped => simp [readFraction, grouped.someDigits rfl cut.stops]

/-- A power of ten is read, if there is one. -/
theorem Exponent.reads {e t : List Char} {x : Int} (exponent : Exponent e x) (ends : Ends t) :
    readExponent (e ++ t) = some (if e = [] then none else some x, t) := by
  cases exponent with
  | absent =>
    cases t with
    | nil => rfl
    | cons c t =>
      have lower := ends.ne (d := 'e') rfl rfl c rfl
      have upper := ends.ne (d := 'E') rfl rfl c rfl
      simp [readExponent, lower, upper]
  | @present c sign s ds letter signed grouped =>
    have digits := grouped.someDigits rfl ends.cut.stops
    have value := integerOf_eq sign grouped.digits.2
    have read := readSign_grouped signed grouped t
    rw [List.cons_append, List.append_assoc, readExponent, if_pos letter, read]
    simp only [digits, Option.bind_eq_bind, Option.bind_some, value, Option.pure_def,
      List.cons_ne_nil, if_false]

/-- An exponent is no fraction. -/
theorem Exponent.noPoint {e t : List Char} {x : Int} (exponent : Exponent e x) (ends : Ends t) :
    ∀ c ∈ (e ++ t).head?, c ≠ '.' := by
  cases exponent with
  | absent => exact ends.ne rfl rfl
  | present letter =>
    intro c first
    cases first
    rcases letter with rfl | rfl <;> decide

/-- An absent fraction has no digits. -/
theorem Fraction.getD {f fs : List Char} (fraction : Fraction f fs) :
    (if f = [] then none else some fs).getD [] = fs := by
  cases fraction <;> rfl

/-- The digits of a fraction are decimal ones. -/
theorem Fraction.digits {f fs : List Char} (fraction : Fraction f fs) : ∀ d ∈ fs, d.isDigit := by
  cases fraction with
  | absent => simp
  | present grouped => exact grouped.digits.2

/-- An absent exponent is zero. -/
theorem Exponent.getD {e : List Char} {x : Int} (exponent : Exponent e x) :
    (if e = [] then none else some x).getD 0 = x := by
  cases exponent <;> rfl

/-- The first magnitude that a float of 64 bits can not hold lies between two powers of ten. -/
theorem firstInfinite_bounds :
    0 < firstInfinite ∧ 10 ^ (299 : Nat) ≤ firstInfinite ∧ firstInfinite ≤ 10 ^ (320 : Nat) := by
  decide +kernel

/-- The digits of a number tell its size up to a factor of ten. -/
theorem bounds_of_toDigits {m : Nat} (pos : 0 < m) :
    10 ^ ((Nat.toDigits 10 m).length - 1) ≤ m ∧ m < 10 ^ (Nat.toDigits 10 m).length := by
  have some_ : 0 < (Nat.toDigits 10 m).length :=
    List.length_pos_iff.2 (Json.whole_toDigits m).1.1
  have above := (Nat.length_toDigits_le_iff (b := 10) (n := m) (by decide) some_).1 (Nat.le_refl _)
  refine ⟨?_, above⟩
  rcases Nat.eq_zero_or_pos ((Nat.toDigits 10 m).length - 1) with one | more
  · rw [one]
    exact pos
  · refine Nat.le_of_not_lt fun below => ?_
    have := (Nat.length_toDigits_le_iff (by decide) more).2 below
    omega

/-- A number with few digits before its point is finite, whatever the digits are. -/
theorem isFinite_of_small {m len : Nat} {x : Int} (bound : Nat) (least : 10 ^ bound ≤ firstInfinite)
    (above : m < 10 ^ len) (small : len + x ≤ bound) : IsFinite m x := by
  calc m * 10 ^ x.toNat
      < 10 ^ len * 10 ^ x.toNat := Nat.mul_lt_mul_of_pos_right above (Nat.pow_pos (by decide))
    _ = 10 ^ (len + x.toNat) := (Nat.pow_add ..).symm
    _ ≤ 10 ^ (bound + (-x).toNat) := Nat.pow_le_pow_right (by decide) (by omega)
    _ = 10 ^ bound * 10 ^ (-x).toNat := Nat.pow_add ..
    _ ≤ firstInfinite * 10 ^ (-x).toNat := Nat.mul_le_mul_right _ least

/-- A number with many digits before its point is not, whatever they are. -/
theorem not_isFinite_of_large {m len : Nat} {x : Int} (bound : Nat)
    (greatest : firstInfinite ≤ 10 ^ bound) (below : 10 ^ len ≤ m) (large : bound ≤ len + x) :
    ¬ IsFinite m x := by
  refine Nat.not_lt.2 ?_
  calc firstInfinite * 10 ^ (-x).toNat
      ≤ 10 ^ bound * 10 ^ (-x).toNat := Nat.mul_le_mul_right _ greatest
    _ = 10 ^ (bound + (-x).toNat) := (Nat.pow_add ..).symm
    _ ≤ 10 ^ (len + x.toNat) := Nat.pow_le_pow_right (by decide) (by omega)
    _ = 10 ^ len * 10 ^ x.toNat := Nat.pow_add ..
    _ ≤ m * 10 ^ x.toNat := Nat.mul_le_mul_right _ below

/-- Whether a number is infinite is seen from how many digits it has alone where that is far from
the bound. -/
theorem isInfinite_eq (m : Nat) (x : Int) : isInfinite m x = !decide (IsFinite m x) := by
  rw [isInfinite]
  split
  next zero =>
    subst zero
    have finite : IsFinite 0 x := by
      rw [IsFinite, Nat.zero_mul]
      exact Nat.mul_pos firstInfinite_bounds.1 (Nat.pow_pos (by decide))
    simp [finite]
  next nonzero =>
    -- Only if the number of digits does not decide it, the powers of ten are compared.
    obtain ⟨below, above⟩ := bounds_of_toDigits (Nat.pos_of_ne_zero nonzero)
    obtain ⟨-, least, greatest⟩ := firstInfinite_bounds
    split
    next small =>
      have finite : IsFinite m x := isFinite_of_small 299 least above (by omega)
      simp [finite]
    next =>
      split
      next large =>
        have infinite : ¬ IsFinite m x := not_isFinite_of_large 320 greatest below (by omega)
        simp [infinite]
      next =>
        split
        next natural =>
          have noShift : (-x).toNat = 0 := by omega
          simp only [IsFinite, noShift, Nat.pow_zero, Nat.mul_one, ← decide_not, Nat.not_lt]
        next negative =>
          have noShift : x.toNat = 0 := by omega
          simp only [IsFinite, noShift, Nat.pow_zero, Nat.mul_one, ← decide_not, Nat.not_lt]

section Decimal

variable {sign s ds f fs e t : List Char} {x : Int} (signed : Sign sign) (whole : Whole s ds)
  (fraction : Fraction f fs) (exponent : Exponent e x) (ends : Ends t)
include signed whole fraction exponent ends

/-- A decimal number is read: an integer if it has neither a point nor a power of ten, and else a
float. -/
theorem readDecimal_spelled : readDecimal (sign ++ (s ++ (f ++ (e ++ t)))) =
    if f ++ e = [] then (integer? (integerOf sign ds)).map fun v => (some v, t)
    else if sign ≠ ['-'] → IsFinite (Nat.ofDigitChars 10 (ds ++ fs) 0) (x - fs.length) then
      some (none, t)
    else none := by
  -- Each part is cut off by what comes after it, so they are read one after the other.
  have scaled := exponent.cut ends.cut
  have first := readSign_grouped signed whole.1 (f ++ (e ++ t))
  have second := whole.wholeDigits (fraction.cut scaled)
  have third := fraction.reads scaled (exponent.noPoint ends)
  have fourth := exponent.reads ends
  have digits := whole.1.digits.2
  have all : number 10 (ds ++ fs) = Nat.ofDigitChars 10 (ds ++ fs) 0 :=
    number_eq fun d mem => (List.mem_append.1 mem).elim (digits d) (fraction.digits d)
  rw [readDecimal]
  simp only [first, second, third, fourth, Option.bind_eq_bind, Option.bind_some, Option.pure_def]
  by_cases plain : f ++ e = []
  · obtain ⟨rfl, rfl⟩ := List.append_eq_nil_iff.1 plain
    have value := integerOf_eq sign digits
    simp only [if_true, Option.isNone_none, and_self, value, plain]
    cases integer? (integerOf sign ds) <;> rfl
  · have either : ¬ ((if f = [] then none else some fs).isNone ∧
        (if e = [] then none else some x).isNone) := by
      simpa using plain
    rw [if_neg either, if_neg plain, fraction.getD, exponent.getD, all, isInfinite_eq]
    by_cases negative : sign = ['-'] <;>
      by_cases finite : IsFinite (Nat.ofDigitChars 10 (ds ++ fs) 0) (x - fs.length) <;>
      simp [negative, finite]

/-- Behind a zero at the start of a decimal number, there is no letter that tells a base. -/
theorem readNumber_spelled : readNumber (sign ++ (s ++ (f ++ (e ++ t)))) =
    readDecimal (sign ++ (s ++ (f ++ (e ++ t)))) := by
  -- A leading zero stands alone, so no letter of a base can come after it.
  have second : ∀ c rest, sign ++ (s ++ (f ++ (e ++ t))) = '0' :: c :: rest →
      c ≠ 'x' ∧ c ≠ 'o' ∧ c ≠ 'b' := by
    intro c rest same
    rcases signed with rfl | rfl | rfl
    · obtain ⟨d, u, es, rfl, rfl, digit⟩ := whole.1.exists_first
      obtain ⟨rfl, same⟩ := List.cons.inj same
      cases whole.2 rfl
      cases whole.1.eq_zero
      rw [List.nil_append] at same
      cases fraction with
      | present => cases same; decide
      | absent =>
        cases exponent with
        | present letter =>
          cases same
          rcases letter with rfl | rfl <;> decide
        | absent =>
          obtain rfl : t = c :: rest := by simpa using same
          exact ⟨ends.ne rfl rfl c rfl, ends.ne rfl rfl c rfl, ends.ne rfl rfl c rfl⟩
    all_goals cases same
  rw [readNumber.eq_def]
  split
  case h_1 same => exact absurd rfl (second _ _ same).1
  case h_2 same => exact absurd rfl (second _ _ same).2.1
  case h_3 same => exact absurd rfl (second _ _ same).2.2
  case h_4 => rfl

/-- What begins like a number is no point in time. -/
theorem readMoment_spelled : readMoment (sign ++ (s ++ (f ++ (e ++ t)))) = none := by
  have noMoment := readMoment_digits whole.1.mem (fraction.cut (exponent.cut ends.cut))
  rcases signed with rfl | rfl | rfl
  · exact noMoment
  · exact readMoment_eq_none (c := '+') (by simp) rfl
  · exact readMoment_eq_none (c := '-') (by simp) rfl

end Decimal

/-- The values of the digits to base sixteen. -/
theorem hexValue?_eq_some {c : Char} {v : Nat} (value : Bytes.hexValue? c = some v) :
    (48 ≤ c.toNat ∧ c.toNat ≤ 57 ∧ v = c.toNat - 48) ∨
      (97 ≤ c.toNat ∧ c.toNat ≤ 102 ∧ v = c.toNat - 87) ∨
      65 ≤ c.toNat ∧ c.toNat ≤ 70 ∧ v = c.toNat - 55 := by
  rw [Bytes.hexValue?] at value
  split_ifs at value <;> cases value <;> omega

/-- Hexadecimal digits are those that have a value. -/
theorem isDigitTo_sixteen (c : Char) : isDigitTo 16 c = (Bytes.hexValue? c).isSome := by
  rw [isDigitTo]
  cases value : Bytes.hexValue? c with
  | none => rfl
  | some v => rcases hexValue?_eq_some value with range | range | range <;> simp <;> omega

/-- The digits to a base up to ten follow each other. -/
theorem isDigitTo_iff {base bound : Nat} (small : base ≤ 10) (last : 48 + base = bound) {c : Char} :
    isDigitTo base c ↔ 48 ≤ c.toNat ∧ c.toNat < bound := by
  rw [isDigitTo, Option.any_eq_true]
  constructor
  · rintro ⟨v, value, below⟩
    have range := hexValue?_eq_some value
    have below := of_decide_eq_true below
    omega
  · intro range
    exact ⟨c.toNat - 48, by rw [Bytes.hexValue?, if_pos (by omega)], decide_eq_true (by omega)⟩

/-- Octal digits are those below eight. -/
theorem isDigitTo_eight (c : Char) : isDigitTo 8 c = isOctal c := by
  have range : isDigitTo 8 c ↔ 48 ≤ c.toNat ∧ c.toNat < 56 := isDigitTo_iff (by decide) rfl
  have zero : '0'.toNat = 48 := rfl
  have eight : '8'.toNat = 56 := rfl
  have nine : '9'.toNat = 57 := rfl
  rw [Bool.eq_iff_iff, range]
  simp only [isOctal, Bool.and_eq_true, decide_eq_true_eq, Char.isDigit_iff_toNat, ne_eq,
    ← Char.toNat_inj, zero, eight, nine]
  omega

/-- Binary digits are zero and one. -/
theorem isDigitTo_two (c : Char) : isDigitTo 2 c = (c = '0' || c = '1') := by
  have range : isDigitTo 2 c ↔ 48 ≤ c.toNat ∧ c.toNat < 50 := isDigitTo_iff (by decide) rfl
  have zero : '0'.toNat = 48 := rfl
  have one : '1'.toNat = 49 := rfl
  rw [Bool.eq_iff_iff, range]
  simp only [Bool.or_eq_true, decide_eq_true_eq, ← Char.toNat_inj, zero, one]
  omega

/-- A number of another base is read if it fits into a word. -/
theorem readBased_eq {base : Nat} {isDigit : Char → Bool} {ds cs t : List Char}
    (digits : someDigits isDigit cs = some (ds, t)) :
    readBased base isDigit cs = (integer? (number base ds)).map fun v => (some v, t) := by
  rw [readBased, digits, Option.bind_eq_bind, Option.bind_some, Option.map_eq_bind]
  rfl

/-- No digit to any base ends a value. -/
theorem not_isEnd_of_isDigitTo {base : Nat} {c : Char} (digit : isDigitTo base c) :
    isBlank c = false ∧ isEnd c = false := by
  have other : ∀ d : Char, Bytes.hexValue? d = none → c ≠ d := by
    rintro d none rfl
    simp [isDigitTo, none] at digit
  simp only [isBlank, isEnd, Bool.or_eq_false_iff, decide_eq_false_iff_not]
  exact ⟨⟨other _ rfl, other _ rfl⟩, ⟨⟨⟨⟨other _ rfl, other _ rfl⟩, other _ rfl⟩, other _ rfl⟩,
    other _ rfl⟩, other _ rfl⟩

/-- A number to another base is read. -/
theorem readNumber_based {letter : Char} {base : Nat} (named : (letter, base) ∈ bases)
    {s ds t : List Char} (grouped : Grouped (isDigitTo base) s ds) (ends : Ends t) :
    readNumber ('0' :: letter :: (s ++ t)) =
      (integer? (number base ds)).map fun v => (some v, t) := by
  have digits := grouped.someDigits rfl fun c first =>
    ⟨ends.not (fun _ => not_isEnd_of_isDigitTo) c first, ends.ne (d := '_') rfl rfl c first⟩
  simp only [bases, List.mem_cons, Prod.mk.injEq, List.not_mem_nil, or_false] at named
  rcases named with ⟨rfl, rfl⟩ | ⟨rfl, rfl⟩ | ⟨rfl, rfl⟩
  · rw [funext isDigitTo_sixteen] at digits
    exact readBased_eq digits
  · rw [funext isDigitTo_eight] at digits
    exact readBased_eq digits
  · rw [funext isDigitTo_two] at digits
    exact readBased_eq digits

/-! ### Words -/

/-- Whether a node, if it is a number, has no more than 64 bits. -/
def isNarrow : Node → Bool
  | .integer v => decide (-2 ^ (63 : Nat) ≤ v ∧ v < 2 ^ (63 : Nat))
  | _ => true

/-- An integer is kept just if it is narrow. -/
theorem integer?_eq (v : Int) : integer? v = if isNarrow (.integer v) then some v else none := by
  simp [integer?, isNarrow]

/-- Where no point in time and no name comes next, a number is read. -/
theorem readPlain_number {c : Char} {u : List Char} (first : c = '+' ∨ c = '-' ∨ c.isDigit)
    (noMoment : readMoment (c :: u) = none) (noWord : readSignedWord (c :: u) = none) :
    readPlain (c :: u) =
      (readNumber (c :: u)).map fun (v, rest) => ((v.map Node.integer).getD .other, rest) := by
  rw [readPlain, if_pos first, noMoment]
  simp only [noWord]
  cases readNumber (c :: u) <;> rfl

/-- A decimal number is read, of either kind. -/
theorem readPlain_decimal {sign s ds f fs e t : List Char} {x : Int} (signed : Sign sign)
    (whole : Whole s ds) (fraction : Fraction f fs) (exponent : Exponent e x) (ends : Ends t) :
    readPlain (sign ++ (s ++ (f ++ (e ++ t)))) = (readDecimal (sign ++ (s ++ (f ++ (e ++ t))))).map
      fun (v, rest) => ((v.map Node.integer).getD .other, rest) := by
  rw [← readNumber_spelled signed whole fraction exponent ends]
  have noMoment := readMoment_spelled signed whole fraction exponent ends
  have unsigned := readSign_grouped signed whole.1 (f ++ (e ++ t))
  obtain ⟨d, u, es, rfl, rfl, digit⟩ := whole.1.exists_first
  have noWord : readSignedWord (sign ++ (d :: u ++ (f ++ (e ++ t)))) = none := by
    rw [readSignedWord, unsigned, List.cons_append]
    simp only
    split
    case h_1 same => exact absurd (List.cons.inj same).1 (isDigit_ne digit rfl)
    case h_2 same => exact absurd (List.cons.inj same).1 (isDigit_ne digit rfl)
    case h_3 => rfl
  rcases signed with rfl | rfl | rfl
  · exact readPlain_number (.inr (.inr digit)) noMoment noWord
  · exact readPlain_number (.inl rfl) noMoment noWord
  · exact readPlain_number (.inr (.inl rfl)) noMoment noWord

/-- A name is read. -/
theorem readWord_append {w : List Char} (named : w ∈ words) (t : List Char) :
    readWord (w ++ t) = some (.other, t) := by
  simp only [words, List.mem_cons, List.not_mem_nil, or_false] at named
  rcases named with rfl | rfl | rfl | rfl <;> rfl

/-- **Words.** A word is read as its value wherever it comes before something that may follow a
value, unless it is an integer that has more than 64 bits. -/
theorem Plain.reads {w t : List Char} {n : Node} (plain : Plain w n) (ends : Ends t) :
    readPlain (w ++ t) = if isNarrow n then some (n, t) else none := by
  cases plain with
  | @decimal sign s ds signed whole =>
    have read := readPlain_decimal signed whole .absent .absent ends
    rw [readDecimal_spelled signed whole .absent .absent ends,
      if_pos (List.append_nil []), integer?_eq] at read
    rw [List.append_assoc]
    refine read.trans ?_
    split <;> rfl
  | @based letter base s ds named grouped =>
    have read := readNumber_based named grouped ends
    have notDigit : letter.isDigit = false := by
      have all : ∀ entry ∈ bases, entry.1.isDigit = false := by decide
      exact all _ named
    have noMoment : readMoment ('0' :: letter :: (s ++ t)) = none :=
      readMoment_eq_none (c := letter) (by simp) notDigit
    rw [List.cons_append, List.cons_append, readPlain_number (.inr (.inr rfl)) noMoment rfl, read,
      integer?_eq]
    split <;> rfl
  | @float sign s ds f fs e x signed whole fraction exponent either finite =>
    have read := readPlain_decimal signed whole fraction exponent ends
    rw [readDecimal_spelled signed whole fraction exponent ends, if_neg either, if_pos finite] at read
    simpa [isNarrow] using read
  | truth named =>
    have read : readWord (w ++ t) = some (.other, t) := by
      refine readWord_append ?_ t
      rcases named with rfl | rfl <;> simp [words]
    show readPlain (w ++ t) = some (.other, t)
    rw [← read]
    rcases named with rfl | rfl <;> rfl
  | @limit sign w signed named =>
    have read : readWord (w ++ t) = some (.other, t) := by
      refine readWord_append ?_ t
      rcases named with rfl | rfl <;> simp [words]
    -- A sign is read off first, and changes nothing about the word.
    have signedWord : ∀ c, c = '+' ∨ c = '-' → readPlain (c :: (w ++ t)) = some (.other, t) := by
      intro c isSign
      have first : c = '+' ∨ c = '-' ∨ c.isDigit := isSign.imp_right .inl
      have noMoment : readMoment (c :: (w ++ t)) = none := by
        refine readMoment_eq_none (c := c) (by simp) ?_
        rcases isSign with rfl | rfl <;> rfl
      have word : readSignedWord (c :: (w ++ t)) = some (.other, t) := by
        rw [← read]
        rcases isSign with rfl | rfl <;> rcases named with rfl | rfl <;> rfl
      rw [readPlain, if_pos first, noMoment]
      simp only [word]
    rcases signed with rfl | rfl | rfl
    · rw [← read]
      rcases named with rfl | rfl <;> rfl
    · exact signedWord '+' (.inl rfl)
    · exact signedWord '-' (.inr rfl)
  | moment moment =>
    have read := moment.reads ends
    obtain ⟨c, u, rfl, digit⟩ := moment.exists_first
    rw [List.cons_append] at read ⊢
    rw [readPlain, if_pos (.inr (.inr digit)), read]
    rfl

/-- Every integer can be written. -/
theorem exists_integer (v : Int) : ∃ w, Plain w (.integer v) := by
  have whole : ∀ m, Whole (Nat.toDigits 10 m) (Nat.toDigits 10 m) := fun m =>
    ⟨grouped_of_digits (Json.whole_toDigits m).1, (Json.whole_toDigits m).2⟩
  cases v with
  | ofNat m =>
    have value : integerOf [] (Nat.toDigits 10 m) = m := by
      simp [integerOf, Nat.ofDigitChars_ten_toDigits]
    have spelled := Plain.decimal (.inl rfl) (whole m)
    rw [value] at spelled
    exact ⟨_, spelled⟩
  | negSucc m =>
    have value : integerOf ['-'] (Nat.toDigits 10 (m + 1)) = Int.negSucc m := by
      simp [integerOf, Nat.ofDigitChars_ten_toDigits, Int.negSucc_eq]
    have spelled := Plain.decimal (.inr (.inr rfl)) (whole (m + 1))
    rw [value] at spelled
    exact ⟨_, spelled⟩

end Embedder.Toml
