import Embedder.Config.Toml.Document
import Embedder.Proofs.Config.Spelling

namespace Embedder.Toml

/-!
# How words are spelled in TOML

The grammar of what stands between words, of texts and of keys, as relations between a text, what
stands at its start, and how it goes on. Every way to spell a word is read as that word, as long as
what follows cannot belong to it.

* `Blanks`, `Void`, `Over`: what stands between words, and at the end of a line.
* `Quoted`, `Long`, `Quotation`: texts, in one line or over several.
* `Key`: dotted keys.
* `Ends`: what may follow a value.
-/

/-! ### The grammar -/

/-- The first text is the second one after any number of blanks. -/
def Blanks (s t : List Char) : Prop :=
  ∃ bs : List Char, (∀ c ∈ bs, isBlank c) ∧ s = bs ++ t

/-- The first text is the second one after a line end. -/
def LineEnd (s t : List Char) : Prop :=
  s = '\n' :: t ∨ s = '\r' :: '\n' :: t

/-- The first text is the second one after a comment, which goes up to the end of its line. -/
def Comment (s t : List Char) : Prop :=
  ∃ cs : List Char, (∀ c ∈ cs, isPlain c) ∧ s = '#' :: (cs ++ t) ∧ (t = [] ∨ ∃ u, LineEnd t u)

/-- The first text is the second one after any blanks, line ends and comments. -/
inductive Void : List Char → List Char → Prop where
  | refl (t : List Char) : Void t t
  | blank {s t : List Char} {c : Char} (blank : isBlank c) (more : Void s t) : Void (c :: s) t
  | lineEnd {s u t : List Char} (ended : LineEnd s u) (more : Void u t) : Void s t
  | comment {s u t : List Char} (comment : Comment s u) (more : Void u t) : Void s t

/-- The first text is the second one after any blanks and line ends. -/
inductive Gap : List Char → List Char → Prop where
  | refl (t : List Char) : Gap t t
  | blank {s t : List Char} {c : Char} (blank : isBlank c) (more : Gap s t) : Gap (c :: s) t
  | lineEnd {s u t : List Char} (ended : LineEnd s u) (more : Gap u t) : Gap s t

/-- The first text is the second one after the rest of a line: blanks, maybe a comment, and the line
end unless the text is over. -/
def Over (s t : List Char) : Prop :=
  ∃ u v, Blanks s u ∧ (u = v ∨ Comment u v) ∧ (LineEnd v t ∨ v = [] ∧ t = [])

/-- The letters that name a character after a backslash. -/
def letters : List (Char × Char) :=
  [('b', '\x08'), ('t', '\t'), ('n', '\n'), ('f', '\x0c'), ('r', '\r'), ('"', '"'), ('\\', '\\')]

/-- Characters up to a closing double quote: the text that spells them, the characters, and the
rest. -/
inductive Quoted : List Char → List Char → List Char → Prop where
  | close (t : List Char) : Quoted ('"' :: t) [] t
  | plain {s cs t : List Char} {c : Char} (plain : isPlain c) (quote : c ≠ '"')
    (backslash : c ≠ '\\') (more : Quoted s cs t) : Quoted (c :: s) (c :: cs) t
  | letter {s cs t : List Char} {l c : Char} (named : (l, c) ∈ letters) (more : Quoted s cs t) :
    Quoted ('\\' :: l :: s) (c :: cs) t
  | short {s cs t ds : List Char} {c : Char} (width : ds.length = 4)
    (value : charOfHex? ds = some c) (more : Quoted s cs t) :
    Quoted ('\\' :: 'u' :: (ds ++ s)) (c :: cs) t
  | long {s cs t ds : List Char} {c : Char} (width : ds.length = 8)
    (value : charOfHex? ds = some c) (more : Quoted s cs t) :
    Quoted ('\\' :: 'U' :: (ds ++ s)) (c :: cs) t

/-- Characters over several lines up to three closing quotes: the text that spells them, the
characters, and the rest. Up to two of the characters may stand behind as quotes that close nothing.
A backslash stands for something only between double quotes; before the end of a line, it joins the
line to what comes after the gap. -/
inductive Long (quote : Char) : List Char → List Char → List Char → Prop where
  | close {extra : List Char} (t : List Char) (quotes : ∀ c ∈ extra, c = quote)
    (few : extra.length ≤ 2) (stops : extra.length < 2 → t.head? ≠ some quote) :
    Long quote (quote :: quote :: quote :: (extra ++ t)) extra t
  | quote {s cs t : List Char} (single : ¬ [quote, quote] <+: s) (more : Long quote s cs t) :
    Long quote (quote :: s) (quote :: cs) t
  | plain {s cs t : List Char} {c : Char} (plain : isPlain c) (other : c ≠ quote)
    (backslash : quote = '"' → c ≠ '\\') (more : Long quote s cs t) : Long quote (c :: s) (c :: cs) t
  | lineEnd {s u cs t : List Char} (ended : LineEnd s u) (more : Long quote u cs t) :
    Long quote s ('\n' :: cs) t
  | letter {s cs t : List Char} {l c : Char} (basic : quote = '"') (named : (l, c) ∈ letters)
    (more : Long quote s cs t) : Long quote ('\\' :: l :: s) (c :: cs) t
  | short {s cs t ds : List Char} {c : Char} (basic : quote = '"') (width : ds.length = 4)
    (value : charOfHex? ds = some c) (more : Long quote s cs t) :
    Long quote ('\\' :: 'u' :: (ds ++ s)) (c :: cs) t
  | long {s cs t ds : List Char} {c : Char} (basic : quote = '"') (width : ds.length = 8)
    (value : charOfHex? ds = some c) (more : Long quote s cs t) :
    Long quote ('\\' :: 'U' :: (ds ++ s)) (c :: cs) t
  | join {s u v w cs t : List Char} (basic : quote = '"') (blanks : Blanks s u)
    (ended : LineEnd u v) (gap : Gap v w)
    (past : ∀ c ∈ w.head?, isBlank c = false ∧ c ≠ '\n' ∧ c ≠ '\r') (more : Long quote w cs t) :
    Long quote ('\\' :: s) cs t

/-- A text in quotes of any of the four kinds: what spells it, its characters, and the rest. A line
end that comes first in a text over several lines is no part of it. -/
inductive Quotation : List Char → List Char → List Char → Prop where
  | basic {s cs t : List Char} (quoted : Quoted s cs t) : Quotation ('"' :: s) cs t
  | literal {cs : List Char} (t : List Char) (plain : ∀ c ∈ cs, isPlain c ∧ c ≠ '\'') :
    Quotation ('\'' :: (cs ++ '\'' :: t)) cs t
  | long {quote : Char} {s u cs t : List Char} (kind : quote = '"' ∨ quote = '\'')
    (opened : LineEnd s u ∨ s = u ∧ ∀ v, ¬ LineEnd s v) (long : Long quote u cs t) :
    Quotation (quote :: quote :: quote :: s) cs t

/-- One part of a key: as it is, or in quotes of either kind. -/
inductive KeyPart : List Char → String → List Char → Prop where
  | bare {cs : List Char} (t : List Char) (nonempty : cs ≠ []) (bare : ∀ c ∈ cs, isBare c) :
    KeyPart (cs ++ t) (String.ofList cs) t
  | basic {s cs t : List Char} (quoted : Quoted s cs t) : KeyPart ('"' :: s) (String.ofList cs) t
  | literal {cs : List Char} (t : List Char) (plain : ∀ c ∈ cs, isPlain c ∧ c ≠ '\'') :
    KeyPart ('\'' :: (cs ++ '\'' :: t)) (String.ofList cs) t

/-- The parts of a dotted key, with the blanks after each. -/
inductive Key : List Char → List String → List Char → Prop where
  | last {s u t : List Char} {p : String} (part : KeyPart s p u) (blanks : Blanks u t) :
    Key s [p] t
  | dot {s u v w t : List Char} {p : String} {ps : List String} (part : KeyPart s p u)
    (before : Blanks u ('.' :: v)) (after : Blanks v w) (more : Key w ps t) : Key s (p :: ps) t

/-! ### Between words -/

theorem Blanks.refl (s : List Char) : Blanks s s :=
  ⟨[], by simp, rfl⟩

/-- There may be no blanks at all. -/
theorem Blanks.length_le {s t : List Char} (blanks : Blanks s t) : t.length ≤ s.length := by
  obtain ⟨bs, -, rfl⟩ := blanks
  simp

/-- What comes after blanks begins with something else. -/
theorem Blanks.skip {s t : List Char} (blanks : Blanks s t)
    (stops : ∀ c ∈ t.head?, isBlank c = false) : skipBlanks s = t := by
  obtain ⟨bs, blank, rfl⟩ := blanks
  exact (Json.takeWhile_dropWhile_append blank stops).2

/-- What comes first is a blank, or what comes after the blanks. -/
theorem Blanks.head {s t : List Char} (blanks : Blanks s t) {c : Char} (first : c ∈ s.head?) :
    isBlank c ∨ c ∈ t.head? := by
  obtain ⟨bs, blank, rfl⟩ := blanks
  cases bs with
  | nil => exact .inr first
  | cons b bs =>
    cases first
    exact .inl (blank c (by simp))

/-- Spaces and tabs are the only blanks. -/
theorem isBlank_eq_true_iff {c : Char} : isBlank c = true ↔ c = ' ' ∨ c = '\t' := by
  simp [isBlank]

/-- A line end takes up something, so whoever reads on past one comes to an end. -/
theorem LineEnd.length_lt {s t : List Char} (ended : LineEnd s t) : t.length < s.length := by
  rcases ended with rfl | rfl <;> simp only [List.length_cons] <;> omega

/-- A line end begins with one of two characters. -/
theorem LineEnd.head {s t : List Char} (ended : LineEnd s t) {c : Char} (first : c ∈ s.head?) :
    c = '\n' ∨ c = '\r' := by
  rcases ended with rfl | rfl <;> cases first <;> simp

/-- The characters of a line end stand in no text and in no comment. -/
theorem not_isPlain {c : Char} (ends : c = '\n' ∨ c = '\r') : isPlain c = false := by
  rcases ends with rfl | rfl <;> rfl

/-- A comment takes up its sign at least. -/
theorem Comment.length_lt {s t : List Char} (comment : Comment s t) : t.length < s.length := by
  obtain ⟨cs, -, rfl, -⟩ := comment
  simp only [List.length_cons, List.length_append]
  omega

/-- A comment begins with its sign. -/
theorem Comment.head {s t : List Char} (comment : Comment s t) {c : Char} (first : c ∈ s.head?) :
    c = '#' := by
  obtain ⟨cs, -, rfl, -⟩ := comment
  cases first
  rfl

/-- A comment goes on to the end of its line. -/
theorem Comment.stops {s t : List Char} (comment : Comment s t) :
    ∀ c ∈ t.head?, isPlain c = false := by
  obtain ⟨cs, -, -, rfl | ⟨u, ended⟩⟩ := comment
  · simp
  · exact fun c first => not_isPlain (ended.head first)

/-- The characters of a comment are passed over. -/
theorem skipVoid_plain {cs : List Char} (plain : ∀ c ∈ cs, isPlain c) (t : List Char) :
    skipVoid true (cs ++ t) = skipVoid true t := by
  induction cs with
  | nil => rfl
  | cons c cs ih =>
    obtain ⟨first, rest⟩ := List.forall_mem_cons.1 plain
    rw [List.cons_append, skipVoid, if_pos first, ih rest]
    · rintro rfl
      cases first
    · rintro u rfl -
      cases first

/-- A comment is passed over together with the rest of its line. -/
theorem Comment.skipVoid {s t : List Char} (comment : Comment s t) :
    skipVoid false s = Toml.skipVoid false t := by
  obtain ⟨cs, plain, rfl, ended⟩ := comment
  have begins : Toml.skipVoid false ('#' :: (cs ++ t)) = Toml.skipVoid true (cs ++ t) := rfl
  rw [begins, skipVoid_plain plain]
  rcases ended with rfl | ⟨u, rfl | rfl⟩ <;> rfl

/-- What may be passed over may be nothing. -/
theorem Void.length_le {s t : List Char} (void : Void s t) : t.length ≤ s.length := by
  induction void with
  | refl t => exact Nat.le_refl _
  | blank _ _ ih => exact Nat.le_succ_of_le ih
  | lineEnd ended _ ih => exact ih.trans ended.length_lt.le
  | comment comment _ ih => exact ih.trans comment.length_lt.le

/-- A gap may be nothing. -/
theorem Gap.length_le {s t : List Char} (gap : Gap s t) : t.length ≤ s.length := by
  induction gap with
  | refl t => exact Nat.le_refl _
  | blank _ _ ih => exact Nat.le_succ_of_le ih
  | lineEnd ended _ ih => exact ih.trans ended.length_lt.le

/-- Whether a character can neither be passed over nor begin what is passed over. -/
def isSolid (c : Char) : Bool :=
  isPlain c && !isBlank c && c ≠ '#'

/-- What begins neither blanks nor a line end nor a comment. -/
theorem isSolid_iff {c : Char} : isSolid c ↔ isPlain c ∧ isBlank c = false ∧ c ≠ '#' := by
  simp [isSolid, and_assoc]

/-- In front of what is solid, blanks are over. -/
theorem not_isBlank_of_isSolid {c : Char} (solid : isSolid c) : isBlank c = false :=
  (isSolid_iff.1 solid).2.1

/-- Letters and digits begin something. -/
theorem isSolid_of_isAlphanum {c : Char} (letter : c.isAlphanum) : isSolid c := by
  have other : ∀ d : Char, d.isAlphanum = false → c ≠ d := by
    rintro d none rfl
    cases letter.symm.trans none
  have plain : isPlain c := by
    simp only [Char.isAlphanum] at letter
    delta Char.isAlpha Char.isUpper Char.isLower at letter
    simp only [Char.isDigit, Bool.or_eq_true, Bool.and_eq_true, decide_eq_true_eq, ge_iff_le,
      UInt32.le_iff_toNat_le] at letter
    have range : (65 ≤ c.toNat ∧ c.toNat ≤ 90 ∨ 97 ≤ c.toNat ∧ c.toNat ≤ 122) ∨
      48 ≤ c.toNat ∧ c.toNat ≤ 57 := letter
    simp only [isPlain, Bool.or_eq_true, Bool.and_eq_true, decide_eq_true_eq]
    omega
  refine isSolid_iff.2 ⟨plain, ?_, other '#' rfl⟩
  simp [isBlank, other ' ' rfl, other '\t' rfl]

/-- What comes after blanks, line ends and comments begins with something else. -/
theorem Void.skip {s t : List Char} (void : Void s t) (stops : ∀ c ∈ t.head?, isSolid c) :
    skipVoid false s = t := by
  -- By induction on what is passed over, piece by piece.
  induction void with
  | refl t =>
    cases t with
    | nil => rfl
    | cons c t =>
      have solid := stops c rfl
      obtain ⟨plain, notBlank, notComment⟩ := isSolid_iff.1 solid
      rw [skipVoid, if_neg (by simp [notBlank]), if_neg notComment]
      · rintro rfl
        cases plain
      · rintro _ rfl -
        cases plain
  | @blank s t c blank _ ih =>
    rw [← ih stops]
    rcases isBlank_eq_true_iff.1 blank with rfl | rfl <;> rfl
  | lineEnd ended _ ih =>
    rw [← ih stops]
    rcases ended with rfl | rfl <;> rfl
  | comment comment _ ih => rw [comment.skipVoid, ih stops]

/-- At the end of the text, a line takes up nothing. -/
theorem Over.length_le {s t : List Char} (ended : Over s t) : t.length ≤ s.length := by
  obtain ⟨u, v, blanks, comment, ends⟩ := ended
  have first := blanks.length_le
  have second : v.length ≤ u.length := by
    rcases comment with rfl | comment
    · exact Nat.le_refl _
    · exact comment.length_lt.le
  have third : t.length ≤ v.length := by
    rcases ends with ends | ⟨rfl, rfl⟩
    · exact ends.length_lt.le
    · exact Nat.le_refl _
  omega

/-- The rest of a line is passed over. -/
theorem Over.endLine {s t : List Char} (ended : Over s t) : endLine s = some t := by
  obtain ⟨u, v, blanks, comment, ends⟩ := ended
  -- What comes after the comment is a line end, or nothing.
  have begins : ∀ c ∈ v.head?, c = '\n' ∨ c = '\r' := by
    rcases ends with ends | ⟨rfl, -⟩
    · exact fun c => ends.head
    · simp
  rcases comment with rfl | comment
  · have skipped : skipBlanks s = u := by
      refine blanks.skip fun c first => ?_
      rcases begins c first with rfl | rfl <;> rfl
    rw [Toml.endLine, skipped]
    rcases ends with (rfl | rfl) | ⟨rfl, rfl⟩ <;> rfl
  · have skipped : skipBlanks s = u := by
      refine blanks.skip fun c first => ?_
      rw [comment.head first]
      rfl
    have stops := comment.stops
    obtain ⟨cs, plain, rfl, -⟩ := comment
    rw [Toml.endLine, skipped]
    simp only [(Json.takeWhile_dropWhile_append plain stops).2]
    rcases ends with (rfl | rfl) | ⟨rfl, rfl⟩ <;> rfl

/-- Whether a character ends the value before it: it begins a comment or a line end, or it separates
or closes the parts of a value. -/
def isEnd (c : Char) : Bool :=
  c = '#' || c = '\n' || c = '\r' || c = ',' || c = ']' || c = '\x7d'

/-- What may follow a value: blanks, and then nothing or what ends it. -/
def Ends (t : List Char) : Prop :=
  ∃ u, Blanks t u ∧ ∀ c ∈ u.head?, isEnd c

/-- A value is followed by a blank or by what ends it. -/
theorem Ends.head {t : List Char} (ends : Ends t) {c : Char} (first : c ∈ t.head?) :
    isBlank c ∨ isEnd c := by
  obtain ⟨u, blanks, ended⟩ := ends
  exact (blanks.head first).imp_right (ended c)

/-- What follows a value begins with no character of a value. -/
theorem Ends.ne {t : List Char} (ends : Ends t) {d : Char} (inside : isBlank d = false)
    (goesOn : isEnd d = false) : ∀ c ∈ t.head?, c ≠ d := by
  rintro c first rfl
  rcases ends.head first with blank | ended
  · cases blank.symm.trans inside
  · cases ended.symm.trans goesOn

/-- What is in some characters of which none may follow a value does not follow one. -/
theorem Ends.not {t : List Char} (ends : Ends t) {p : Char → Bool}
    (inside : ∀ c, p c → isBlank c = false ∧ isEnd c = false) : ∀ c ∈ t.head?, p c = false := by
  intro c first
  refine Bool.eq_false_iff.2 fun holds => ?_
  obtain ⟨notBlank, goesOn⟩ := inside c holds
  exact ends.ne notBlank goesOn c first rfl

/-- Blanks with an end behind them follow a value. -/
theorem Blanks.ends {s t : List Char} (blanks : Blanks s t) (ended : ∀ c ∈ t.head?, isEnd c) :
    Ends s :=
  ⟨t, blanks, ended⟩

/-- So do blanks, line ends and comments: each of these ends the value, if it comes first. -/
theorem Void.ends {s t : List Char} (void : Void s t) (ended : ∀ c ∈ t.head?, isEnd c) : Ends s := by
  induction void with
  | refl t => exact ⟨t, .refl t, ended⟩
  | @blank s t c blank _ ih =>
    obtain ⟨u, ⟨bs, blanks, rfl⟩, first⟩ := ih ended
    exact ⟨u, ⟨c :: bs, List.forall_mem_cons.2 ⟨blank, blanks⟩, rfl⟩, first⟩
  | @lineEnd s _ _ lineEnd _ _ =>
    refine ⟨s, .refl s, fun c first => ?_⟩
    rcases lineEnd.head first with rfl | rfl <;> rfl
  | @comment s _ _ comment _ _ =>
    refine ⟨s, .refl s, fun c first => ?_⟩
    rw [comment.head first]
    rfl

/-- The rest of a line follows a value. -/
theorem Over.ends {s t : List Char} (ended : Over s t) : Ends s := by
  obtain ⟨u, v, blanks, comment, ends⟩ := ended
  refine blanks.ends fun c first => ?_
  rcases comment with rfl | comment
  · rcases ends with ends | ⟨rfl, -⟩
    · rcases ends.head first with rfl | rfl <;> rfl
    · cases first
  · rw [comment.head first]
    rfl

/-! ### Texts -/

/-- Every letter that names a character is read as that character. -/
theorem ofShortEscape?_of_mem {l c : Char} (named : (l, c) ∈ letters) :
    ofShortEscape? l = some c := by
  have all : ∀ entry ∈ letters, ofShortEscape? entry.1 = some entry.2 := by decide
  exact all _ named

/-- The characters of a quoted text are read. -/
theorem Quoted.readBasic {s cs t : List Char} (quoted : Quoted s cs t) :
    readBasic s = some (cs, t) := by
  -- Each way to spell a character is one case of the reader, tried after those before it have
  -- failed.
  induction quoted with
  | close t => rfl
  | @plain s cs t c plain quote backslash _ ih =>
    rw [Toml.readBasic, if_pos (by simp [plain, backslash]), ih]
    · rfl
    all_goals simp_all
  | @letter s cs t l c named _ ih =>
    have escape := ofShortEscape?_of_mem named
    have notShort : l ≠ 'u' := by
      rintro rfl
      cases escape
    have notLong : l ≠ 'U' := by
      rintro rfl
      cases escape
    rw [Toml.readBasic, escape, ih]
    · rfl
    all_goals simp_all
  | @short s cs t ds c width value _ ih =>
    obtain ⟨a, b, d, e, rfl⟩ := List.length_eq_four.1 width
    simp [Toml.readBasic, value, ih]
  | @long s cs t ds c width value _ ih =>
    match ds, width with
    | [_, _, _, _, _, _, _, _], _ => simp [Toml.readBasic, value, ih]

/-- A text takes up its closing quote at least. -/
theorem Quoted.length_lt {s cs t : List Char} (quoted : Quoted s cs t) : t.length < s.length := by
  induction quoted <;> simp only [List.length_cons, List.length_append] at * <;> omega

/-- A text between single quotes is read as it is. -/
theorem readLiteral_plain {cs : List Char} (plain : ∀ c ∈ cs, isPlain c ∧ c ≠ '\'')
    (t : List Char) : readLiteral (cs ++ '\'' :: t) = some (cs, t) := by
  induction cs with
  | nil => rfl
  | cons c cs ih =>
    obtain ⟨⟨first, other⟩, rest⟩ := List.forall_mem_cons.1 plain
    rw [List.cons_append, readLiteral, if_pos first, ih rest]
    · rfl
    · exact other

/-- A quote, as which a text over several lines may not go on without closing. -/
theorem extraQuotes_append {quote : Char} {extra t : List Char} (quotes : ∀ c ∈ extra, c = quote)
    (few : extra.length ≤ 2) (stops : extra.length < 2 → t.head? ≠ some quote) :
    extraQuotes quote (extra ++ t) = (extra, t) := by
  -- There are none, one or two of them, and with two no third one is looked for.
  match extra with
  | [] =>
    match t with
    | [] => rfl
    | [c] => simpa [extraQuotes] using stops
    | c :: d :: t =>
      have other : c ≠ quote := by simpa using stops
      simp [extraQuotes, other]
  | [a] =>
    obtain rfl := quotes a (by simp)
    match t with
    | [] => simp [extraQuotes]
    | c :: t => simpa [extraQuotes] using stops
  | [a, b] =>
    obtain rfl := quotes a (by simp)
    obtain rfl := quotes b (by simp)
    simp [extraQuotes]
  | _ :: _ :: _ :: _ => simp at few

/-- What a text between three single quotes is read as. -/
theorem Long.readLongLiteral {s cs t : List Char} (long : Long '\'' s cs t) :
    readLongLiteral s = some (cs, t) := by
  -- Cases that need a backslash do not arise between single quotes.
  induction long with
  | close t quotes few stops =>
    rw [Toml.readLongLiteral, extraQuotes_append quotes few stops]
  | @quote s cs t single _ ih =>
    rw [Toml.readLongLiteral, if_pos (by decide), ih]
    · rfl
    · rintro u - rfl
      exact single ⟨u, rfl⟩
    · rintro u same
      cases same
  | @plain s cs t c plain other _ _ ih =>
    rw [Toml.readLongLiteral, if_pos (by simp [plain]), ih]
    · rfl
    · exact fun _ isQuote _ => other isQuote
    · rintro u rfl
      cases plain
  | lineEnd ended _ ih =>
    rcases ended with rfl | rfl
    · rw [Toml.readLongLiteral, if_pos (by decide), ih]
      · rfl
      all_goals simp
    · rw [Toml.readLongLiteral, ih]
      rfl
  | letter basic | short basic | long basic | join basic => cases basic

/-- Blanks and line ends that are passed over. -/
theorem Gap.joins {s t u : List Char} {pieces : List Piece} (gap : Gap s t)
    (read : readLongBasic t = some (pieces, u)) :
    ∃ more, readLongBasic s = some (more, u) ∧ joinPieces true more = joinPieces true pieces := by
  induction gap with
  | refl => exact ⟨pieces, read, rfl⟩
  | @blank s t c blank _ ih =>
    obtain ⟨more, rest, joined⟩ := ih read
    refine ⟨.plain c :: more, ?_, by rw [joinPieces, if_pos (by simp [blank]), joined]⟩
    rcases isBlank_eq_true_iff.1 blank with rfl | rfl <;>
      simp [readLongBasic, isPlain, rest]
  | lineEnd ended _ ih =>
    obtain ⟨more, rest, joined⟩ := ih read
    refine ⟨.plain '\n' :: more, ?_, by rw [joinPieces, if_pos (by simp), joined]⟩
    rcases ended with rfl | rfl <;> simp [readLongBasic, rest]

/-- Blanks are the start of a gap. -/
theorem Blanks.gap {s t u : List Char} (blanks : Blanks s t) (gap : Gap t u) : Gap s u := by
  obtain ⟨bs, blank, rfl⟩ := blanks
  induction bs with
  | nil => exact gap
  | cons b bs ih =>
    obtain ⟨first, rest⟩ := List.forall_mem_cons.1 blank
    exact .blank first (ih rest)

/-- Where a backslash joins lines, what comes after it names no character and begins a gap. -/
theorem exists_gap {s u v : List Char} (blanks : Blanks s u) (ended : LineEnd u v) :
    ∃ c r, s = c :: r ∧ (isBlank c ∨ c = '\n' ∨ c = '\r') ∧ Gap r v := by
  obtain ⟨bs, blank, rfl⟩ := blanks
  cases bs with
  | cons b bs =>
    obtain ⟨first, rest⟩ := List.forall_mem_cons.1 blank
    exact ⟨b, bs ++ u, rfl, .inl first, Blanks.gap ⟨bs, rest, rfl⟩ (.lineEnd ended (.refl v))⟩
  | nil =>
    rcases ended with rfl | rfl
    · exact ⟨_, _, rfl, .inr (.inl rfl), .refl v⟩
    · exact ⟨_, _, rfl, .inr (.inr rfl), .lineEnd (.inl rfl) (.refl v)⟩

/-- A backslash at the end of a line passes over the gap after it. -/
theorem readLongBasic_join {s u v t : List Char} (blanks : Blanks s u) (ended : LineEnd u v)
    {pieces : List Piece} (read : readLongBasic v = some (pieces, t)) :
    ∃ more, readLongBasic ('\\' :: s) = some (.continuation :: more, t) ∧
      joinPieces true more = joinPieces true pieces := by
  -- Nothing but blanks comes after the backslash on its line.
  have past : isLineOver s := by
    have skipped : skipBlanks s = u := by
      refine blanks.skip fun c first => ?_
      rcases ended.head first with rfl | rfl <;> rfl
    rw [isLineOver, skipped]
    rcases ended with rfl | rfl <;> rfl
  obtain ⟨c, r, rfl, begins, gap⟩ := exists_gap blanks ended
  obtain ⟨more, rest, joined⟩ := gap.joins read
  -- So it is not the start of an escape.
  have unnamed : ofShortEscape? c = none ∧ c ≠ 'u' ∧ c ≠ 'U' := by
    rcases begins with blank | rfl | rfl
    · rcases isBlank_eq_true_iff.1 blank with rfl | rfl <;> decide
    all_goals decide
  obtain ⟨noLetter, notShort, notLong⟩ := unnamed
  refine ⟨more, ?_, joined⟩
  rw [readLongBasic, noLetter]
  · simp [past, rest]
  · exact fun _ _ _ _ _ same _ => notShort same
  · exact fun _ _ _ _ _ _ _ _ _ same _ => notLong same

/-- Characters that are not passed over stand for themselves. -/
theorem joinPieces_plain {cs : List Char} (solid : ∀ c ∈ cs, isBlank c = false ∧ c ≠ '\n')
    (skipping : Bool) : joinPieces skipping (cs.map .plain) = cs := by
  induction cs generalizing skipping with
  | nil => cases skipping <;> rfl
  | cons c cs ih =>
    obtain ⟨⟨notBlank, notEnd⟩, rest⟩ := List.forall_mem_cons.1 solid
    cases skipping with
    | false => exact congrArg _ (ih rest false)
    | true => simp [joinPieces, notBlank, notEnd, ih rest]

/-- What a text between three double quotes is read as: pieces that make the characters, also where
blanks are passed over, if there is none of these at its start. -/
theorem Long.readLongBasic {s cs t : List Char} (long : Long '"' s cs t) :
    ∃ pieces, readLongBasic s = some (pieces, t) ∧ joinPieces false pieces = cs ∧
      ((∀ c ∈ s.head?, isBlank c = false ∧ c ≠ '\n' ∧ c ≠ '\r') → joinPieces true pieces = cs) := by
  -- Pieces are read first and joined afterwards. What is read behind a gap is joined as if it had
  -- no gap before it, so both ways to join are carried along.
  induction long with
  | @close extra t quotes few stops =>
    have solid : ∀ c ∈ extra, isBlank c = false ∧ c ≠ '\n' := fun c mem => by
      rw [quotes c mem]
      decide
    have joined := joinPieces_plain solid
    refine ⟨extra.map .plain, ?_, joined false, fun _ => joined true⟩
    rw [Toml.readLongBasic, extraQuotes_append quotes few stops]
  | @quote s cs t single _ ih =>
    obtain ⟨pieces, read, joined, -⟩ := ih
    refine ⟨.plain '"' :: pieces, ?_, congrArg _ joined, fun _ => congrArg _ joined⟩
    rw [Toml.readLongBasic, if_pos (by decide), read]
    · rfl
    · rintro u - rfl
      exact single ⟨u, rfl⟩
    all_goals simp
  | @plain s cs t c plain other backslash _ ih =>
    obtain ⟨pieces, read, joined, -⟩ := ih
    have notBackslash := backslash rfl
    refine ⟨.plain c :: pieces, ?_, congrArg _ joined, fun stops => ?_⟩
    · rw [Toml.readLongBasic, if_pos (by simp [plain, notBackslash]), read]
      · rfl
      · exact fun _ isQuote _ => other isQuote
      · exact fun _ _ _ _ _ same _ => notBackslash same
      · exact fun _ _ _ _ _ _ _ _ _ same _ => notBackslash same
      · exact fun _ _ same _ => notBackslash same
      · rintro u rfl
        cases plain
    · obtain ⟨notBlank, notEnd, -⟩ := stops c rfl
      rw [joinPieces, if_neg (by simp [notBlank, notEnd]), joined]
  | @lineEnd s u cs t ended _ ih =>
    obtain ⟨pieces, read, joined, -⟩ := ih
    refine ⟨.plain '\n' :: pieces, ?_, congrArg _ joined, fun stops => ?_⟩
    · rcases ended with rfl | rfl <;> simp [Toml.readLongBasic, read]
    · rcases ended with rfl | rfl
      · exact absurd rfl (stops '\n' rfl).2.1
      · exact absurd rfl (stops '\r' rfl).2.2
  | @letter s cs t l c _ named _ ih =>
    obtain ⟨pieces, read, joined, -⟩ := ih
    have escape := ofShortEscape?_of_mem named
    refine ⟨.escaped c :: pieces, ?_, congrArg _ joined, fun _ => congrArg _ joined⟩
    rw [Toml.readLongBasic, escape]
    · simp [read]
    · rintro _ _ _ _ _ rfl
      cases escape
    · rintro _ _ _ _ _ _ _ _ _ rfl
      cases escape
  | @short s cs t ds c _ width value _ ih =>
    obtain ⟨pieces, read, joined, -⟩ := ih
    obtain ⟨a, b, d, e, rfl⟩ := List.length_eq_four.1 width
    exact ⟨.escaped c :: pieces, by simp [Toml.readLongBasic, value, read], congrArg _ joined,
      fun _ => congrArg _ joined⟩
  | @long s cs t ds c _ width value _ ih =>
    obtain ⟨pieces, read, joined, -⟩ := ih
    match ds, width with
    | [_, _, _, _, _, _, _, _], _ =>
      exact ⟨.escaped c :: pieces, by simp [Toml.readLongBasic, value, read], congrArg _ joined,
        fun _ => congrArg _ joined⟩
  | @join s u v w cs t _ blanks ended gap past _ ih =>
    obtain ⟨pieces, read, -, joined⟩ := ih
    obtain ⟨behind, rest, same⟩ := gap.joins read
    obtain ⟨more, whole, same'⟩ := readLongBasic_join blanks ended rest
    have whole' : joinPieces true more = cs := same'.trans (same.trans (joined past))
    exact ⟨_, whole, whole', fun _ => whole'⟩

/-- A line end right behind the opening quotes is passed over. -/
theorem skipFirstLineEnd_eq {s u : List Char} (opened : LineEnd s u ∨ s = u ∧ ∀ v, ¬ LineEnd s v) :
    skipFirstLineEnd s = u := by
  rcases opened with (rfl | rfl) | ⟨rfl, none⟩
  · rfl
  · rfl
  · rw [skipFirstLineEnd, lineEnd?.eq_def]
    split
    case h_1 v => exact absurd (.inl rfl) (none v)
    case h_2 v => exact absurd (.inr rfl) (none v)
    case h_3 => rfl

/-- A text in quotes of any kind is read, as long as no quote follows it. -/
theorem Quotation.reads {s cs t : List Char} (quotation : Quotation s cs t) (ends : Ends t) :
    readQuoted s = some (cs, t) := by
  cases quotation with
  | @basic s cs t quoted =>
    rw [← quoted.readBasic, readQuoted.eq_def]
    -- Three quotes would be an empty text with another quote behind.
    split
    case h_1 same =>
      cases same
      cases quoted with
      | close => exact absurd rfl (ends.ne (d := '"') rfl rfl _ rfl)
      | plain _ quote => exact absurd rfl quote
    case h_2 same => cases same; rfl
    case h_3 same => cases same
    case h_4 same => cases same
    case h_5 _ other _ _ => exact absurd rfl (other _)
  | @literal cs t plain =>
    rw [← readLiteral_plain plain t, readQuoted.eq_def]
    split
    case h_1 same => cases same
    case h_2 same => cases same
    case h_3 same =>
      cases cs with
      | nil =>
        cases same
        exact absurd rfl (ends.ne (d := '\'') rfl rfl _ rfl)
      | cons c cs => exact absurd (by simp_all) (plain c (by simp)).2
    case h_4 same => cases same; rfl
    case h_5 _ _ _ other => exact absurd rfl (other _)
  | long kind opened long =>
    rcases kind with rfl | rfl
    · obtain ⟨pieces, read, joined, -⟩ := long.readLongBasic
      simp [readQuoted, skipFirstLineEnd_eq opened, read, joined]
    · simp [readQuoted, skipFirstLineEnd_eq opened, long.readLongLiteral]

/-- A text over several lines takes up its closing quotes at least. -/
theorem Long.length_lt {quote : Char} {s cs t : List Char} (long : Long quote s cs t) :
    t.length < s.length := by
  induction long with
  | close | quote | plain | letter | short | long =>
    simp only [List.length_cons, List.length_append] at *
    omega
  | lineEnd ended _ ih => exact ih.trans ended.length_lt
  | join _ blanks ended gap _ _ ih =>
    have := blanks.length_le
    have := ended.length_lt
    have := gap.length_le
    simp only [List.length_cons]
    omega

/-- A text in quotes takes up its quotes at least. -/
theorem Quotation.length_lt {s cs t : List Char} (quotation : Quotation s cs t) :
    t.length < s.length := by
  cases quotation with
  | basic quoted => exact quoted.length_lt.trans (Nat.lt_succ_self _)
  | literal =>
    simp only [List.length_cons, List.length_append]
    omega
  | long _ opened long =>
    have inside := long.length_lt
    simp only [List.length_cons]
    rcases opened with ended | ⟨rfl, -⟩
    · have := ended.length_lt
      omega
    · omega

/-- A text in quotes is told by its first character. -/
theorem Quotation.exists_first {s cs t : List Char} (quotation : Quotation s cs t) :
    ∃ c u, s = c :: u ∧ (c = '"' ∨ c = '\'') := by
  cases quotation with
  | basic => exact ⟨_, _, rfl, .inl rfl⟩
  | literal => exact ⟨_, _, rfl, .inr rfl⟩
  | long kind => exact ⟨_, _, rfl, kind⟩

/-- Four digits name every character that must not stand in quotes as it is. -/
theorem charOfHex?_control : ∀ n < 128,
    charOfHex? ['0', '0', Bytes.hexDigit (n / 16), Bytes.hexDigit (n % 16)] =
      some (Char.ofNat n) := by
  decide

/-- Every text can be quoted. -/
theorem exists_quoted (cs t : List Char) : ∃ s, Quoted s cs t := by
  induction cs with
  | nil => exact ⟨_, .close t⟩
  | cons c cs ih =>
    obtain ⟨s, more⟩ := ih
    by_cases quote : c = '"'
    · subst quote
      exact ⟨_, .letter (l := '"') (by decide) more⟩
    by_cases backslash : c = '\\'
    · subst backslash
      exact ⟨_, .letter (l := '\\') (by decide) more⟩
    -- What can not stand for itself is written with its number.
    by_cases plain : isPlain c
    · exact ⟨_, .plain plain quote backslash more⟩
    · have small : c.toNat < 128 := by
        simp only [isPlain, Bool.or_eq_true, Bool.and_eq_true, decide_eq_true_eq, not_or,
          not_and, not_not] at plain
        by_cases control : 32 ≤ c.toNat
        · have := plain.2 control
          omega
        · omega
      have value := charOfHex?_control _ small
      rw [Char.ofNat_toNat] at value
      exact ⟨_, .short rfl value more⟩

/-! ### Keys -/

/-- Whether a character may begin a part of a key. -/
def opensKey (c : Char) : Bool :=
  isBare c || c = '"' || c = '\''

/-- A part of a key is told by its first character. -/
theorem KeyPart.exists_first {s t : List Char} {p : String} (part : KeyPart s p t) :
    ∃ c u, s = c :: u ∧ opensKey c := by
  cases part with
  | @bare cs t nonempty bare =>
    cases cs with
    | nil => exact absurd rfl nonempty
    | cons c cs => exact ⟨c, cs ++ t, rfl, by simp [opensKey, bare c (by simp)]⟩
  | basic => exact ⟨_, _, rfl, rfl⟩
  | literal => exact ⟨_, _, rfl, rfl⟩

/-- A part of a key takes up something. -/
theorem KeyPart.length_lt {s t : List Char} {p : String} (part : KeyPart s p t) :
    t.length < s.length := by
  cases part with
  | @bare cs t nonempty _ =>
    have := List.length_pos_iff.2 nonempty
    simp only [List.length_append]
    omega
  | basic quoted => exact quoted.length_lt.trans (Nat.lt_succ_self _)
  | literal =>
    simp only [List.length_cons, List.length_append]
    omega

/-- A bare part of a key ends before a blank. -/
theorem not_isBare_of_isBlank {c : Char} (blank : isBlank c) : isBare c = false := by
  rcases isBlank_eq_true_iff.1 blank with rfl | rfl <;> rfl

/-- What begins a key can not be passed over. -/
theorem isSolid_of_opensKey {c : Char} (opens : opensKey c) : isSolid c := by
  simp only [opensKey, isBare, Bool.or_eq_true, decide_eq_true_eq] at opens
  rcases opens with (((letter | rfl) | rfl) | rfl) | rfl
  · exact isSolid_of_isAlphanum letter
  all_goals rfl

/-- The blanks before a part of a key are all that is passed over before it. -/
theorem KeyPart.skip {r s t : List Char} {p : String} (part : KeyPart s p t)
    (blanks : Blanks r s) : skipBlanks r = s := by
  obtain ⟨d, u, rfl, opens⟩ := part.exists_first
  refine blanks.skip fun c first => ?_
  cases first
  exact not_isBlank_of_isSolid (isSolid_of_opensKey opens)

/-- A part of a key is read up to where it ends. -/
theorem KeyPart.reads {s t : List Char} {p : String} (part : KeyPart s p t)
    (stops : ∀ c ∈ t.head?, isBare c = false) : readKeyPart s = some (p, t) := by
  cases part with
  | @bare cs t nonempty bare =>
    obtain ⟨front, rest⟩ := Json.takeWhile_dropWhile_append bare stops
    cases cs with
    | nil => exact absurd rfl nonempty
    | cons c cs =>
      -- A bare part begins with no quote, so it is the last case.
      have first := bare c (by simp)
      have notBasic : c ≠ '"' := by
        rintro rfl
        cases first
      have notLiteral : c ≠ '\'' := by
        rintro rfl
        cases first
      rw [readKeyPart.eq_def]
      split
      case h_1 same => exact absurd (List.cons.inj same).1 notBasic
      case h_2 same => exact absurd (List.cons.inj same).1 notLiteral
      case h_3 => rw [front, rest]
  | basic quoted => simp [readKeyPart, quoted.readBasic]
  | literal t plain => simp [readKeyPart, readLiteral_plain plain]

/-- Where a key starts, after some blanks, its parts are read. -/
theorem Key.reads {s t : List Char} {ps : List String} (key : Key s ps t)
    (stops : ∀ c ∈ t.head?, isBlank c = false ∧ isBare c = false ∧ c ≠ '.') {fuel : Nat}
    (enough : ps.length ≤ fuel) {r : List Char} (blanks : Blanks r s) :
    readKeyParts fuel r = some (ps, t) := by
  -- By induction on the parts: each takes its blanks, itself and the dot after it.
  induction key generalizing fuel r with
  | @last s u t p part after =>
    obtain ⟨fuel, rfl⟩ : ∃ k, fuel = k + 1 := ⟨fuel - 1, by simp at enough; omega⟩
    have read := part.reads fun c first => by
      rcases after.head first with blank | first
      · exact not_isBare_of_isBlank blank
      · exact (stops c first).2.1
    have rest := after.skip fun c first => (stops c first).1
    rw [readKeyParts, part.skip blanks, read, Option.bind_eq_bind, Option.bind_some]
    simp only [rest]
    split
    case h_1 v => exact absurd rfl (stops '.' rfl).2.2
    case h_2 => rfl
  | @dot s u v w t p ps part before after _ ih =>
    obtain ⟨fuel, rfl⟩ : ∃ k, fuel = k + 1 := ⟨fuel - 1, by simp at enough; omega⟩
    have read := part.reads fun c first => by
      rcases before.head first with blank | first
      · exact not_isBare_of_isBlank blank
      · cases first
        rfl
    have rest := before.skip (by simp [isBlank])
    have fewer : ps.length ≤ fuel := by simpa using enough
    have more := ih stops fewer after
    simp [readKeyParts, part.skip blanks, read, rest, more]

/-- A key that is not too deep is read, behind any blanks. -/
theorem Key.readKey {s t : List Char} {ps : List String} (key : Key s ps t)
    (depth : ps.length < depthLimit) {r : List Char} (blanks : Blanks r s)
    (stops : ∀ c ∈ t.head?, isBlank c = false ∧ isBare c = false ∧ c ≠ '.') :
    readKey r = some (ps, t) :=
  key.reads stops (Nat.le_sub_one_of_lt depth) blanks

/-- A key is told by its first character. -/
theorem Key.exists_first {s t : List Char} {ps : List String} (key : Key s ps t) :
    ∃ c u, s = c :: u ∧ opensKey c := by
  cases key with
  | last part => exact part.exists_first
  | dot part => exact part.exists_first

/-- A key takes up something. -/
theorem Key.length_lt {s t : List Char} {ps : List String} (key : Key s ps t) :
    t.length < s.length := by
  induction key with
  | last part blanks => exact blanks.length_le.trans_lt part.length_lt
  | dot part before after _ ih =>
    have first := part.length_lt
    have second := before.length_le
    have third := after.length_le
    simp only [List.length_cons] at second
    omega

/-- Every key has a spelling: each part in double quotes, with points between them. -/
theorem exists_key {key : List String} (nonempty : key ≠ []) (t : List Char) :
    ∃ s, Key s key t := by
  have part : ∀ (p : String) (u : List Char), ∃ s, KeyPart s p u := by
    intro p u
    obtain ⟨s, quoted⟩ := exists_quoted p.toList u
    have basic := KeyPart.basic quoted
    rw [String.ofList_toList] at basic
    exact ⟨_, basic⟩
  induction key with
  | nil => exact absurd rfl nonempty
  | cons p ps ih =>
    cases ps with
    | nil =>
      obtain ⟨s, first⟩ := part p t
      exact ⟨s, .last first (.refl t)⟩
    | cons q ps =>
      obtain ⟨w, more⟩ := ih (by simp)
      obtain ⟨s, first⟩ := part p ('.' :: w)
      exact ⟨s, .dot first (.refl _) (.refl w) more⟩

end Embedder.Toml
