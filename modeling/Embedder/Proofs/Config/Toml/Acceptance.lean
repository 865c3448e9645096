import Embedder.Proofs.Config.Toml.Values

namespace Embedder.Toml

/-!
# Nothing else is a value in TOML

What is read as a value is spelled as one: the grammar leaves out nothing that is accepted. Each
reader is taken on its own, along its recursion, from the parts of words up to nested values.

* `quotation_of_readQuoted`, `key_of_readKey`: texts and keys.
* `beginsWith_of_readPlain`: words.
* `Sound`, `sound_of_total`: values, down to any level.
* `readValue_eq_some_iff`: a value is read just where one is spelled.
-/

/-! ### Texts -/

/-- The letters that are read after a backslash are those that the grammar names. -/
theorem mem_letters_of_ofShortEscape? {l c : Char} (named : ofShortEscape? l = some c) :
    (l, c) ∈ letters := by
  unfold ofShortEscape? at named
  split_ifs at named <;> cases named <;> subst l <;> decide

/-- What is read up to a double quote is spelled by characters and escapes. -/
theorem quoted_of_readBasic {s cs t : List Char} (read : readBasic s = some (cs, t)) :
    Quoted s cs t := by
  -- Each case of the reader is one way to spell a character.
  induction s using readBasic.induct generalizing cs with
  | case1 => cases read
  | case2 rest =>
    cases read
    exact .close t
  | case3 a b c d rest ih =>
    simp only [readBasic, Option.bind_eq_bind, Option.bind_eq_some_iff, Option.pure_def] at read
    obtain ⟨x, value, ⟨text, u⟩, more, same⟩ := read
    cases same
    have width : [a, b, c, d].length = 4 := rfl
    exact .short width value (ih more)
  | case4 a b c d e f g h rest ih =>
    simp only [readBasic, Option.bind_eq_bind, Option.bind_eq_some_iff, Option.pure_def] at read
    obtain ⟨x, value, ⟨text, u⟩, more, same⟩ := read
    cases same
    have width : [a, b, c, d, e, f, g, h].length = 8 := rfl
    exact .long width value (ih more)
  | case5 letter rest notShort notLong ih =>
    rw [readBasic] at read
    · simp only [Option.bind_eq_bind, Option.bind_eq_some_iff, Option.pure_def] at read
      obtain ⟨x, named, ⟨text, u⟩, more, same⟩ := read
      cases same
      exact .letter (mem_letters_of_ofShortEscape? named) (ih more)
    · exact notShort
    · exact notLong
  | case6 c rest quote _ _ _ plain ih =>
    rw [readBasic, if_pos plain] at read
    · simp only [Option.bind_eq_bind, Option.bind_eq_some_iff, Option.pure_def] at read
      obtain ⟨⟨text, u⟩, more, same⟩ := read
      cases same
      obtain ⟨plain, backslash⟩ := Bool.and_eq_true_iff.1 plain
      exact .plain plain quote (of_decide_eq_true backslash) (ih more)
    all_goals assumption
  | case7 c rest quote _ _ _ other =>
    rw [readBasic, if_neg other] at read
    · cases read
    all_goals assumption

/-- What is read up to a single quote stands for itself. -/
theorem plain_of_readLiteral {s cs t : List Char} (read : readLiteral s = some (cs, t)) :
    s = cs ++ '\'' :: t ∧ ∀ c ∈ cs, isPlain c ∧ c ≠ '\'' := by
  induction s using readLiteral.induct generalizing cs with
  | case1 => cases read
  | case2 rest =>
    cases read
    exact ⟨rfl, by simp⟩
  | case3 c rest quote plain ih =>
    rw [readLiteral, if_pos plain] at read
    · simp only [Option.bind_eq_bind, Option.bind_eq_some_iff, Option.pure_def] at read
      obtain ⟨⟨text, u⟩, more, same⟩ := read
      cases same
      obtain ⟨rfl, all⟩ := ih more
      exact ⟨rfl, List.forall_mem_cons.2 ⟨⟨plain, quote⟩, all⟩⟩
    · exact quote
  | case4 c rest quote other =>
    rw [readLiteral, if_neg other] at read
    · cases read
    · exact quote

/-- Quotes behind the closing ones are told from what follows. -/
theorem extraQuotes_eq {quote : Char} {s extra t : List Char}
    (read : extraQuotes quote s = (extra, t)) :
    s = extra ++ t ∧ (∀ c ∈ extra, c = quote) ∧ extra.length ≤ 2 ∧
      (extra.length < 2 → t.head? ≠ some quote) := by
  rw [extraQuotes.eq_def] at read
  split at read
  next a b rest =>
    split_ifs at read with first second <;> cases read <;> simp_all
  next a =>
    split_ifs at read with first <;> cases read <;> simp_all
  next =>
    cases read
    simp

/-- What is read up to three single quotes is spelled over several lines. -/
theorem long_of_readLongLiteral {s cs t : List Char} (read : readLongLiteral s = some (cs, t)) :
    Long '\'' s cs t := by
  induction s using readLongLiteral.induct generalizing cs with
  | case1 => cases read
  | case2 rest =>
    obtain ⟨rfl, quotes, few, stops⟩ := extraQuotes_eq (Option.some.inj read)
    exact .close t quotes few stops
  | case3 rest ih =>
    simp only [readLongLiteral, Option.bind_eq_bind, Option.bind_eq_some_iff, Option.pure_def] at read
    obtain ⟨⟨text, u⟩, more, same⟩ := read
    cases same
    exact .lineEnd (.inr rfl) (ih more)
  | case4 c rest notClosed notEnd plain ih =>
    rw [readLongLiteral, if_pos plain] at read
    · simp only [Option.bind_eq_bind, Option.bind_eq_some_iff, Option.pure_def] at read
      obtain ⟨⟨text, u⟩, more, same⟩ := read
      cases same
      -- A single quote that closes nothing is a character like others, but for what must not come
      -- after it.
      by_cases quote : c = '\''
      · subst quote
        refine .quote ?_ (ih more)
        rintro ⟨v, rfl⟩
        exact notClosed v rfl rfl
      · rcases Bool.or_eq_true_iff.1 plain with plain | ended
        · exact .plain plain quote (fun basic => by cases basic) (ih more)
        · cases of_decide_eq_true ended
          exact .lineEnd (.inl rfl) (ih more)
    · exact notClosed
    · exact notEnd
  | case5 c rest notClosed notEnd other =>
    rw [readLongLiteral, if_neg other] at read
    · cases read
    · exact notClosed
    · exact notEnd

/-- What is passed over goes on to the end of the gap. -/
theorem Gap.rest {s v w : List Char} (passed : Gap s v) (gap : Gap s w)
    (past : ∀ c ∈ w.head?, isBlank c = false ∧ c ≠ '\n' ∧ c ≠ '\r') : Gap v w := by
  -- Both gaps go on in the same way, until the shorter one is over.
  induction passed with
  | refl => exact gap
  | @blank s v c blank _ ih =>
    cases gap with
    | refl =>
      have notBlank := (past c rfl).1
      cases blank.symm.trans notBlank
    | blank _ more => exact ih more
    | lineEnd ended => rcases ended.head (c := c) rfl with rfl | rfl <;> cases blank
  | @lineEnd s u v ended _ ih =>
    cases gap with
    | refl =>
      rcases ended with rfl | rfl
      · exact absurd rfl (past '\n' rfl).2.1
      · exact absurd rfl (past '\r' rfl).2.2
    | @blank _ _ c blank more => rcases ended.head (c := c) rfl with rfl | rfl <;> cases blank
    | lineEnd ended' more =>
      rcases ended with rfl | rfl <;> rcases ended' with same | same <;> cases same <;> exact ih more

/-- What is read as a line end is one. -/
theorem lineEnd_of_lineEnd? {s t : List Char} (ended : lineEnd? s = some t) : LineEnd s t := by
  rw [lineEnd?.eq_def] at ended
  split at ended
  · cases ended
    exact .inl rfl
  · cases ended
    exact .inr rfl
  · cases ended

/-- What is passed over as blanks are blanks. -/
theorem blanks_skipBlanks (s : List Char) : Blanks s (skipBlanks s) :=
  ⟨s.takeWhile isBlank, fun _ mem => List.mem_takeWhile_imp mem,
    (List.takeWhile_append_dropWhile ..).symm⟩

/-- A backslash with nothing but blanks after it on its line joins the line to what comes after the
gap. -/
theorem Long.joined {c : Char} {s w cs t : List Char} (long : Long '"' w cs t)
    (past : isLineOver (c :: s)) (gap : Gap s w)
    (solid : ∀ c ∈ w.head?, isBlank c = false ∧ c ≠ '\n' ∧ c ≠ '\r') :
    Long '"' ('\\' :: c :: s) cs t := by
  have blanks := blanks_skipBlanks (c :: s)
  obtain ⟨v, ended⟩ := Option.isSome_iff_exists.1 past
  have ended := lineEnd_of_lineEnd? ended
  obtain ⟨d, u, same, begins, passed⟩ := exists_gap blanks ended
  cases same
  exact .join rfl blanks ended (passed.rest gap solid) solid long

/-- Pieces are spelled as the text that they join to, and as what this is without the gap that it may
begin with. -/
structure SpellsPieces (s : List Char) (pieces : List Piece) (t : List Char) : Prop where
  whole : Long '"' s (joinPieces false pieces) t
  ungapped : ∃ w, Gap s w ∧ (∀ c ∈ w.head?, isBlank c = false ∧ c ≠ '\n' ∧ c ≠ '\r') ∧
    Long '"' w (joinPieces true pieces) t

namespace SpellsPieces

/-- An escape or a quote begins no gap, so what is said of its start is said of the whole. -/
theorem of_solid {c : Char} {s t : List Char} {pieces : List Piece}
    (solid : isBlank c = false ∧ c ≠ '\n' ∧ c ≠ '\r')
    (same : joinPieces true pieces = joinPieces false pieces)
    (long : Long '"' (c :: s) (joinPieces false pieces) t) : SpellsPieces (c :: s) pieces t := by
  refine ⟨long, c :: s, .refl _, fun d first => ?_, same ▸ long⟩
  cases first
  exact solid

/-- Three quotes close a text, and up to two quotes after them are still a part of it. -/
theorem close {s extra t : List Char} (divided : extraQuotes '"' s = (extra, t)) :
    SpellsPieces ('"' :: '"' :: '"' :: s) (extra.map .plain) t := by
  obtain ⟨rfl, quotes, few, stops⟩ := extraQuotes_eq divided
  have solid : ∀ c ∈ extra, isBlank c = false ∧ c ≠ '\n' := fun c mem => by
    rw [quotes c mem]
    decide
  have joined := joinPieces_plain solid
  refine of_solid (by decide) ((joined true).trans (joined false).symm) ?_
  rw [joined false]
  exact .close t quotes few stops

/-- A line end is one piece, and part of the gap that the pieces after it may begin with. -/
theorem lineEnd {s u t : List Char} {pieces : List Piece} (ended : LineEnd s u)
    (more : SpellsPieces u pieces t) : SpellsPieces s (.plain '\n' :: pieces) t := by
  obtain ⟨long, w, gap, solid, rest⟩ := more
  exact ⟨.lineEnd ended long, w, .lineEnd ended gap, solid, rest⟩

/-- Any other character that stands for itself is part of a gap just if it is blank. A quote is one
as long as it does not close the text. -/
theorem plain {c : Char} {s t : List Char} {pieces : List Piece} (plain : isPlain c)
    (backslash : c ≠ '\\') (single : c = '"' → ¬ ['"', '"'] <+: s)
    (more : SpellsPieces s pieces t) : SpellsPieces (c :: s) (.plain c :: pieces) t := by
  obtain ⟨long, w, gap, solid, rest⟩ := more
  have whole : Long '"' (c :: s) (c :: joinPieces false pieces) t := by
    by_cases quote : c = '"'
    · subst quote
      exact .quote (single rfl) long
    · exact .plain plain quote (fun _ => backslash) long
  refine ⟨whole, ?_⟩
  have inLine : c ≠ '\n' ∧ c ≠ '\r' := by
    constructor <;> rintro rfl <;> cases plain
  by_cases blank : isBlank c
  · rw [joinPieces, if_pos (by rw [blank, Bool.true_or])]
    exact ⟨w, .blank blank gap, solid, rest⟩
  · refine of_solid ⟨Bool.eq_false_iff.2 blank, inLine⟩ ?_ whole |>.ungapped
    rw [joinPieces, if_neg (by simp [blank, inLine.1])]
    rfl

end SpellsPieces

/-- What is read up to three double quotes is spelled over several lines. -/
theorem spellsPieces_of_readLongBasic {s t : List Char} {pieces : List Piece}
    (read : readLongBasic s = some (pieces, t)) : SpellsPieces s pieces t := by
  induction s using readLongBasic.induct generalizing pieces with
  | case1 => cases read
  | case2 rest extra u divided =>
    rw [readLongBasic, divided] at read
    cases read
    exact .close divided
  | case3 a b c d rest ih =>
    simp only [readLongBasic, Option.bind_eq_bind, Option.bind_eq_some_iff, Option.pure_def] at read
    obtain ⟨x, value, ⟨text, u⟩, more, same⟩ := read
    cases same
    have width : [a, b, c, d].length = 4 := rfl
    exact .of_solid (by decide) rfl (.short rfl width value (ih more).whole)
  | case4 a b c d e f g h rest ih =>
    simp only [readLongBasic, Option.bind_eq_bind, Option.bind_eq_some_iff, Option.pure_def] at read
    obtain ⟨x, value, ⟨text, u⟩, more, same⟩ := read
    cases same
    have width : [a, b, c, d, e, f, g, h].length = 8 := rfl
    exact .of_solid (by decide) rfl (.long rfl width value (ih more).whole)
  | case5 letter rest notShort notLong x named ih =>
    rw [readLongBasic, named] at read
    · simp only [Option.bind_eq_bind, Option.bind_eq_some_iff, Option.pure_def] at read
      obtain ⟨⟨text, u⟩, more, same⟩ := read
      cases same
      exact .of_solid (by decide) rfl
        (.letter rfl (mem_letters_of_ofShortEscape? named) (ih more).whole)
    · exact notShort
    · exact notLong
  | case6 letter rest notShort notLong unnamed past ih =>
    rw [readLongBasic, unnamed] at read
    · simp only [past, if_true, Option.bind_eq_bind, Option.bind_eq_some_iff,
        Option.pure_def] at read
      obtain ⟨⟨ps, u⟩, more, same⟩ := read
      cases same
      obtain ⟨-, w, gap, solid, long⟩ := ih more
      exact .of_solid (by decide) rfl (long.joined past gap solid)
    · exact notShort
    · exact notLong
  | case7 letter rest notShort notLong unnamed other =>
    rw [readLongBasic, unnamed] at read
    · simp [other] at read
    · exact notShort
    · exact notLong
  | case8 rest ih =>
    simp only [readLongBasic, Option.bind_eq_bind, Option.bind_eq_some_iff, Option.pure_def] at read
    obtain ⟨⟨text, u⟩, more, same⟩ := read
    cases same
    exact .lineEnd (.inr rfl) (ih more)
  | case9 c rest notClosed notShort notLong notLetter notEnd plain ih =>
    rw [readLongBasic, if_pos plain] at read
    · simp only [Option.bind_eq_bind, Option.bind_eq_some_iff, Option.pure_def] at read
      obtain ⟨⟨ps, u⟩, more, same⟩ := read
      cases same
      rcases Bool.or_eq_true_iff.1 plain with plain | ended
      · obtain ⟨plain, backslash⟩ := Bool.and_eq_true_iff.1 plain
        refine .plain plain (of_decide_eq_true backslash) ?_ (ih more)
        rintro rfl ⟨v, rfl⟩
        exact notClosed v rfl rfl
      · cases of_decide_eq_true ended
        exact .lineEnd (.inl rfl) (ih more)
    all_goals assumption
  | case10 c rest notClosed notShort notLong notLetter notEnd other =>
    rw [readLongBasic, if_neg other] at read
    · cases read
    all_goals assumption

/-- Behind opening quotes, a line end is passed over just if there is one. -/
theorem opened_skipFirstLineEnd (s : List Char) :
    LineEnd s (skipFirstLineEnd s) ∨ s = skipFirstLineEnd s ∧ ∀ v, ¬ LineEnd s v := by
  rw [skipFirstLineEnd]
  cases ended : lineEnd? s with
  | some u => exact .inl (lineEnd_of_lineEnd? ended)
  | none =>
    refine .inr ⟨rfl, fun v lineEnd => ?_⟩
    rcases lineEnd with rfl | rfl <;> cases ended

/-- What is read as a text in quotes is spelled as one. -/
theorem quotation_of_readQuoted {s cs t : List Char} (read : readQuoted s = some (cs, t)) :
    Quotation s cs t := by
  rw [readQuoted.eq_def] at read
  split at read
  · simp only [Option.bind_eq_bind, Option.bind_eq_some_iff, Option.pure_def] at read
    obtain ⟨⟨pieces, u⟩, long, same⟩ := read
    cases same
    exact .long (.inl rfl) (opened_skipFirstLineEnd _) (spellsPieces_of_readLongBasic long).whole
  · exact .basic (quoted_of_readBasic read)
  · exact .long (.inr rfl) (opened_skipFirstLineEnd _) (long_of_readLongLiteral read)
  · obtain ⟨rfl, plain⟩ := plain_of_readLiteral read
    exact .literal t plain
  · cases read

/-! ### Keys -/

/-- What is read as a part of a key is spelled as one. -/
theorem keyPart_of_readKeyPart {s t : List Char} {p : String} (read : readKeyPart s = some (p, t)) :
    KeyPart s p t := by
  rw [readKeyPart.eq_def] at read
  split at read
  · obtain ⟨⟨cs, u⟩, quoted, same⟩ := Option.map_eq_some_iff.1 read
    cases same
    exact .basic (quoted_of_readBasic quoted)
  · obtain ⟨⟨cs, u⟩, literal, same⟩ := Option.map_eq_some_iff.1 read
    cases same
    obtain ⟨rfl, plain⟩ := plain_of_readLiteral literal
    exact .literal t plain
  · have whole := List.takeWhile_append_dropWhile (p := isBare) (l := s)
    split at read
    · cases read
    next nonempty =>
      cases read
      have bare := KeyPart.bare (s.dropWhile isBare) (fun none => nonempty none)
        (fun c mem => List.mem_takeWhile_imp mem)
      rwa [whole] at bare

/-- What is read as a key is spelled as one, behind some blanks. -/
theorem key_of_readKeyParts {fuel : Nat} {s t : List Char} {ps : List String}
    (read : readKeyParts fuel s = some (ps, t)) :
    ps.length ≤ fuel ∧ ∃ k, Blanks s k ∧ Key k ps t := by
  induction fuel generalizing s ps with
  | zero => cases read
  | succ fuel ih =>
    simp only [readKeyParts, Option.bind_eq_bind, Option.bind_eq_some_iff, Option.pure_def] at read
    obtain ⟨⟨p, u⟩, part, read⟩ := read
    have part := keyPart_of_readKeyPart part
    have after := blanks_skipBlanks u
    -- A point announces another part; anything else ends the key.
    split at read
    next v dotted =>
      simp only at dotted
      rw [dotted] at after
      simp only [Option.bind_eq_some_iff] at read
      obtain ⟨⟨qs, w⟩, more, same⟩ := read
      cases same
      obtain ⟨few, k, between, key⟩ := ih more
      exact ⟨Nat.succ_le_succ few, _, blanks_skipBlanks s, .dot part after between key⟩
    next =>
      cases read
      exact ⟨Nat.succ_le_succ (Nat.zero_le _), _, blanks_skipBlanks s, .last part after⟩

/-- What is read as a key is not too deep. -/
theorem key_of_readKey {s t : List Char} {ps : List String} (read : readKey s = some (ps, t)) :
    ps.length < depthLimit ∧ ∃ k, Blanks s k ∧ Key k ps t := by
  obtain ⟨few, key⟩ := key_of_readKeyParts read
  exact ⟨Nat.lt_of_le_of_lt few (by decide), key⟩

/-! ### Digits -/

/-- What is read as digits is spelled by digits, behind a separator if the first is one. -/
theorem grouped_of_readDigits {isDigit : Char → Bool} {s ds t : List Char}
    (read : readDigits isDigit s = (ds, t)) :
    ds = [] ∧ s = t ∨ ∃ g, Grouped isDigit g ds ∧ (s = g ++ t ∨ s = '_' :: (g ++ t)) := by
  -- What is read behind a digit may begin with a separator, but the digits themselves do not.
  induction s using readDigits.induct isDigit generalizing ds t with
  | case1 d rest digit ds' u more ih =>
    rw [readDigits, if_pos digit, more] at read
    cases read
    rcases ih more with ⟨rfl, rfl⟩ | ⟨g, grouped, rfl | rfl⟩
    · exact .inr ⟨[d], .last digit, .inr rfl⟩
    · exact .inr ⟨d :: g, .digit digit grouped, .inr rfl⟩
    · exact .inr ⟨d :: '_' :: g, .separator digit grouped, .inr rfl⟩
  | case2 d rest other =>
    rw [readDigits, if_neg other] at read
    cases read
    exact .inl ⟨rfl, rfl⟩
  | case3 d rest notSeparator digit ds' u more ih =>
    rw [readDigits, if_pos digit, more] at read
    · cases read
      rcases ih more with ⟨rfl, rfl⟩ | ⟨g, grouped, rfl | rfl⟩
      · exact .inr ⟨[d], .last digit, .inl rfl⟩
      · exact .inr ⟨d :: g, .digit digit grouped, .inl rfl⟩
      · exact .inr ⟨d :: '_' :: g, .separator digit grouped, .inl rfl⟩
    · exact notSeparator
  | case4 d rest notSeparator other =>
    rw [readDigits, if_neg other] at read
    · cases read
      exact .inl ⟨rfl, rfl⟩
    · exact notSeparator
  | case5 =>
    cases read
    exact .inl ⟨rfl, rfl⟩

/-- What is read as some digits is spelled by digits. -/
theorem grouped_of_someDigits {isDigit : Char → Bool} (other : isDigit '_' = false)
    {s ds t : List Char} (read : someDigits isDigit s = some (ds, t)) :
    ∃ g, Grouped isDigit g ds ∧ s = g ++ t := by
  cases s with
  | nil => cases read
  | cons d s =>
    rw [someDigits] at read
    split_ifs at read with digit
    rcases grouped_of_readDigits (Option.some.inj read) with ⟨rfl, rfl⟩ | ⟨g, grouped, same⟩
    · rw [readDigits, if_pos digit] at read
      · cases read
      · rintro _ _ rfl
        cases digit.symm.trans other
    · refine ⟨g, grouped, same.resolve_right fun separator => ?_⟩
      cases separator
      cases digit.symm.trans other

/-- What is read as a whole number has no leading zero. -/
theorem whole_of_wholeDigits {s ds t : List Char} (read : wholeDigits s = some (ds, t)) :
    ∃ g, Whole g ds ∧ s = g ++ t := by
  rw [wholeDigits.eq_def] at read
  split at read
  · cases read
    exact ⟨['0'], ⟨.last rfl, fun _ => rfl⟩, rfl⟩
  next notZero =>
    obtain ⟨g, grouped, rfl⟩ := grouped_of_someDigits rfl read
    refine ⟨g, ⟨grouped, fun zero => ?_⟩, rfl⟩
    obtain ⟨d, u, es, rfl, rfl, -⟩ := grouped.exists_first
    cases zero
    exact absurd rfl (notZero _)

/-! ### Numbers -/

/-- What is read as a sign is one, or none. -/
theorem sign_readSign (s : List Char) :
    ∃ sign, Sign sign ∧ s = sign ++ (readSign s).2 ∧ (readSign s).1 = decide (sign = ['-']) := by
  rw [readSign.eq_def]
  split
  · exact ⟨_, .inr (.inr rfl), rfl, rfl⟩
  · exact ⟨_, .inr (.inl rfl), rfl, rfl⟩
  · exact ⟨[], .inl rfl, rfl, rfl⟩

/-- What is read as a fraction is a point with digits after it, or nothing. -/
theorem fraction_of_readFraction {s t : List Char} {o : Option (List Char)}
    (read : readFraction s = some (o, t)) :
    ∃ f, Fraction f (o.getD []) ∧ s = f ++ t ∧ (f = [] ↔ o.isNone) := by
  rw [readFraction.eq_def] at read
  split at read
  · obtain ⟨⟨ds, u⟩, digits, same⟩ := Option.map_eq_some_iff.1 read
    cases same
    obtain ⟨g, grouped, rfl⟩ := grouped_of_someDigits rfl digits
    exact ⟨'.' :: g, .present grouped, rfl, by simp⟩
  · cases read
    exact ⟨[], .absent, rfl, by simp⟩

/-- What is read as an exponent is a letter with a power after it, or nothing. -/
theorem exponent_of_readExponent {s t : List Char} {o : Option Int}
    (read : readExponent s = some (o, t)) :
    ∃ e, Exponent e (o.getD 0) ∧ s = e ++ t ∧ (e = [] ↔ o.isNone) := by
  cases s with
  | nil =>
    cases read
    exact ⟨[], .absent, rfl, by simp⟩
  | cons c s =>
    -- Only a letter begins a power; anything else is left for what comes next.
    rw [readExponent] at read
    split_ifs at read with letter
    · obtain ⟨sign, signed, same, isNegative⟩ := sign_readSign s
      simp only [Option.bind_eq_bind, Option.bind_eq_some_iff, Option.pure_def] at read
      obtain ⟨⟨ds, u⟩, digits, rest⟩ := read
      cases rest
      obtain ⟨g, grouped, rest⟩ := grouped_of_someDigits rfl digits
      have value := integerOf_eq sign grouped.digits.2
      refine ⟨c :: (sign ++ g), ?_, ?_, by simp⟩
      · rw [isNegative, Option.getD_some, value]
        exact .present letter signed grouped
      · rw [same, rest]
        simp
    · cases read
      exact ⟨[], .absent, rfl, by simp⟩

/-- A word with its value is at the start of a text; integers have no more than 64 bits. -/
def BeginsWith (s : List Char) (n : Node) (t : List Char) : Prop :=
  ∃ w, s = w ++ t ∧ Plain w n ∧ isNarrow n

/-- An integer that is kept is narrow. -/
theorem integer?_eq_some {v w : Int} (read : integer? v = some w) :
    w = v ∧ isNarrow (.integer v) := by
  rw [integer?_eq] at read
  split_ifs at read with narrow
  cases read
  exact ⟨rfl, narrow⟩

/-- What is read as a decimal number is spelled as one. -/
theorem beginsWith_of_readDecimal {s t : List Char} {v : Option Int}
    (read : readDecimal s = some (v, t)) :
    BeginsWith s ((v.map Node.integer).getD .other) t := by
  obtain ⟨sign, signed, same, isNegative⟩ := sign_readSign s
  simp only [readDecimal, isNegative, Option.bind_eq_bind, Option.bind_eq_some_iff,
    Option.pure_def] at read
  obtain ⟨⟨ds, s₁⟩, digits, ⟨fs, s₂⟩, fraction, ⟨x, s₃⟩, exponent, read⟩ := read
  -- The four parts are found one after the other.
  obtain ⟨g, whole, first⟩ := whole_of_wholeDigits digits
  obtain ⟨f, fraction, second, noPoint⟩ := fraction_of_readFraction fraction
  obtain ⟨e, exponent, third, noPower⟩ := exponent_of_readExponent exponent
  simp only at second third read
  -- Without a fraction and a power it is an integer, and else a float.
  by_cases plain : fs.isNone ∧ x.isNone
  · rw [if_pos plain, integerOf_eq sign whole.1.digits.2] at read
    obtain ⟨w, inRange, rest⟩ := Option.bind_eq_some_iff.1 read
    obtain ⟨rfl, narrow⟩ := integer?_eq_some inRange
    obtain ⟨rfl, rfl⟩ := Prod.mk.inj (Option.some.inj rest)
    obtain rfl := noPoint.2 plain.1
    obtain rfl := noPower.2 plain.2
    refine ⟨sign ++ g, ?_, .decimal signed whole, narrow⟩
    rw [same, first, second, third]
    simp
  · have all : number 10 (ds ++ fs.getD []) = Nat.ofDigitChars 10 (ds ++ fs.getD []) 0 :=
      number_eq fun d mem => (List.mem_append.1 mem).elim (whole.1.digits.2 d) (fraction.digits d)
    rw [if_neg plain, all, isInfinite_eq] at read
    split_ifs at read with infinite
    obtain ⟨rfl, rfl⟩ := Prod.mk.inj (Option.some.inj read)
    refine ⟨sign ++ (g ++ (f ++ e)), ?_, ?_, rfl⟩
    · rw [same, first, second, third]
      simp
    refine .float signed whole fraction exponent (fun none => plain ?_) fun positive => ?_
    · obtain ⟨noF, noE⟩ := List.append_eq_nil_iff.1 none
      exact ⟨noPoint.1 noF, noPower.1 noE⟩
    · by_contra notFinite
      exact infinite (by simp [positive, notFinite])

/-- What is read as a number is spelled as one. -/
theorem beginsWith_of_readNumber {s t : List Char} {v : Option Int}
    (read : readNumber s = some (v, t)) :
    BeginsWith s ((v.map Node.integer).getD .other) t := by
  -- The three bases differ in their letter and their digits only.
  have based : ∀ {letter : Char} {base : Nat} {isDigit : Char → Bool} {u : List Char},
      (letter, base) ∈ bases → (∀ c, isDigitTo base c = isDigit c) →
      readBased base isDigit u = some (v, t) →
      BeginsWith ('0' :: letter :: u) ((v.map Node.integer).getD .other) t := by
    intro letter base isDigit u named same read
    simp only [readBased, Option.bind_eq_bind, Option.bind_eq_some_iff, Option.pure_def] at read
    obtain ⟨⟨ds, rest⟩, digits, w, inRange, done⟩ := read
    cases done
    obtain ⟨rfl, narrow⟩ := integer?_eq_some inRange
    rw [← funext same] at digits
    obtain ⟨g, grouped, rfl⟩ := grouped_of_someDigits rfl digits
    exact ⟨'0' :: letter :: g, rfl, .based named grouped, narrow⟩
  rw [readNumber.eq_def] at read
  split at read
  · exact based (by simp [bases]) isDigitTo_sixteen read
  · exact based (by simp [bases]) isDigitTo_eight read
  · exact based (by simp [bases]) isDigitTo_two read
  · exact beginsWith_of_readDecimal read

/-! ### Dates and times -/

/-- What is read as a field of a date or a time is in its range. -/
theorem inRange_of_readField {width low high n : Nat} {s t : List Char}
    (read : readField width low high s = some (n, t)) :
    ∃ ds, InRange width low high ds ∧ s = ds ++ t ∧ n = Nat.ofDigitChars 10 ds 0 := by
  obtain ⟨-, -, digits⟩ := readField_eq_some read
  have value := number_eq digits
  simp only [readField, value] at read
  split_ifs at read with fits
  cases read
  exact ⟨s.take width, ⟨fits.1, digits, fits.2.2.1, fits.2.2.2⟩,
    (List.take_append_drop width s).symm, rfl⟩

/-- What is expected is there. -/
theorem expect_eq_some {c : Char} {s t : List Char} (read : expect c s = some t) : s = c :: t := by
  cases s with
  | nil => cases read
  | cons d s =>
    rw [expect] at read
    split_ifs at read with same
    cases read
    rw [same]

/-- What is passed over as a date is one. -/
theorem date_of_skipDate {s t : List Char} (read : skipDate s = some t) :
    ∃ d, Date d ∧ s = d ++ t := by
  simp only [skipDate, Option.bind_eq_bind, Option.bind_eq_some_iff, Option.pure_def] at read
  obtain ⟨⟨y, s₁⟩, first, s₂, dash, ⟨m, s₃⟩, second, s₄, dash', ⟨d, s₅⟩, third, same⟩ := read
  obtain ⟨ys, year, rfl, rfl⟩ := inRange_of_readField first
  obtain ⟨ms, month, rfl, rfl⟩ := inRange_of_readField second
  obtain ⟨ds, day, rfl, -⟩ := inRange_of_readField third
  cases expect_eq_some dash
  cases expect_eq_some dash'
  cases same
  exact ⟨ys ++ '-' :: (ms ++ '-' :: ds), .mk year month day, by simp⟩

/-- What is passed over as parts of a second is a fraction, or nothing. -/
theorem fraction_of_skipSubseconds {s t : List Char} (read : skipSubseconds s = some t) :
    ∃ f, Json.Fraction f ∧ s = f ++ t := by
  rw [skipSubseconds.eq_def] at read
  split at read
  next rest =>
    have whole := List.takeWhile_append_dropWhile (p := Char.isDigit) (l := rest)
    split at read
    · cases read
    next nonempty =>
      cases read
      have digits : Json.Digits (rest.takeWhile Char.isDigit) :=
        ⟨fun none => nonempty none, fun d mem => List.mem_takeWhile_imp mem⟩
      exact ⟨'.' :: rest.takeWhile Char.isDigit, .inr ⟨_, digits, rfl⟩, by simp [whole]⟩
  next =>
    cases read
    exact ⟨[], .inl rfl, rfl⟩

/-- What is passed over as a time is one. -/
theorem time_of_skipTime {s t : List Char} (read : skipTime s = some t) :
    ∃ w, Time w ∧ s = w ++ t := by
  simp only [skipTime, Option.bind_eq_bind, Option.bind_eq_some_iff] at read
  obtain ⟨⟨h, s₁⟩, first, s₂, colon, ⟨m, s₃⟩, second, s₄, colon', ⟨x, s₅⟩, third, part⟩ := read
  obtain ⟨hs, hour, rfl, -⟩ := inRange_of_readField first
  obtain ⟨ms, minute, rfl, -⟩ := inRange_of_readField second
  obtain ⟨xs, seconds, rfl, -⟩ := inRange_of_readField third
  cases expect_eq_some colon
  cases expect_eq_some colon'
  obtain ⟨f, fraction, same⟩ := fraction_of_skipSubseconds part
  cases same
  exact ⟨hs ++ ':' :: (ms ++ ':' :: (xs ++ f)), .mk hour minute seconds fraction, by simp⟩

/-- What is passed over as an offset is one, or nothing. -/
theorem offset_of_skipOffset {s t : List Char} (read : skipOffset s = some t) :
    ∃ o, Offset o ∧ s = o ++ t := by
  cases s with
  | nil => cases read
  | cons c s =>
    rw [skipOffset] at read
    split_ifs at read with letter sign
    · cases read
      exact ⟨[c], .zero letter, rfl⟩
    · simp only [Option.bind_eq_bind, Option.bind_eq_some_iff, Option.pure_def] at read
      obtain ⟨⟨h, s₁⟩, first, s₂, colon, ⟨m, s₃⟩, second, same⟩ := read
      obtain ⟨hs, hour, rfl, -⟩ := inRange_of_readField first
      obtain ⟨ms, minute, rfl, -⟩ := inRange_of_readField second
      cases expect_eq_some colon
      cases same
      exact ⟨c :: (hs ++ ':' :: ms), .shifted sign hour minute, by simp⟩

/-- What is read as a point in time is spelled as one. -/
theorem moment_of_readMoment {s t : List Char} (read : readMoment s = some t) :
    ∃ w, Moment w ∧ s = w ++ t := by
  rw [readMoment] at read
  split at read
  next rest dated =>
    obtain ⟨d, date, rfl⟩ := date_of_skipDate dated
    -- A date stands alone unless a separator and a time come after it.
    have alone : rest = t → ∃ w, Moment w ∧ d ++ rest = w ++ t := fun same =>
      ⟨d, .date date, by rw [same]⟩
    rw [skipTimeOfDay.eq_def] at read
    split at read
    next c u =>
      split_ifs at read with separator
      · split at read
        next v timed =>
          obtain ⟨w, time, rfl⟩ := time_of_skipTime timed
          cases shifted : skipOffset v with
          | none =>
            rw [shifted] at read
            cases read
            exact ⟨_, .both date separator time .absent, by simp⟩
          | some x =>
            rw [shifted] at read
            cases read
            obtain ⟨o, offset, rfl⟩ := offset_of_skipOffset shifted
            exact ⟨_, .both date separator time offset, by simp⟩
        next => exact alone (Option.some.inj read)
      · exact alone (Option.some.inj read)
    next => exact alone (Option.some.inj read)
  next =>
    obtain ⟨w, time, rfl⟩ := time_of_skipTime read
    exact ⟨w, .time time, rfl⟩

/-! ### Words -/

/-- What is read as a name is one of the words. -/
theorem name_of_readWord {s t : List Char} {n : Node} (read : readWord s = some (n, t)) :
    n = .other ∧ ∃ w ∈ words, s = w ++ t := by
  obtain ⟨w, found, same⟩ := Option.map_eq_some_iff.1 read
  cases same
  have starts : w.isPrefixOf s := by simpa using List.find?_some found
  obtain ⟨u, rfl⟩ := List.isPrefixOf_iff_prefix.1 starts
  exact ⟨rfl, w, List.mem_of_find?_eq_some found, by simp⟩

/-- What is read as a name behind a sign is infinity, or no number. -/
theorem limit_of_readSignedWord {s t : List Char} {n : Node}
    (read : readSignedWord s = some (n, t)) : BeginsWith s n t := by
  obtain ⟨sign, signed, same, -⟩ := sign_readSign s
  -- A sign may stand before two of the words; the others begin with other letters.
  have limit : ∀ {c : Char} {u : List Char}, (readSign s).2 = c :: u → c = 'i' ∨ c = 'n' →
      readWord (c :: u) = some (n, t) → BeginsWith s n t := by
    intro c u rest letter read
    obtain ⟨rfl, w, named, whole⟩ := name_of_readWord read
    refine ⟨sign ++ w, by rw [same, rest, whole, List.append_assoc], .limit signed ?_, rfl⟩
    simp only [words, List.mem_cons, List.not_mem_nil, or_false] at named
    rcases named with rfl | rfl | rfl | rfl
    · cases whole
      rcases letter with letter | letter <;> cases letter
    · cases whole
      rcases letter with letter | letter <;> cases letter
    · exact .inl rfl
    · exact .inr rfl
  rw [readSignedWord] at read
  split at read
  next rest => exact limit rest (.inl rfl) read
  next rest => exact limit rest (.inr rfl) read
  next => cases read

/-- What is read as a word is spelled as one. -/
theorem beginsWith_of_readPlain {s t : List Char} {n : Node} (read : readPlain s = some (n, t)) :
    BeginsWith s n t := by
  cases s with
  | nil => cases read
  | cons c s =>
    rw [readPlain] at read
    -- Behind a sign or a digit comes a date, a limit or a number; otherwise it is a name.
    split_ifs at read with first
    · split at read
      next u timed =>
        cases read
        obtain ⟨w, moment, same⟩ := moment_of_readMoment timed
        exact ⟨w, same, .moment moment, rfl⟩
      next =>
        split at read
        next result word =>
          cases read
          exact limit_of_readSignedWord word
        next =>
          obtain ⟨⟨v, u⟩, number, same⟩ := Option.bind_eq_some_iff.1 read
          cases same
          exact beginsWith_of_readNumber number
    · obtain ⟨rfl, w, named, same⟩ := name_of_readWord read
      refine ⟨w, same, ?_, rfl⟩
      have unsigned : Sign [] := .inl rfl
      simp only [words, List.mem_cons, List.not_mem_nil, or_false] at named
      rcases named with rfl | rfl | rfl | rfl
      · exact .truth (.inl rfl)
      · exact .truth (.inr rfl)
      · exact .limit unsigned (.inl rfl)
      · exact .limit unsigned (.inr rfl)

/-! ### Values -/

/-- What is passed over between words is spelled, if a word comes after it: a comment goes up to the
end of its line. -/
theorem void_of_skipVoid_comment {inComment : Bool} {s : List Char}
    (plain : ∀ c ∈ (skipVoid inComment s).head?, isPlain c) :
    (inComment = false → Void s (skipVoid inComment s)) ∧
      (inComment = true → ∃ u, Comment ('#' :: s) u ∧ Void u (skipVoid inComment s)) := by
  -- Inside of a comment, what is passed over is the rest of the comment and what comes after it.
  induction inComment, s using skipVoid.induct with
  | case1 inComment =>
    have skipped : skipVoid inComment [] = [] := by cases inComment <;> rfl
    rw [skipped]
    exact ⟨fun _ => .refl [], fun _ => ⟨[], ⟨[], by simp, rfl, .inl rfl⟩, .refl []⟩⟩
  | case2 inComment rest ih =>
    rw [skipVoid] at plain ⊢
    have more := Void.lineEnd (.inl rfl) ((ih plain).1 rfl)
    exact ⟨fun _ => more, fun _ => ⟨_, ⟨[], by simp, rfl, .inr ⟨rest, .inl rfl⟩⟩, more⟩⟩
  | case3 inComment rest ih =>
    rw [skipVoid] at plain ⊢
    have more := Void.lineEnd (.inr rfl) ((ih plain).1 rfl)
    exact ⟨fun _ => more, fun _ => ⟨_, ⟨[], by simp, rfl, .inr ⟨rest, .inr rfl⟩⟩, more⟩⟩
  | case4 c rest notEnd notReturn blank ih =>
    have skipped : skipVoid false (c :: rest) = skipVoid false rest := by
      rw [skipVoid, if_pos blank]
      · exact notEnd
      · exact notReturn
    rw [skipped] at plain ⊢
    exact ⟨fun _ => .blank blank ((ih plain).1 rfl), fun eq => Bool.noConfusion eq⟩
  | case5 rest _ _ _ ih =>
    have skipped : skipVoid false ('#' :: rest) = skipVoid true rest := rfl
    rw [skipped] at plain ⊢
    obtain ⟨u, comment, more⟩ := (ih plain).2 rfl
    exact ⟨fun _ => .comment comment more, fun eq => Bool.noConfusion eq⟩
  | case6 c rest notEnd notReturn notBlank notComment =>
    have skipped : skipVoid false (c :: rest) = c :: rest := by
      rw [skipVoid, if_neg notBlank, if_neg notComment]
      · exact notEnd
      · exact notReturn
    rw [skipped]
    exact ⟨fun _ => .refl _, fun eq => Bool.noConfusion eq⟩
  | case7 c rest notEnd notReturn isPlain ih =>
    have skipped : skipVoid true (c :: rest) = skipVoid true rest := by
      rw [skipVoid, if_pos isPlain]
      · exact notEnd
      · exact notReturn
    rw [skipped] at plain ⊢
    obtain ⟨u, ⟨cs, all, same, ends⟩, more⟩ := (ih plain).2 rfl
    cases same
    exact ⟨fun eq => Bool.noConfusion eq, fun _ =>
      ⟨u, ⟨c :: cs, List.forall_mem_cons.2 ⟨isPlain, all⟩, rfl, ends⟩, more⟩⟩
  | case8 c rest notEnd notReturn notPlain =>
    have skipped : skipVoid true (c :: rest) = c :: rest := by
      rw [skipVoid, if_neg notPlain]
      · exact notEnd
      · exact notReturn
    rw [skipped] at plain
    exact absurd (plain c rfl) notPlain

/-- What is passed over between values are blanks, line ends and comments. -/
theorem void_of_skipVoid {s t : List Char} (skipped : skipVoid false s = t)
    (plain : ∀ c ∈ t.head?, isPlain c) : Void s t := by
  subst skipped
  exact (void_of_skipVoid_comment plain).1 rfl

/-- Blanks behind blanks are blanks. -/
theorem Blanks.trans {s t u : List Char} (first : Blanks s t) (second : Blanks t u) :
    Blanks s u := by
  obtain ⟨bs, blank, rfl⟩ := first
  obtain ⟨ds, blank', rfl⟩ := second
  exact ⟨bs ++ ds, fun c mem => (List.mem_append.1 mem).elim (blank c) (blank' c), by simp⟩

/-- Blanks may come before the first key of a table. -/
theorem Spells.after_blanks {room : Nat} {r s t : List Char} {es : List (List String × Node)}
    (spells : Spells room s (.pairs es) t) (blanks : Blanks r s) : Spells room r (.pairs es) t := by
  cases spells with
  | lastPair before name depth between value close =>
    exact .lastPair (blanks.trans before) name depth between value close
  | pair before name depth between value comma more =>
    exact .pair (blanks.trans before) name depth between value comma more

/-- The inside of an array is behind what is passed over before it. -/
theorem Spells.void_items {room : Nat} {s t : List Char} {ns : List Node}
    (spells : Spells room (skipVoid false s) (.items ns) t) : Void s (skipVoid false s) := by
  refine void_of_skipVoid rfl fun c first => ?_
  obtain ⟨d, u, same, solid⟩ := spells.exists_first_item
  rw [same] at first
  cases first
  exact (isSolid_iff.1 solid).1

/-- With so much fuel, what the readers read at a level is spelled, when there is room for so many
levels more. -/
structure Sound (fuel level room : Nat) : Prop where
  value : ∀ {s t n}, readValue fuel level s = some (n, t) → Spells room s (.value n) t ∧ isNarrow n
  items : ∀ {s t ns}, readItems fuel level s = some (ns, t) → Spells room s (.items ns) t
  pairs : ∀ {s t entries entries'}, readPairs fuel level entries s = some (entries', t) →
    ∃ es, Spells room s (.pairs es) t ∧ Entries.fill? entries es = some entries'

namespace Sound

variable {fuel level room : Nat}

/-- A value is a text or a word, or else its parts are one level further down. -/
theorem value_succ
    (below : ¬ depthLimit ≤ level + 1 → ∃ more, room = more + 1 ∧ Sound fuel (level + 1) more)
    {s t : List Char} {n : Node} (read : readValue (fuel + 1) level s = some (n, t)) :
    Spells room s (.value n) t ∧ isNarrow n := by
  rw [readValue.eq_def] at read
  simp only at read
  split at read
  next rest =>
    split_ifs at read with deep
    obtain ⟨room, rfl, inner⟩ := below deep
    obtain ⟨⟨ns, u⟩, inside, same⟩ := Option.map_eq_some_iff.1 read
    cases same
    have inside := inner.items inside
    exact ⟨.array inside.void_items inside, rfl⟩
  next rest =>
    split_ifs at read with deep
    obtain ⟨room, rfl, inner⟩ := below deep
    have blanks := blanks_skipBlanks rest
    split at read
    next u closed =>
      cases read
      rw [closed] at blanks
      exact ⟨.emptyTable blanks, rfl⟩
    next =>
      obtain ⟨⟨entries, u⟩, inside, same⟩ := Option.map_eq_some_iff.1 read
      cases same
      obtain ⟨es, inside, filled⟩ := inner.pairs inside
      exact ⟨.table (inside.after_blanks blanks) filled, rfl⟩
  next =>
    split at read
    next quoted =>
      cases read
      exact ⟨.text (quotation_of_readQuoted quoted), rfl⟩
    next =>
      obtain ⟨w, rfl, plain, narrow⟩ := beginsWith_of_readPlain read
      exact ⟨.plain t plain, narrow⟩

/-- The inside of an array is empty, or has a first value with a comma or the end behind it. -/
theorem items_succ (sound : Sound fuel level room) {s t : List Char} {ns : List Node}
    (read : readItems (fuel + 1) level s = some (ns, t)) : Spells room s (.items ns) t := by
  by_cases closed : ∃ u, s = ']' :: u
  · obtain ⟨u, rfl⟩ := closed
    cases read
    exact .noItem t
  · rw [readItems] at read
    · simp only [Option.bind_eq_bind, Option.bind_eq_some_iff] at read
      obtain ⟨⟨n, u⟩, item, read⟩ := read
      obtain ⟨item, narrow⟩ := sound.value item
      split at read
      next v comma =>
        simp only [Option.bind_eq_some_iff, Option.pure_def] at read
        obtain ⟨⟨more, w⟩, inside, same⟩ := read
        cases same
        have inside := sound.items inside
        have comma := void_of_skipVoid comma (by simp [isPlain])
        exact .item item narrow comma inside.void_items inside
      next v close =>
        cases read
        exact .lastItem item narrow (void_of_skipVoid close (by simp [isPlain]))
      next => cases read
    · exact fun u same => closed ⟨u, same⟩

/-- The inside of a table has a first pair with a comma or the end behind it. The pairs are put in one
after another, so those that are there already come first. -/
theorem pairs_succ (sound : Sound fuel level room) {s t : List Char} {entries entries' : Entries}
    (read : readPairs (fuel + 1) level entries s = some (entries', t)) :
    ∃ es, Spells room s (.pairs es) t ∧ Entries.fill? entries es = some entries' := by
  simp only [readPairs, Option.bind_eq_bind, Option.bind_eq_some_iff] at read
  obtain ⟨⟨key, s₁⟩, name, s₂, equals, ⟨n, s₃⟩, read, k, last, entries₁, inserted, rest⟩ := read
  obtain ⟨depth, r, before, name⟩ := key_of_readKey name
  cases expect_eq_some equals
  obtain ⟨read, narrow⟩ := sound.value read
  have between := blanks_skipBlanks s₂
  have after := blanks_skipBlanks s₃
  have put : entries.put? (key, n) = some entries₁ := by
    simp only [Entries.put?, narrow, if_true, last, Option.bind_eq_bind, Option.bind_some]
    exact inserted
  split at rest
  next u comma =>
    obtain ⟨es, more, filled⟩ := sound.pairs rest
    simp only at comma
    rw [comma] at after
    refine ⟨(key, n) :: es, .pair before name depth between read after more, ?_⟩
    rw [Entries.fill?, List.foldlM_cons, put]
    exact filled
  next u close =>
    cases rest
    simp only at close
    rw [close] at after
    refine ⟨[(key, n)], .lastPair before name depth between read after, ?_⟩
    rw [Entries.fill?, List.foldlM_cons, put]
    rfl
  next => cases rest

end Sound

/-- What is read of a part is spelled, down to any level. By induction on the fuel; a level further
down, there is a level less to go. -/
theorem sound_of_total (fuel : Nat) :
    ∀ level room : Nat, level + room + 1 = depthLimit → Sound fuel level room := by
  induction fuel with
  | zero =>
    intro level room total
    constructor
    case value => exact fun read => by cases read
    case items => exact fun read => by cases read
    case pairs => exact fun read => by cases read
  | succ fuel ih =>
    intro level room total
    have sound := ih level room total
    have below : ¬ depthLimit ≤ level + 1 → ∃ more, room = more + 1 ∧ Sound fuel (level + 1) more :=
      fun shallow => ⟨room - 1, by omega, ih (level + 1) (room - 1) (by omega)⟩
    exact ⟨Sound.value_succ below, sound.items_succ, sound.pairs_succ⟩

/-- **Values.** A value is read just where one is spelled that is no integer of more than 64 bits. -/
theorem readValue_eq_some_iff {s t : List Char} {n : Node} (ends : Ends t) :
    readValue (2 * s.length + 2) 0 s = some (n, t) ↔ Value s n t ∧ isNarrow n := by
  constructor
  · exact fun read => (sound_of_total _ 0 (depthLimit - 1) (by decide)).value read
  · rintro ⟨value, narrow⟩
    rw [value.reads ends, if_pos narrow]

end Embedder.Toml
