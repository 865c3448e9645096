import Embedder.Proofs.Config.Toml.Numbers

namespace Embedder.Toml

/-!
# How values are spelled in TOML

A value is a word, a text, an array, or a table in one line. The last two hold values again, down to
a level that is limited. Every way to spell a value is read, by induction on the spelling: the bound
on how often parts are entered is never met, because every part takes up at least one character.

* `Spells`: values, and the insides of arrays and tables.
* `Spells.reads`: what is read at the start of a spelling.
* `Value`, `Value.reads`: values that are not inside others.
-/

namespace Entries

/-- The entries with a value under a key, which may be dotted; a number must not have more than 64
bits. -/
def put? (t : Entries) (e : List String × Node) : Option Entries :=
  if isNarrow e.2 then do t.insert? e.1.dropLast (← e.1.getLast?) e.2 else none

/-- The entries with some more, one after the other. -/
def fill? (t : Entries) (es : List (List String × Node)) : Option Entries :=
  es.foldlM put? t

end Entries

/-! ### The grammar -/

/-- What may stand at the start of a text: a value, or the inside of an array or of a table up to and
with its closing bracket. -/
inductive Part where
  | value (n : Node)
  | items (ns : List Node)
  | pairs (es : List (List String × Node))

/-- A text, what is spelled at its start, and how it goes on; `room` tells how many more levels there
may be. Line ends and comments may stand in an array, and a comma may follow its last item; a table
stands in one line. -/
inductive Spells : (room : Nat) → List Char → Part → List Char → Prop where
  | plain {room : Nat} {w : List Char} {n : Node} (t : List Char) (plain : Plain w n) :
    Spells room (w ++ t) (.value n) t
  | text {room : Nat} {s cs t : List Char} (quotation : Quotation s cs t) :
    Spells room s (.value (.text (String.ofList cs))) t
  | array {room : Nat} {s u t : List Char} {ns : List Node} (void : Void s u)
    (inside : Spells room u (.items ns) t) : Spells (room + 1) ('[' :: s) (.value (.list ns)) t
  | emptyTable {room : Nat} {s t : List Char} (close : Blanks s ('\x7d' :: t)) :
    Spells (room + 1) ('\x7b' :: s) (.value (.record [])) t
  | table {room : Nat} {s t : List Char} {es : List (List String × Node)} {entries : Entries}
    (inside : Spells room s (.pairs es) t) (filled : Entries.fill? [] es = some entries) :
    Spells (room + 1) ('\x7b' :: s) (.value entries.toNode) t
  | noItem {room : Nat} (t : List Char) : Spells room (']' :: t) (.items []) t
  | lastItem {room : Nat} {s u t : List Char} {n : Node} (item : Spells room s (.value n) u)
    (narrow : isNarrow n) (close : Void u (']' :: t)) : Spells room s (.items [n]) t
  | item {room : Nat} {s u v w t : List Char} {n : Node} {ns : List Node}
    (item : Spells room s (.value n) u) (narrow : isNarrow n) (comma : Void u (',' :: v))
    (between : Void v w) (more : Spells room w (.items ns) t) : Spells room s (.items (n :: ns)) t
  | lastPair {room : Nat} {s k u v w t : List Char} {key : List String} {n : Node}
    (before : Blanks s k) (name : Key k key ('=' :: u)) (depth : key.length < depthLimit)
    (between : Blanks u v) (value : Spells room v (.value n) w) (close : Blanks w ('\x7d' :: t)) :
    Spells room s (.pairs [(key, n)]) t
  | pair {room : Nat} {s k u v w x t : List Char} {key : List String} {n : Node}
    {es : List (List String × Node)} (before : Blanks s k) (name : Key k key ('=' :: u))
    (depth : key.length < depthLimit) (between : Blanks u v) (value : Spells room v (.value n) w)
    (comma : Blanks w (',' :: x)) (more : Spells room x (.pairs es) t) :
    Spells room s (.pairs ((key, n) :: es)) t

/-- A text, the value at its start, and how it goes on. An integer may have any size here. -/
def Value (s : List Char) (n : Node) (t : List Char) : Prop :=
  Spells (depthLimit - 1) s (.value n) t

/-! ### How they begin -/

/-- A word begins with a sign, a digit or a letter. -/
theorem Plain.exists_first {w : List Char} {n : Node} (plain : Plain w n) :
    ∃ c u, w = c :: u ∧ (c = '+' ∨ c = '-' ∨ c.isAlphanum) := by
  have alphanum : ∀ {c : Char}, c.isDigit → c.isAlphanum := fun digit => by
    simp [Char.isAlphanum, digit]
  have signed : ∀ {sign u : List Char} {c : Char}, Sign sign → c.isAlphanum →
      ∃ d v, sign ++ c :: u = d :: v ∧ (d = '+' ∨ d = '-' ∨ d.isAlphanum) := by
    rintro sign u c (rfl | rfl | rfl) letter
    · exact ⟨c, u, rfl, .inr (.inr letter)⟩
    · exact ⟨_, _, rfl, .inl rfl⟩
    · exact ⟨_, _, rfl, .inr (.inl rfl)⟩
  -- A sign is the first character if there is one; a word has at least one more.
  cases plain with
  | decimal sign whole =>
    obtain ⟨d, u, es, rfl, rfl, digit⟩ := whole.1.exists_first
    exact signed sign (alphanum digit)
  | based => exact ⟨_, _, rfl, .inr (.inr rfl)⟩
  | float sign whole =>
    obtain ⟨d, u, es, rfl, rfl, digit⟩ := whole.1.exists_first
    exact signed sign (alphanum digit)
  | truth named => rcases named with rfl | rfl <;> exact ⟨_, _, rfl, .inr (.inr rfl)⟩
  | limit sign named => rcases named with rfl | rfl <;> exact signed sign rfl
  | moment moment =>
    obtain ⟨c, u, rfl, digit⟩ := moment.exists_first
    exact ⟨c, u, rfl, .inr (.inr (alphanum digit))⟩

/-- A value begins with a character that is not passed over and closes nothing. -/
theorem Spells.exists_first {room : Nat} {s t : List Char} {n : Node}
    (spells : Spells room s (.value n) t) : ∃ c u, s = c :: u ∧ isSolid c ∧ c ≠ ']' ∧ c ≠ '\x7d' := by
  cases spells with
  | plain t plain =>
    obtain ⟨c, u, rfl, first⟩ := plain.exists_first
    refine ⟨c, _, rfl, ?_⟩
    rcases first with rfl | rfl | letter
    · decide
    · decide
    · refine ⟨isSolid_of_isAlphanum letter, ?_, ?_⟩
      all_goals
        rintro rfl
        cases letter
  | text quotation =>
    obtain ⟨c, u, rfl, rfl | rfl⟩ := quotation.exists_first
    · exact ⟨_, _, rfl, by decide⟩
    · exact ⟨_, _, rfl, by decide⟩
  | array | emptyTable | table => exact ⟨_, _, rfl, by decide⟩

/-- The inside of an array begins with an item or is over. -/
theorem Spells.exists_first_item {room : Nat} {s t : List Char} {ns : List Node}
    (spells : Spells room s (.items ns) t) : ∃ c u, s = c :: u ∧ isSolid c := by
  cases spells with
  | noItem => exact ⟨_, _, rfl, rfl⟩
  | lastItem item | item item =>
    obtain ⟨c, u, same, solid, -⟩ := item.exists_first
    exact ⟨c, u, same, solid⟩

/-- The inside of a table begins with a key. -/
theorem Spells.exists_first_pair {room : Nat} {s t : List Char} {es : List (List String × Node)}
    (spells : Spells room s (.pairs es) t) : ∃ k c u, Blanks s k ∧ k = c :: u ∧ opensKey c := by
  cases spells with
  | lastPair before name | pair before name =>
    obtain ⟨c, u, same, opens⟩ := name.exists_first
    exact ⟨_, c, u, before, same, opens⟩

/-- No value begins with a blank. -/
theorem Spells.stops {room : Nat} {s t : List Char} {n : Node}
    (spells : Spells room s (.value n) t) : ∀ c ∈ s.head?, isBlank c = false := by
  obtain ⟨c, u, rfl, solid, -⟩ := spells.exists_first
  intro d first
  cases first
  exact not_isBlank_of_isSolid solid

/-! ### How much they take up -/

/-- A key with what is around it takes up two characters at least. -/
theorem length_lt_of_name {s k u v : List Char} {key : List String} (before : Blanks s k)
    (name : Key k key ('=' :: u)) (between : Blanks u v) : v.length + 1 < s.length := by
  have := before.length_le
  have := name.length_lt
  have := between.length_le
  simp only [List.length_cons] at *
  omega

/-- What is spelled takes up some of the text. -/
theorem Spells.length_lt {room : Nat} {s t : List Char} {p : Part} (spells : Spells room s p t) :
    t.length < s.length := by
  -- Brackets, quotes and words all take up something, and nothing is given back.
  induction spells with
  | plain t plain =>
    obtain ⟨c, u, rfl, -⟩ := plain.exists_first
    simp only [List.length_append, List.length_cons]
    omega
  | text quotation => exact quotation.length_lt
  | array void _ ih =>
    have := void.length_le
    simp only [List.length_cons]
    omega
  | emptyTable close =>
    have := close.length_le
    simp only [List.length_cons] at *
    omega
  | table _ _ ih =>
    simp only [List.length_cons]
    omega
  | noItem => simp
  | lastItem _ _ close ih =>
    have := close.length_le
    simp only [List.length_cons] at this
    omega
  | item _ _ comma between _ ih ih' =>
    have := comma.length_le
    have := between.length_le
    simp only [List.length_cons] at *
    omega
  | lastPair before name _ between _ close ih =>
    have := length_lt_of_name before name between
    have := close.length_le
    simp only [List.length_cons] at *
    omega
  | pair before name _ between _ comma _ ih ih' =>
    have := length_lt_of_name before name between
    have := comma.length_le
    simp only [List.length_cons] at *
    omega

/-! ### Reading -/

/-- Where neither a text nor an array nor a table begins, a word is read. -/
theorem readValue_word {c : Char} (first : c = '+' ∨ c = '-' ∨ c.isAlphanum) (fuel level : Nat)
    (u : List Char) : readValue (fuel + 1) level (c :: u) = readPlain (c :: u) := by
  have other : ∀ d, d ≠ '+' → d ≠ '-' → d.isAlphanum = false → c ≠ d := by
    rintro d notPlus notMinus none rfl
    rcases first with rfl | rfl | letter
    · exact notPlus rfl
    · exact notMinus rfl
    · cases letter.symm.trans none
  simp [readValue, readQuoted, other]

/-- Where a quote comes next, a text is read. -/
theorem readValue_text {s cs t : List Char} (quotation : Quotation s cs t) (ends : Ends t)
    (fuel level : Nat) : readValue (fuel + 1) level s = some (.text (String.ofList cs), t) := by
  have read := quotation.reads ends
  obtain ⟨c, u, rfl, rfl | rfl⟩ := quotation.exists_first <;> simp [readValue, read]

/-- The blanks before a key are passed over. -/
theorem readPairs_skipBlanks (fuel level : Nat) (entries : Entries) (s : List Char) :
    readPairs fuel level entries (skipBlanks s) = readPairs fuel level entries s := by
  have twice : skipBlanks (skipBlanks s) = skipBlanks s := List.dropWhile_idempotent isBlank s
  have key : readKey (skipBlanks s) = readKey s := by
    rw [readKey, readKey]
    cases h : depthLimit - 1 with
    | zero => rfl
    | succ more => rw [readKeyParts, readKeyParts, twice]
  cases fuel with
  | zero => rfl
  | succ fuel => rw [readPairs, readPairs, key]

/-- What is read of a part where its spelling starts, given that parts may be entered often enough
for the length of the spelling. -/
def Read (level : Nat) (s t : List Char) : Part → Prop
  | .value n => Ends t → ∀ fuel, 2 * s.length ≤ fuel + 1 + 2 * t.length →
    readValue (fuel + 1) level s = if isNarrow n then some (n, t) else none
  | .items ns => ∀ fuel, 2 * s.length ≤ fuel + 2 * t.length →
    readItems (fuel + 1) level s = some (ns, t)
  | .pairs es => ∀ fuel, 2 * s.length ≤ fuel + 2 * t.length → ∀ entries,
    readPairs (fuel + 1) level entries s =
      (Entries.fill? entries es).map fun entries => (entries, t)

/-- Where an array opens, its items are read a level further down. -/
theorem readValue_array {room level : Nat} {s u t : List Char} {ns : List Node} (void : Void s u)
    (inside : Spells room u (.items ns) t) (shallow : level + 1 < depthLimit) (fuel : Nat) :
    readValue (fuel + 1) level ('[' :: s) =
      (readItems fuel (level + 1) u).map fun (ns, rest) => (.list ns, rest) := by
  obtain ⟨c, v, rfl, solid⟩ := inside.exists_first_item
  have skipped := void.skip (by simpa using solid)
  rw [readValue, if_neg (Nat.not_le.2 shallow), skipped]

/-- Where a table opens that has pairs, these are read a level further down. -/
theorem readValue_table {room level : Nat} {s t : List Char} {es : List (List String × Node)}
    (inside : Spells room s (.pairs es) t) (shallow : level + 1 < depthLimit) (fuel : Nat) :
    readValue (fuel + 1) level ('\x7b' :: s) =
      (readPairs fuel (level + 1) [] s).map fun (entries, rest) => (entries.toNode, rest) := by
  obtain ⟨k, c, u, before, rfl, opens⟩ := inside.exists_first_pair
  have skipped := before.skip fun d first => by
    cases first
    exact not_isBlank_of_isSolid (isSolid_of_opensKey opens)
  -- A key does not begin with the bracket that would close the table.
  have notClose : c ≠ '\x7d' := by
    rintro rfl
    cases opens
  rw [← readPairs_skipBlanks, readValue, if_neg (Nat.not_le.2 shallow), skipped]
  split
  case h_1 same => exact absurd (List.cons.inj same).1 notClose
  case h_2 => rfl

/-- Where an array is not over, its next item is read. -/
theorem readItems_item {room : Nat} {s u : List Char} {n : Node}
    (item : Spells room s (.value n) u) (fuel level : Nat) :
    readItems (fuel + 1) level s = (readValue fuel level s).bind fun (n, rest) =>
      match skipVoid false rest with
      | ',' :: rest => (readItems fuel level (skipVoid false rest)).bind fun (ns, rest) =>
        some (n :: ns, rest)
      | ']' :: rest => some ([n], rest)
      | _ => none := by
  obtain ⟨c, v, rfl, -, notClose, -⟩ := item.exists_first
  rw [readItems]
  · rfl
  · rintro rest same
    exact notClose (List.cons.inj same).1

/-- What a key and its value make of the entries so far. -/
theorem readPairs_name {fuel level : Nat} {s k u v w : List Char} {key : List String} {n : Node}
    (before : Blanks s k) (name : Key k key ('=' :: u)) (depth : key.length < depthLimit)
    (between : Blanks u v) (starts : ∀ c ∈ v.head?, isBlank c = false)
    (read : readValue fuel level v = if isNarrow n then some (n, w) else none) (entries : Entries) :
    readPairs (fuel + 1) level entries s = (entries.put? (key, n)).bind fun entries =>
      match skipBlanks w with
      | ',' :: rest => readPairs fuel level entries rest
      | '\x7d' :: rest => some (entries, rest)
      | _ => none := by
  have named := name.readKey depth before (by simp [isBlank, isBare])
  have value := between.skip starts
  rw [readPairs, named]
  simp only [Option.bind_eq_bind, Option.bind_some, expect, if_true, value, read, Entries.put?]
  -- Integers that are too large are refused at this place, before the key is looked at.
  by_cases narrow : isNarrow n
  · simp only [narrow, if_true, Option.bind_some]
    cases key.getLast? with
    | none => rfl
    | some last =>
      simp only [Option.bind_some]
      cases entries.insert? key.dropLast last n <;> rfl
  · simp [narrow]

/-- **Reading.** What is spelled at the start of a text is read there. -/
theorem Spells.reads {room : Nat} {s t : List Char} {p : Part} (spells : Spells room s p t)
    {level : Nat} (shallow : room + level < depthLimit) : Read level s t p := by
  -- The first item of an array is entered without a character between, so the bound is twice the
  -- length: a part that is entered after another one has cost a bracket, a comma or a key.
  induction spells generalizing level with
  | @plain room w n t plain =>
    intro ends fuel _
    rw [← plain.reads ends]
    obtain ⟨c, u, rfl, first⟩ := plain.exists_first
    exact readValue_word first fuel level (u ++ t)
  | text quotation => exact fun ends fuel _ => readValue_text quotation ends fuel level
  | @array room s u t ns void inside ih =>
    intro ends fuel enough
    have := void.length_le
    have := inside.length_lt
    simp only [List.length_cons] at enough
    obtain ⟨fuel, rfl⟩ : ∃ k, fuel = k + 1 := ⟨fuel - 1, by omega⟩
    have below : room + (level + 1) < depthLimit := by omega
    rw [readValue_array void inside (by omega), ih below fuel (by omega)]
    rfl
  | @emptyTable room s t close =>
    intro ends fuel enough
    have notDeep : ¬ depthLimit ≤ level + 1 := by omega
    have skipped := close.skip (by simp [isBlank])
    rw [readValue, if_neg notDeep]
    simp only [skipped]
    rfl
  | @table room s t es entries inside filled ih =>
    intro ends fuel enough
    have := inside.length_lt
    simp only [List.length_cons] at enough
    obtain ⟨fuel, rfl⟩ : ∃ k, fuel = k + 1 := ⟨fuel - 1, by omega⟩
    have below : room + (level + 1) < depthLimit := by omega
    rw [readValue_table inside (by omega), ih below fuel (by omega) [], filled]
    rfl
  | noItem t => exact fun fuel _ => rfl
  | @lastItem room s u t n item narrow close ih =>
    intro fuel enough
    have := item.length_lt
    have := close.length_le
    simp only [List.length_cons] at *
    obtain ⟨fuel, rfl⟩ : ∃ k, fuel = k + 1 := ⟨fuel - 1, by omega⟩
    have read := ih shallow (close.ends (by simp [isEnd])) fuel (by omega)
    have closed := close.skip (by simp [isSolid, isPlain, isBlank])
    rw [readItems_item item, read, if_pos narrow]
    simp [closed]
  | @item room s u v w t n ns item narrow comma between more ih ih' =>
    intro fuel enough
    have := item.length_lt
    have := comma.length_le
    have := between.length_le
    have := more.length_lt
    simp only [List.length_cons] at *
    obtain ⟨fuel, rfl⟩ : ∃ k, fuel = k + 1 := ⟨fuel - 1, by omega⟩
    have read := ih shallow (comma.ends (by simp [isEnd])) fuel (by omega)
    have goesOn := comma.skip (by simp [isSolid, isPlain, isBlank])
    obtain ⟨c, x, same, solid⟩ := more.exists_first_item
    have next := between.skip (by simpa [same] using solid)
    have rest := ih' shallow fuel (by omega)
    rw [readItems_item item, read, if_pos narrow]
    simp [goesOn, next, rest]
  | @lastPair room s k u v w t key n before name depth between value close ih =>
    intro fuel enough entries
    have := length_lt_of_name before name between
    have := value.length_lt
    have := close.length_le
    simp only [List.length_cons] at *
    obtain ⟨fuel, rfl⟩ : ∃ k, fuel = k + 1 := ⟨fuel - 1, by omega⟩
    have read := ih shallow (close.ends (by simp [isEnd])) fuel (by omega)
    have closed := close.skip (by simp [isBlank])
    rw [readPairs_name before name depth between value.stops read, closed, Entries.fill?,
      List.foldlM_cons]
    cases entries.put? (key, n) <;> rfl
  | @pair room s k u v w x t key n es before name depth between value comma more ih ih' =>
    intro fuel enough entries
    have := length_lt_of_name before name between
    have := value.length_lt
    have := comma.length_le
    have := more.length_lt
    simp only [List.length_cons] at *
    obtain ⟨fuel, rfl⟩ : ∃ k, fuel = k + 1 := ⟨fuel - 1, by omega⟩
    have read := ih shallow (comma.ends (by simp [isEnd])) fuel (by omega)
    have goesOn := comma.skip (by simp [isBlank])
    have rest := ih' shallow fuel (by omega)
    rw [readPairs_name before name depth between value.stops read, goesOn, Entries.fill?,
      List.foldlM_cons]
    cases entries.put? (key, n) with
    | none => rfl
    | some entries => exact rest entries

/-- **Values.** What is spelled at the start of a line's rest is read there, unless it is an integer
that has more than 64 bits. -/
theorem Value.reads {s t : List Char} {n : Node} (value : Value s n t) (ends : Ends t) :
    readValue (2 * s.length + 2) 0 s = if isNarrow n then some (n, t) else none :=
  Spells.reads value (Nat.sub_one_lt (by decide)) ends (2 * s.length + 1) (by omega)

end Embedder.Toml
