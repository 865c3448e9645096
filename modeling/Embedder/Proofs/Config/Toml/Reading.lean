import Embedder.Proofs.Config.Toml.Values

namespace Embedder.Toml

/-!
# How documents are spelled in TOML

A document is a list of lines, each a header or an entry, with blank lines and comments between
them. Every way to spell it is read line by line, by induction on the spelling: a line takes up at
least one character, so the bound on the number of lines is never met. Read section by section
instead, a header opens a table, the entries after it fill the table, and the next header or the end
of the text puts it in its place.

* `Statement`, `Lines`, `Spelled`: the grammar.
* `Lines.reads`: what is read line by line.
* `Document.entries?`: what a document says, section by section.
* `read?_of_spelled`: whole texts.
* `Document.exists_spelled`: a text for every document.
-/

/-! ### The grammar -/

/-- What stands on a line that is neither blank nor a comment: a header, or a key with its value. -/
inductive Line where
  | header (key : List String)
  | entry (key : List String) (n : Node)

/-- A text, the line at its start without its end, and how it goes on. -/
inductive Statement : List Char → Line → List Char → Prop where
  | header {r s t : List Char} {key : List String} (blanks : Blanks r s)
    (name : Key s key (']' :: t)) (depth : key.length < depthLimit) :
    Statement ('[' :: r) (.header key) t
  | entry {s u v t : List Char} {key : List String} {n : Node} (name : Key s key ('=' :: u))
    (depth : key.length < depthLimit) (blanks : Blanks u v) (value : Value v n t) :
    Statement s (.entry key n) t

/-- A text and all its lines, with blank lines and comments before and after each. -/
inductive Lines : List Char → List Line → Prop where
  | done {s : List Char} (void : Void s []) : Lines s []
  | line {s u v w : List Char} {l : Line} {ls : List Line} (void : Void s u)
    (statement : Statement u l v) (ended : Over v w) (more : Lines w ls) : Lines s (l :: ls)

/-- A header with the entries that come before the next one. -/
structure Section where
  header : List String
  entries : List (List String × Node)

/-- The lines of a section. -/
def Section.lines (s : Section) : List Line :=
  .header s.header :: s.entries.map fun e => .entry e.1 e.2

/-- A document: the entries before all headers, and the sections. -/
structure Document where
  top : List (List String × Node)
  sections : List Section

/-- The lines of a document. -/
def Document.lines (doc : Document) : List Line :=
  (doc.top.map fun e => .entry e.1 e.2) ++ doc.sections.flatMap Section.lines

/-- A text spells a document; the mark that tells its byte order may come first. -/
def Spelled (text : String) (doc : Document) : Prop :=
  ∃ s, (text.toList = s ∨ text.toList = '\ufeff' :: s) ∧ Lines s doc.lines

/-! ### Lines -/

theorem Statement.length_lt {s t : List Char} {l : Line} (statement : Statement s l t) :
    t.length < s.length := by
  cases statement with
  | header blanks name =>
    have first := blanks.length_le
    have second := name.length_lt
    simp only [List.length_cons] at *
    omega
  | entry name _ blanks value =>
    have first := name.length_lt
    have second := blanks.length_le
    have third := Spells.length_lt value
    simp only [List.length_cons] at *
    omega

theorem Statement.exists_first {s t : List Char} {l : Line} (statement : Statement s l t) :
    ∃ c u, s = c :: u ∧ (c = '[' ∨ opensKey c) := by
  cases statement with
  | header => exact ⟨_, _, rfl, .inl rfl⟩
  | entry name =>
    obtain ⟨c, u, same, opens⟩ := name.exists_first
    exact ⟨c, u, same, .inr opens⟩

/-- What a line does to a document that has been read so far. -/
def Draft.step? (d : Draft) : Line → Option Draft
  | .header key => d.openTable? key
  | .entry key n => if isNarrow n then d.insert? key n else none

/-- A line is read up to where it ends. -/
theorem Statement.reads {s t : List Char} {l : Line} (statement : Statement s l t) (ends : Ends t)
    (d : Draft) : readStatement d s = (d.step? l).map fun d => (d, t) := by
  -- A header and an entry are told apart by their first characters: no key begins with a bracket.
  cases statement with
  | @header r s t key blanks name depth =>
    have read := name.readKey depth blanks (by simp [isBlank, isBare])
    have single : ∀ u, r ≠ '[' :: u := by
      rintro u rfl
      obtain ⟨c, v, rfl, opens⟩ := name.exists_first
      rcases blanks.head (c := '[') rfl with blank | first
      · cases blank
      · cases first
        cases opens
    rw [readStatement.eq_def]
    split
    case h_1 same => exact absurd (List.cons.inj same).2 (single _)
    case h_2 same =>
      cases same
      rw [read]
      cases opened : d.openTable? key <;> simp [Draft.step?, opened, expect]
    case h_3 other => exact absurd rfl (other r)
  | @entry s u v t key n name depth blanks value =>
    have read := name.readKey depth (.refl s) (by simp [isBlank, isBare])
    have plain : ∀ u, s ≠ '[' :: u := by
      rintro u rfl
      obtain ⟨c, v, same, opens⟩ := name.exists_first
      cases same
      cases opens
    rw [readStatement.eq_def]
    split
    case h_1 => exact absurd rfl (plain _)
    case h_2 => exact absurd rfl (plain _)
    case h_3 =>
      have skipped := blanks.skip (Spells.stops value)
      have valued := value.reads ends
      rw [read]
      simp only [Option.bind_eq_bind, Option.bind_some, expect, if_true, skipped, valued]
      by_cases narrow : isNarrow n
      · simp only [narrow, Draft.step?, if_true, Option.bind_some, Option.pure_def]
        cases d.insert? key n <;> rfl
      · simp [narrow, Draft.step?]

/-- What is read where some lines start is what they make of the document, as long as there may be
as many lines as characters. -/
theorem Lines.reads {s : List Char} {ls : List Line} (lines : Lines s ls) {fuel : Nat}
    (enough : s.length < fuel) (d : Draft) : readLines fuel d s = ls.foldlM Draft.step? d := by
  -- By induction on the lines: each is shorter than the fuel that is left.
  induction lines generalizing fuel d with
  | done void =>
    obtain ⟨fuel, rfl⟩ : ∃ k, fuel = k + 1 := ⟨fuel - 1, by omega⟩
    have skipped := void.skip (by simp)
    rw [readLines, skipped]
    rfl
  | @line s u v w l ls void statement ended _ ih =>
    obtain ⟨fuel, rfl⟩ : ∃ k, fuel = k + 1 := ⟨fuel - 1, by omega⟩
    have first := void.length_le
    have second := statement.length_lt
    have third := ended.length_le
    have read := statement.reads ended.ends d
    obtain ⟨c, r, rfl, opens⟩ := statement.exists_first
    have solid : isSolid c := by
      rcases opens with rfl | opens
      · rfl
      · exact isSolid_of_opensKey opens
    have skipped := void.skip (by simpa using solid)
    rw [readLines, skipped, List.foldlM_cons]
    simp only [read]
    cases d.step? l with
    | none => rfl
    | some d =>
      simp only [Option.map_some, Option.bind_eq_bind, Option.bind_some, ended.endLine]
      exact ih (by omega) d

/-- Nothing is passed over that begins like a word. -/
theorem Void.eq_of_isSolid {s t : List Char} {c : Char} (void : Void (c :: s) t)
    (solid : isSolid c) : t = c :: s := by
  cases void with
  | refl => rfl
  | blank blank =>
    cases blank.symm.trans (not_isBlank_of_isSolid solid)
  | lineEnd ended =>
    rcases ended.head (c := c) rfl with rfl | rfl <;> cases solid
  | comment comment =>
    cases comment.head (c := c) rfl
    cases solid

/-- The mark that tells the byte order is not part of a spelling. -/
theorem Lines.withoutByteOrderMark {s : List Char} {ls : List Line} (lines : Lines s ls) :
    withoutByteOrderMark s = s := by
  rw [Toml.withoutByteOrderMark.eq_def]
  split
  case h_2 => rfl
  case h_1 =>
    cases lines with
    | done void => cases void.eq_of_isSolid rfl
    | line void statement =>
      cases void.eq_of_isSolid rfl
      obtain ⟨c, u, same, opens⟩ := statement.exists_first
      cases same
      rcases opens with opens | opens <;> cases opens

/-! ### Sections -/

namespace Entries

/-- The entries with the table of a section opened, filled, and put in its place. -/
def section? (t : Entries) (s : Section) : Option Entries := do
  let path := s.header.dropLast
  let k ← s.header.getLast?
  let (content, rest) ← t.openTable? path k
  let content ← fill? content s.entries
  rest.close? path k false content

end Entries

/-- What a document says, section by section. -/
def Document.entries? (doc : Document) : Option Entries := do
  doc.sections.foldlM Entries.section? (← Entries.fill? [] doc.top)

namespace Draft

/-- Entries go to the open table. -/
theorem foldlM_entries (d : Draft) (es : List (List String × Node)) :
    (es.map fun e => Line.entry e.1 e.2).foldlM step? d =
      (d.current.fill? es).map fun current => { d with current := current } := by
  induction es generalizing d with
  | nil => rfl
  | cons e es ih =>
    have step : d.step? (.entry e.1 e.2) =
        (d.current.put? e).map fun current => { d with current := current } := by
      by_cases narrow : isNarrow e.2
      · simp only [step?, Entries.put?, narrow, if_true, insert?]
        cases e.1.getLast? with
        | none => rfl
        | some k =>
          simp only [Option.bind_eq_bind, Option.bind_some]
          cases d.current.insert? e.1.dropLast k e.2 <;> rfl
      · simp [step?, Entries.put?, narrow]
    rw [List.map_cons, List.foldlM_cons, step, Entries.fill?, List.foldlM_cons]
    cases d.current.put? e with
    | none => rfl
    | some current => exact ih _

/-- Once a section is closed, it has been put in its place. -/
theorem foldlM_section (d : Draft) (s : Section) :
    (s.lines.foldlM step? d).bind close? = d.close?.bind fun t => t.section? s := by
  rw [Section.lines, List.foldlM_cons, step?, openTable?, Option.bind_eq_bind]
  cases last : s.header.getLast? with
  | none => cases d.close? <;> simp [Entries.section?, last]
  | some k =>
    cases closed : d.close? with
    | none => rfl
    | some t =>
      simp only [Option.bind_eq_bind, Option.bind_some, Entries.section?, last]
      cases t.openTable? s.header.dropLast k with
      | none => rfl
      | some opened =>
        obtain ⟨content, rest⟩ := opened
        simp only [Option.bind_some, Option.pure_def, foldlM_entries]
        cases content.fill? s.entries <;> rfl

/-- The lines of sections are read section by section. -/
theorem foldlM_sections (d : Draft) (ss : List Section) :
    ((ss.flatMap Section.lines).foldlM step? d).bind close? =
      d.close?.bind fun t => ss.foldlM Entries.section? t := by
  -- The lines of a section end with the draft closed, which is where the next one starts.
  induction ss generalizing d with
  | nil =>
    show d.close? = d.close?.bind some
    cases d.close? <;> rfl
  | cons s ss ih =>
    have first := d.foldlM_section s
    rw [List.flatMap_cons, List.foldlM_append]
    cases read : s.lines.foldlM step? d with
    | none =>
      rw [read] at first
      cases closed : d.close? with
      | none => rfl
      | some t =>
        rw [closed] at first
        simp only [Option.bind_none, Option.bind_some] at first
        simp [List.foldlM_cons, ← first]
    | some d' =>
      rw [read, Option.bind_some] at first
      rw [Option.bind_eq_bind, Option.bind_some, ih d', first, Option.bind_assoc]
      rfl

end Draft

/-- **Documents.** A text that spells a document is read as what the document says. -/
theorem read?_of_spelled {text : String} {doc : Document} (spelled : Spelled text doc) :
    read? text = doc.entries?.map Entries.toNode := by
  obtain ⟨s, mark, lines⟩ := spelled
  have unmarked : withoutByteOrderMark text.toList = s := by
    rcases mark with same | same
    · rw [same, lines.withoutByteOrderMark]
    · rw [same]
      rfl
  have read := lines.reads (Nat.lt_succ_self _) .empty
  rw [Document.lines, List.foldlM_append, Draft.foldlM_entries] at read
  simp only [read?, unmarked, read, Document.entries?, Option.bind_eq_bind]
  cases filled : Entries.fill? [] doc.top with
  | none => simp [Draft.empty, filled]
  | some t =>
    -- Entries before all headers fill the tables that the sections then start from.
    have closed : ((doc.sections.flatMap Section.lines).foldlM Draft.step?
        { Draft.empty with current := t }).bind Draft.close? =
          doc.sections.foldlM Entries.section? t := Draft.foldlM_sections _ _
    simp only [Draft.empty, filled, Option.map_some, Option.bind_some] at closed ⊢
    rw [← closed]
    simp only [Option.map_eq_bind, Option.bind_assoc]
    rfl

/-! ### Writing -/

/-- A header or an entry that can be written with what is spelled out in the grammar. -/
def Line.IsWritable : Line → Prop
  | .header key => key ≠ [] ∧ key.length < depthLimit
  | .entry key n =>
    key ≠ [] ∧ key.length < depthLimit ∧ ((∃ v, n = .integer v) ∨ ∃ s, n = .text s)

theorem exists_statement {l : Line} (writable : l.IsWritable) (t : List Char) :
    ∃ s, Statement s l t := by
  cases l with
  | header key =>
    obtain ⟨s, name⟩ := exists_key writable.1 (']' :: t)
    exact ⟨_, .header (.refl s) name writable.2⟩
  | entry key n =>
    obtain ⟨nonempty, depth, written⟩ := writable
    have value : ∃ v, Value v n t := by
      rcases written with ⟨v, rfl⟩ | ⟨s, rfl⟩
      · obtain ⟨w, plain⟩ := exists_integer v
        exact ⟨w ++ t, .plain t plain⟩
      · obtain ⟨u, quoted⟩ := exists_quoted s.toList t
        have text := Quotation.basic quoted
        refine ⟨'"' :: u, ?_⟩
        rw [← String.ofList_toList (s := s)]
        exact .text text
    obtain ⟨v, value⟩ := value
    obtain ⟨s, name⟩ := exists_key nonempty ('=' :: v)
    exact ⟨s, .entry name depth (.refl v) value⟩

/-- Every document of writable lines has a text that spells it. -/
theorem Document.exists_spelled {doc : Document} (writable : ∀ l ∈ doc.lines, l.IsWritable) :
    ∃ text, Spelled text doc := by
  have written : ∀ ls : List Line, (∀ l ∈ ls, l.IsWritable) → ∃ s, Lines s ls := by
    intro ls writable
    induction ls with
    | nil => exact ⟨[], .done (.refl [])⟩
    | cons l ls ih =>
      obtain ⟨first, rest⟩ := List.forall_mem_cons.1 writable
      obtain ⟨w, more⟩ := ih rest
      obtain ⟨s, statement⟩ := exists_statement first ('\n' :: w)
      have ended : Over ('\n' :: w) w :=
        ⟨_, _, .refl _, .inl rfl, .inl (.inl rfl)⟩
      exact ⟨s, .line (.refl s) statement ended more⟩
  obtain ⟨s, lines⟩ := written doc.lines writable
  exact ⟨String.ofList s, s, .inl (String.toList_ofList), lines⟩

end Embedder.Toml
