import Embedder.Sink

namespace Embedder

/-!
# The lines a header sink marks

A sink that puts a header in front of lines looks at one byte at a time, and only remembers whether a
line starts. So what it passes on depends on the text that is printed, and not on the pieces that the
text is printed in.

* `Bytes.headed`, `HeaderSink.mark_eq_headed`: the text with a header in front of its lines.
* `Bytes.inserted`, `HeaderSink.mark_eq_inserted`: the same, by the positions of bytes.
* `Bytes.unheaded`: the text without the headers.
* `HeaderSink.printEach`, `HeaderSink.printEach_inserts`: a text printed in any pieces.
-/

/-! ### Lines of a text -/

/-- A header in front of a line, unless it is empty. -/
def Bytes.headLine (header line : Bytes) : Bytes :=
  if line = [] then [] else header ++ line

/-- A text with a header in front of every line that is not empty. -/
def Bytes.headed (header text : Bytes) : Bytes :=
  [lineFeed].intercalate ((text.splitOn lineFeed).map (headLine header))

/-- What stands at the front of the first line stands at the front of the text. -/
theorem intercalate_append_cons {α : Type} (between front line : List α) (lines : List (List α)) :
    between.intercalate ((front ++ line) :: lines) = front ++ between.intercalate (line :: lines) := by
  cases lines with
  | nil => simp
  | cons next lines => simp only [List.intercalate_cons_cons, List.append_assoc]

namespace HeaderSink

variable (header : Bytes)

/-- Bytes that are printed in two pieces are marked like those that are printed in one. -/
theorem mark_append (atLineStart : Bool) (bytes more : Bytes) :
    mark header atLineStart (bytes ++ more) =
      ((mark header atLineStart bytes).1 ++ (mark header (mark header atLineStart bytes).2 more).1,
        (mark header (mark header atLineStart bytes).2 more).2) := by
  induction bytes generalizing atLineStart with
  | nil => rfl
  | cons b bytes ih =>
    simp only [List.cons_append, mark, ih]
    split <;> simp only [List.append_assoc, List.cons_append]

/-- What is marked of a text that begins in the middle of a line, or at the start of one. By induction
on the text: a line that has begun grows at its head. -/
theorem mark_eq_intercalate (atLineStart : Bool) (text : Bytes) {line : Bytes} {lines : List Bytes}
    (cut : text.splitOn lineFeed = line :: lines) :
    (mark header atLineStart text).1 = [lineFeed].intercalate
      ((if atLineStart then Bytes.headLine header line else line) ::
        lines.map (Bytes.headLine header)) := by
  -- By induction on the text: its first byte ends a line or goes to the front of the first one.
  induction text generalizing atLineStart line lines with
  | nil =>
    cases cut
    cases atLineStart <;> rfl
  | cons b text ih =>
    obtain ⟨next, others, rest⟩ := List.exists_cons_of_ne_nil (List.splitOn_ne_nil lineFeed text)
    rw [List.splitOn_cons_eq_if_modifyHead, rest] at cut
    by_cases ends : b = lineFeed
    · simp only [ends, BEq.rfl, if_true, List.cons.injEq] at cut
      obtain ⟨rfl, rfl⟩ := cut
      have marked := ih true rest
      simp only [mark, ends, decide_true, ne_eq, not_true, decide_false, Bool.and_false,
        Bool.false_eq_true, if_false, marked, if_true, List.map_cons, List.intercalate_cons_cons]
      cases atLineStart <;> rfl
    · simp only [beq_iff_eq, ends, if_false, List.modifyHead_cons, List.cons.injEq] at cut
      obtain ⟨rfl, rfl⟩ := cut
      have marked := ih false rest
      simp only [mark, ends, decide_false, ne_eq, not_false_eq_true, decide_true, Bool.and_true,
        marked, Bool.false_eq_true, if_false]
      cases atLineStart with
      | false => exact (intercalate_append_cons [lineFeed] [b] next _).symm
      | true =>
        have front : Bytes.headLine header (b :: next) = (header ++ [b]) ++ next := by
          simp [Bytes.headLine]
        rw [if_pos rfl, if_pos rfl, front, intercalate_append_cons, List.append_assoc]
        rfl

/-- A text that is printed from the start is marked line by line. -/
theorem mark_eq_headed (text : Bytes) : (mark header true text).1 = Bytes.headed header text := by
  obtain ⟨line, lines, cut⟩ := List.exists_cons_of_ne_nil (List.splitOn_ne_nil lineFeed text)
  rw [mark_eq_intercalate header true text cut, Bytes.headed, cut]
  rfl

end HeaderSink

/-! ### Positions -/

/-- Whether a line starts at a position of a text: at the front, and after a line feed. -/
def Bytes.StartsLine (text : Bytes) (i : Nat) : Prop :=
  i = 0 ∨ text[i - 1]? = some lineFeed

instance (text : Bytes) (i : Nat) : Decidable (text.StartsLine i) :=
  inferInstanceAs (Decidable (_ ∨ _))

/-- After the first byte of what is left of a text, a line starts if that byte is a line feed. -/
theorem Bytes.startsLine_append (front rest : Bytes) (b : UInt8) :
    (front ++ b :: rest).StartsLine (front.length + 1) ↔ b = lineFeed := by
  simp [StartsLine]

/-- A text with a header in front of each byte that starts a line and does not end it. -/
def Bytes.inserted (header text : Bytes) : Bytes :=
  text.zipIdx.flatMap fun (b, i) =>
    if b ≠ lineFeed ∧ text.StartsLine i then header ++ [b] else [b]

namespace HeaderSink

variable (header : Bytes)

/-- Marking what is left of a text puts the header in front of the bytes that start a line of the
whole text. By induction on what is left; `front` is what has passed. -/
theorem mark_eq_flatMap (front rest : Bytes) :
    (mark header (decide ((front ++ rest).StartsLine front.length)) rest).1 =
      (rest.zipIdx front.length).flatMap fun (b, i) =>
        if b ≠ lineFeed ∧ (front ++ rest).StartsLine i then header ++ [b] else [b] := by
  induction rest generalizing front with
  | nil => rfl
  | cons b rest ih =>
    have ih := ih (front ++ [b])
    simp only [List.append_assoc, List.singleton_append, List.length_append,
      List.length_singleton, Bytes.startsLine_append] at ih
    rw [List.zipIdx_cons, List.flatMap_cons, ← ih, mark]
    -- Only a byte that starts a line, and does not end it at once, gets the header.
    by_cases ends : b = lineFeed
    · simp [ends]
    by_cases starts : (front ++ b :: rest).StartsLine front.length
    · simp [ends, starts]
    · simp [ends, starts]

/-- A text that is printed from the start gets the header where its lines start. -/
theorem mark_eq_inserted (text : Bytes) :
    (mark header true text).1 = Bytes.inserted header text := by
  have starts : text.StartsLine 0 := .inl rfl
  have marked := mark_eq_flatMap header [] text
  simp only [List.nil_append, List.length_nil, starts, decide_true] at marked
  exact marked

end HeaderSink

/-! ### Removing headers -/

/-- What a list is split at is in none of its parts. -/
theorem not_mem_of_mem_splitOn {α : Type} [BEq α] [LawfulBEq α] (a : α) {part list : List α}
    (h : part ∈ list.splitOn a) : a ∉ part := by
  induction list generalizing part with
  | nil =>
    have empty : part = [] := by simpa using h
    simp [empty]
  | cons b list ih =>
    -- The tail has at least one part; a byte that is no cut goes in front of the first one.
    obtain ⟨next, others, parts⟩ := List.exists_cons_of_ne_nil (List.splitOn_ne_nil a list)
    rw [parts] at ih
    rw [List.splitOn_cons_eq_if_modifyHead, parts] at h
    by_cases cut : b = a
    · simp only [cut, BEq.rfl, if_true] at h
      cases h with
      | head => exact List.not_mem_nil
      | tail _ h => exact ih h
    · simp only [beq_iff_eq, cut, if_false, List.modifyHead_cons] at h
      cases h with
      | head =>
        rw [List.mem_cons, not_or]
        exact ⟨fun same => cut same.symm, ih List.mem_cons_self⟩
      | tail _ h => exact ih (List.mem_cons_of_mem _ h)

namespace Bytes

/-- A text without as many bytes at the start of each line as a header has, unless the line is
empty. -/
def unheaded (header text : Bytes) : Bytes :=
  [lineFeed].intercalate ((text.splitOn lineFeed).map fun line =>
    if line = [] then [] else line.drop header.length)

variable {header : Bytes}

/-- The lines of a text with headers are the lines of the text, each with its header. A header that
itself ends a line would make more of them. -/
theorem splitOn_headed (oneLine : lineFeed ∉ header) (text : Bytes) :
    (headed header text).splitOn lineFeed = (text.splitOn lineFeed).map (headLine header) := by
  apply List.splitOn_intercalate
  · intro line mem
    obtain ⟨plain, part, rfl⟩ := List.mem_map.mp mem
    have plainLine := not_mem_of_mem_splitOn lineFeed part
    unfold headLine
    split
    · exact List.not_mem_nil
    · simp only [List.mem_append, oneLine, plainLine, or_self, not_false_eq_true]
  · simp only [ne_eq, List.map_eq_nil_iff, List.splitOn_ne_nil, not_false_eq_true]

/-- Every line of a text with headers that is not empty has one. -/
theorem header_isPrefix (oneLine : lineFeed ∉ header) {text line : Bytes}
    (mem : line ∈ (headed header text).splitOn lineFeed) (full : line ≠ []) : header <+: line := by
  rw [splitOn_headed oneLine] at mem
  obtain ⟨plain, -, rfl⟩ := List.mem_map.mp mem
  unfold headLine at full ⊢
  split
  · simp_all
  · exact List.prefix_append _ _

/-- Without the headers, the text is what it was. -/
theorem unheaded_headed (oneLine : lineFeed ∉ header) (text : Bytes) :
    unheaded header (headed header text) = text := by
  have removed (line : Bytes) : (if headLine header line = [] then []
      else (headLine header line).drop header.length) = line := by
    by_cases empty : line = []
    · simp [headLine, empty]
    · simp [headLine, empty]
  unfold unheaded
  rw [splitOn_headed oneLine, List.map_map]
  simp only [Function.comp_def, removed, List.map_id']
  exact List.intercalate_splitOn lineFeed

end Bytes

/-! ### Printing in pieces -/

namespace HeaderSink

/-- What each of the prints passes on, and the sink after the last one. -/
def printEach : HeaderSink → List Bytes → List Bytes × HeaderSink
  | s, [] => ([], s)
  | s, bytes :: more =>
    let (out, after) := printEach (s.print bytes).2 more
    ((s.print bytes).1 :: out, after)

/-- Each print is one print of what the sink passes on to. -/
theorem length_printEach (s : HeaderSink) (pieces : List Bytes) :
    (s.printEach pieces).1.length = pieces.length := by
  induction pieces generalizing s with
  | nil => rfl
  | cons bytes more ih => exact congrArg (· + 1) (ih _)

/-- Prints pass on what one print of all their bytes would. By induction on the prints: where one
ends, the next goes on with what it has left in the sink. -/
theorem flatten_printEach (s : HeaderSink) (pieces : List Bytes) :
    (s.printEach pieces).1.flatten = (mark s.header s.atLineStart pieces.flatten).1 := by
  induction pieces generalizing s with
  | nil => rfl
  | cons bytes more ih =>
    show (s.print bytes).1 ++ ((s.print bytes).2.printEach more).1.flatten = _
    rw [ih, List.flatten_cons, mark_append]
    rfl

/-- **Headers.** What a new sink passes on of a text that is printed in any pieces. The header stands
in front of each byte that is not a line feed and is the first one or follows a line feed; another way
of cutting the text gives the same; and a header within a line can be removed again. -/
theorem printEach_inserts (header : Bytes) (pieces : List Bytes) :
    let out := ((ofHeader header).printEach pieces).1
    out.length = pieces.length ∧
    out.flatten = Bytes.inserted header pieces.flatten ∧
    (∀ pieces' : List Bytes, pieces'.flatten = pieces.flatten →
      ((ofHeader header).printEach pieces').1.flatten = out.flatten) ∧
    (lineFeed ∉ header →
      (∀ line ∈ out.flatten.splitOn lineFeed, line ≠ [] → header <+: line) ∧
      Bytes.unheaded header out.flatten = pieces.flatten) := by
  intro out
  have marked : out.flatten = (mark header true pieces.flatten).1 :=
    flatten_printEach (ofHeader header) pieces
  have headed : out.flatten = Bytes.headed header pieces.flatten :=
    marked.trans (mark_eq_headed header _)
  refine ⟨length_printEach _ _, marked.trans (mark_eq_inserted header _), ?_, ?_⟩
  · intro pieces' same
    rw [flatten_printEach, same]
    exact marked.symm
  · intro oneLine
    rw [headed]
    exact ⟨fun line => Bytes.header_isPrefix oneLine, Bytes.unheaded_headed oneLine _⟩

example : (ofHeader [0x3E]).printEach [[0x61], [], [0x62, 0x0A, 0x0A], [0x63]] =
    ([[0x3E, 0x61], [], [0x62, 0x0A, 0x0A], [0x3E, 0x63]], ⟨[0x3E], false⟩) := by decide

end HeaderSink

end Embedder
