import Embedder.Host.Loading
import Embedder.Proofs.Sink.Headers
import Embedder.Proofs.Text.Utf8

namespace Embedder

/-!
# The lines a line sink tells

A sink that waits for the ends of lines takes one line after another off the front of what is pending,
so that it holds nothing but an unfinished line after each print. A line feed is no part of any other
character: the lines that are told, which are decoded one by one, are the text that is decoded at once.

* `Bytes.wholeLines`, `Bytes.lastLine`: the lines of a text.
* `LineSink.Drains`: lines are taken off, one a round, until none is whole.
* `LineSink.print_drains`: what one print does.
* `LineSink.printEach`, `LineSink.printEach_tells`: a text that is printed in any pieces.
-/

/-! ### Lines of a text -/

namespace Bytes

/-- The lines of a text that have an end. -/
def wholeLines (text : Bytes) : List Bytes :=
  (text.splitOn lineFeed).dropLast

/-- What follows the last line feed of a text, or all of it. -/
def lastLine (text : Bytes) : Bytes :=
  (text.splitOn lineFeed).getLast (List.splitOn_ne_nil lineFeed text)

end Bytes

/-! ### Rounds -/

namespace LineSink

/-- How whole lines are taken off the front of pending bytes: one in each round, as long as there is a
line feed. Only rounds that come to an end are derived. -/
inductive Drains : (pending : Bytes) → (lines : List Bytes) → (left : Bytes) → Prop where
  | done {pending : Bytes} : lineFeed ∉ pending → Drains pending [] pending
  | line {line rest : Bytes} {lines : List Bytes} {left : Bytes} : lineFeed ∉ line →
      Drains rest lines left → Drains (line ++ lineFeed :: rest) (line :: lines) left

namespace Drains

variable {pending left : Bytes} {lines : List Bytes}

/-- No whole line is left. -/
theorem not_mem (drains : Drains pending lines left) : lineFeed ∉ left := by
  induction drains with
  | done none => exact none
  | line _ _ ih => exact ih

/-- There are as many rounds as line feeds. -/
theorem length_eq (drains : Drains pending lines left) :
    lines.length = pending.count lineFeed := by
  induction drains with
  | done none => exact (List.count_eq_zero.2 none).symm
  | line first _ ih =>
    rw [List.length_cons, ih, List.count_append, List.count_cons_self,
      List.count_eq_zero.2 first, Nat.zero_add]

/-- The lines that are taken off are those of the text. -/
theorem splitOn_eq (drains : Drains pending lines left) :
    pending.splitOn lineFeed = lines ++ [left] := by
  induction drains with
  | done none => exact List.splitOn_eq_singleton none
  | line first _ ih => rw [List.splitOn_append_cons_self_of_not_mem first, ih, List.cons_append]

theorem wholeLines_eq (drains : Drains pending lines left) : pending.wholeLines = lines := by
  rw [Bytes.wholeLines, drains.splitOn_eq, List.dropLast_concat]

theorem lastLine_eq (drains : Drains pending lines left) : pending.lastLine = left := by
  simp only [Bytes.lastLine, drains.splitOn_eq, List.getLast_concat]

/-- More bytes continue the line that was left. -/
theorem append (drains : Drains pending lines left) {bytes left' : Bytes} {lines' : List Bytes}
    (more : Drains (left ++ bytes) lines' left') :
    Drains (pending ++ bytes) (lines ++ lines') left' := by
  induction drains with
  | done _ => exact more
  | line first _ ih =>
    rw [List.append_assoc, List.cons_append, List.cons_append]
    exact .line first (ih more)

/-- Lines that are decoded one by one are the text that is decoded at once. -/
theorem lossy_eq (drains : Drains pending lines left) :
    Text.lossy pending =
      String.join (lines.map fun line => Text.lossy line ++ "\n") ++ Text.lossy left := by
  induction drains with
  | done _ => exact String.empty_append.symm
  | @line line rest lines left first _ ih =>
    have feed : String.singleton (Char.ofNat lineFeed.toNat) = "\n" := by decide
    rw [Text.lossy_append_ascii line rest (by decide), feed, ih, List.map_cons, String.join_cons,
      String.append_assoc, String.append_assoc, String.append_assoc]

end Drains

/-! ### One print -/

/-- Bytes that are split, after the begin of a line, are drained. By induction on the bytes: those of
a line are collected until it ends. -/
theorem split_drains {line : Bytes} (begun : lineFeed ∉ line) (bytes : Bytes) :
    Drains (line.reverse ++ bytes) (split line bytes).1 (split line bytes).2 := by
  induction bytes generalizing line with
  | nil =>
    rw [List.append_nil]
    exact .done (by simpa using begun)
  | cons b bytes ih =>
    by_cases ends : b = lineFeed
    · -- The line is taken off, and what follows begins another one.
      have next : Drains bytes (split [] bytes).1 (split [] bytes).2 := ih List.not_mem_nil
      simp only [split, ends, if_true]
      exact .line (by simpa using begun) next
    · have begun : lineFeed ∉ b :: line := by
        rw [List.mem_cons, not_or]
        exact ⟨fun same => ends same.symm, begun⟩
      have drains := ih begun
      rw [List.reverse_cons, List.append_assoc, List.singleton_append] at drains
      simpa only [split, ends, if_false] using drains

/-- One print drains what is pending together with its bytes, and tells the lines. -/
theorem print_drains {s : LineSink} (unfinished : lineFeed ∉ s.pending) (bytes : Bytes) :
    ∃ lines, Drains (s.pending ++ bytes) lines (s.print bytes).2.pending ∧
      (s.print bytes).1 = lines.map Text.lossy := by
  have begun : lineFeed ∉ s.pending.reverse := by simpa using unfinished
  have drains := split_drains begun bytes
  rw [List.reverse_reverse] at drains
  exact ⟨_, drains, rfl⟩

/-! ### Prints in a row -/

/-- The lines that each of the prints completes, and the sink after the last one. -/
def printEach : LineSink → List Bytes → List (List String) × LineSink
  | s, [] => ([], s)
  | s, bytes :: more =>
    let (told, after) := printEach (s.print bytes).2 more
    ((s.print bytes).1 :: told, after)

/-- Prints drain what one print of all their bytes would. By induction on the prints, which each leave
a line unfinished. -/
theorem printEach_drains {s : LineSink} (unfinished : lineFeed ∉ s.pending) (pieces : List Bytes) :
    ∃ lines, Drains (s.pending ++ pieces.flatten) lines (s.printEach pieces).2.pending ∧
      (s.printEach pieces).1.flatten = lines.map Text.lossy := by
  induction pieces generalizing s with
  | nil =>
    refine ⟨[], ?_, rfl⟩
    rw [List.flatten_nil, List.append_nil]
    exact .done unfinished
  | cons bytes more ih =>
    obtain ⟨first, drains, told⟩ := print_drains unfinished bytes
    obtain ⟨lines, rest, later⟩ := ih drains.not_mem
    refine ⟨first ++ lines, ?_, ?_⟩
    · rw [List.flatten_cons, ← List.append_assoc]
      exact drains.append rest
    · show (s.print bytes).1 ++ ((s.print bytes).2.printEach more).1.flatten = _
      rw [told, later, List.map_append]

/-- Each print tells its own lines, if only none. -/
theorem length_printEach (s : LineSink) (pieces : List Bytes) :
    (s.printEach pieces).1.length = pieces.length := by
  induction pieces generalizing s with
  | nil => rfl
  | cons bytes more ih => exact congrArg (· + 1) (ih _)

/-- What is printed later changes nothing of what was told. -/
theorem printEach_take (s : LineSink) (pieces : List Bytes) (n : Nat) :
    (s.printEach (pieces.take n)).1 = (s.printEach pieces).1.take n := by
  induction pieces generalizing s n with
  | nil => simp [printEach]
  | cons bytes more ih =>
    cases n with
    | zero => rfl
    | succ n => exact congrArg ((s.print bytes).1 :: ·) (ih _ n)

/-- Without a header, all that is printed is captured. -/
theorem captured_foldl_print {o : Output} (bare : o.header = none) (pieces : List Bytes) :
    (pieces.foldl Output.print o).captured = o.captured ++ pieces.flatten := by
  induction pieces generalizing o with
  | nil => simp
  | cons bytes more ih =>
    have printed : o.print bytes = ⟨none, o.captured ++ bytes⟩ := by
      unfold Output.print
      rw [bare]
    rw [List.foldl_cons, printed, ih rfl, List.flatten_cons, List.append_assoc]

/-- A new sink tells the lines of the text that have an end, and keeps the last one. -/
theorem printEach_empty (pieces : List Bytes) :
    (empty.printEach pieces).1.flatten = (Bytes.wholeLines pieces.flatten).map Text.lossy ∧
    (empty.printEach pieces).2.pending = Bytes.lastLine pieces.flatten ∧
    Drains pieces.flatten (Bytes.wholeLines pieces.flatten) (Bytes.lastLine pieces.flatten) := by
  have unfinished : lineFeed ∉ empty.pending := List.not_mem_nil
  obtain ⟨lines, drains, told⟩ := printEach_drains unfinished pieces
  have drains : Drains pieces.flatten lines (empty.printEach pieces).2.pending := drains
  rw [drains.wholeLines_eq, drains.lastLine_eq]
  exact ⟨told, rfl, drains⟩

/-- What is told of a text that is printed in pieces, and the sink after the last of them. -/
structure Tells (pieces : List Bytes) (told : List (List String)) (sink : LineSink) : Prop where
  each : told.length = pieces.length
  /-- After any number of prints, all lines that have an end by then were told, and no others. -/
  soon : ∀ n, (told.take n).flatten = (Bytes.wholeLines (pieces.take n).flatten).map Text.lossy
  pending : sink.pending = Bytes.lastLine pieces.flatten
  unfinished : lineFeed ∉ sink.pending
  /-- Another print goes through one round for each of its line feeds, and ends. -/
  ends : ∀ bytes, ∃ lines, Drains (sink.pending ++ bytes) lines (sink.print bytes).2.pending ∧
    lines.length = bytes.count lineFeed ∧ (sink.print bytes).1 = lines.map Text.lossy
  /-- Dropping the sink tells the rest of the text, if there is any. -/
  finish : sink.finish = if Bytes.lastLine pieces.flatten = [] then []
    else [Text.lossy (Bytes.lastLine pieces.flatten)]
  /-- What is captured reads like the lines, with their ends. -/
  captured : Text.lossy (pieces.foldl Output.print (.ofHeader none)).captured =
    String.join (told.flatten.map (· ++ "\n") ++ sink.finish)

/-- **Lines.** What a new sink tells of a text that is printed in any pieces: each line as soon as it
ends, and the rest when the sink is dropped, which together is the text that is captured. Another way
of cutting the text makes no difference. -/
theorem printEach_tells (pieces : List Bytes) :
    Tells pieces (empty.printEach pieces).1 (empty.printEach pieces).2 ∧
    ∀ pieces' : List Bytes, pieces'.flatten = pieces.flatten →
      (empty.printEach pieces').1.flatten = (empty.printEach pieces).1.flatten ∧
      (empty.printEach pieces').2 = (empty.printEach pieces).2 := by
  obtain ⟨told, pending, drains⟩ := printEach_empty pieces
  have finish : (empty.printEach pieces).2.finish =
      if Bytes.lastLine pieces.flatten = [] then []
      else [Text.lossy (Bytes.lastLine pieces.flatten)] := by
    simp only [LineSink.finish, pending, List.isEmpty_iff]
  have unfinished : lineFeed ∉ (empty.printEach pieces).2.pending := by
    rw [pending]
    exact drains.not_mem
  refine ⟨⟨length_printEach _ _, ?_, pending, unfinished, ?_, finish, ?_⟩, ?_⟩
  · intro n
    rw [← printEach_take]
    exact (printEach_empty _).1
  · intro bytes
    obtain ⟨lines, rounds, told⟩ := print_drains unfinished bytes
    refine ⟨lines, rounds, ?_, told⟩
    rw [rounds.length_eq, List.count_append, List.count_eq_zero.2 unfinished, Nat.zero_add]
  · have captured := captured_foldl_print (o := .ofHeader none) rfl pieces
    have text : Text.lossy (pieces.foldl Output.print (.ofHeader none)).captured =
        Text.lossy pieces.flatten := congrArg Text.lossy captured
    rw [text, drains.lossy_eq, told, finish, String.join_append, List.map_map]
    -- An empty last line is not told, and adds nothing to the text.
    split
    case isTrue none =>
      rw [none]
      rfl
    case isFalse =>
      rw [String.join_cons, String.join_nil, String.append_empty]
      rfl
  · intro pieces' same
    obtain ⟨told', pending', -⟩ := printEach_empty pieces'
    rw [same] at told' pending'
    exact ⟨told'.trans told.symm, congrArg mk (pending'.trans pending.symm)⟩

example : empty.printEach [[0x61, 0xC3], [0xA9, 0x0A, 0xFF], [0x0A, 0xC3]] =
    ([[], ["a\u00E9"], ["\uFFFD"]], ⟨[0xC3]⟩) := by decide +kernel

end LineSink

end Embedder
