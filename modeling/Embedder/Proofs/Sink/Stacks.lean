import Embedder.Proofs.Sink.Headers

namespace Embedder

/-!
# Stacks of header sinks

A sink that wraps another one passes on text with headers, and the inner sink looks for the starts of
lines in that text again. A header that ends no line does not add any, so the two agree after every
byte on whether a line starts, and the inner header ends up in front of the outer one.

* `HeaderSink.mark_mark`: marking twice is marking once, with both headers.
* `HeaderSink.printAll_inStep`: what one print leaves of a stack.
* `HeaderSink.printStack`, `HeaderSink.printStack_composes`: a text printed in any pieces.
-/

namespace HeaderSink

/-! ### Marking twice -/

section Marks

variable (header : Bytes)

/-- Whether a line starts after the bytes does not depend on the header. -/
theorem mark_snd_congr (other : Bytes) (atLineStart : Bool) (bytes : Bytes) :
    (mark header atLineStart bytes).2 = (mark other atLineStart bytes).2 := by
  induction bytes generalizing atLineStart with
  | nil => rfl
  | cons b bytes ih => exact ih _

/-- An empty header changes nothing. -/
theorem mark_empty (atLineStart : Bool) (bytes : Bytes) : (mark [] atLineStart bytes).1 = bytes := by
  induction bytes generalizing atLineStart with
  | nil => rfl
  | cons b bytes ih =>
    simp only [mark, ih, List.nil_append, ite_self]

/-- Within a line, bytes that do not end it pass as they are. -/
theorem mark_inside {bytes : Bytes} (inside : lineFeed ∉ bytes) :
    mark header false bytes = (bytes, false) := by
  induction bytes with
  | nil => rfl
  | cons b bytes ih =>
    rw [List.mem_cons, not_or] at inside
    have goesOn : decide (b = lineFeed) = false := decide_eq_false (Ne.symm inside.1)
    simp only [mark, goesOn, ih inside.2, Bool.false_and, Bool.false_eq_true, if_false]

/-- Bytes that begin a line and do not end it get the header once, at their front. -/
theorem mark_start {bytes : Bytes} (inside : lineFeed ∉ bytes) (full : bytes ≠ []) :
    mark header true bytes = (header ++ bytes, false) := by
  obtain ⟨b, rest, rfl⟩ := List.exists_cons_of_ne_nil full
  rw [List.mem_cons, not_or] at inside
  have goesOn : b ≠ lineFeed := Ne.symm inside.1
  simp only [mark, goesOn, decide_false, mark_inside header inside.2, Bool.true_and, ne_eq,
    not_false_eq_true, decide_true, if_true]

end Marks

/-- **Marking twice.** Marking with a header that ends no line, and the result with another header, is
marking with the two as one, the later one in front. By induction on the bytes: at the start of a
line the outer header comes before the byte, and the line has begun for the inner sink with it. -/
theorem mark_mark (inner : Bytes) {outer : Bytes} (oneLine : lineFeed ∉ outer) (atLineStart : Bool)
    (bytes : Bytes) :
    mark inner atLineStart (mark outer atLineStart bytes).1 =
      mark (inner ++ outer) atLineStart bytes := by
  induction bytes generalizing atLineStart with
  | nil => rfl
  | cons b bytes ih =>
    by_cases ends : b = lineFeed
    · -- An empty line, or the end of one, is no place for a header.
      subst ends
      simp only [mark, decide_true, ne_eq, not_true, decide_false, Bool.and_false, Bool.false_eq_true,
        if_false, ih]
    cases atLineStart with
    | false =>
      simp only [mark, ends, decide_false, Bool.false_and, Bool.false_eq_true, if_false, ih]
    | true =>
      have marked (header : Bytes) : mark header true (b :: bytes) =
          (header ++ b :: (mark header false bytes).1, (mark header false bytes).2) := by
        simp only [mark, ends, decide_false, ne_eq, not_false_eq_true, decide_true, Bool.and_true,
          if_true]
      -- The header of the outer sink begins the line, so the inner one puts its own before it.
      have begun : mark inner true (outer ++ [b]) = (inner ++ (outer ++ [b]), false) := by
        apply mark_start
        · simp only [List.mem_append, List.mem_singleton, oneLine, Ne.symm ends, or_self,
            not_false_eq_true]
        · simp
      rw [marked outer, marked (inner ++ outer), ← ih false]
      show mark inner true (outer ++ ([b] ++ (mark outer false bytes).1)) = _
      rw [← List.append_assoc, mark_append, begun]
      simp only [List.append_assoc, List.singleton_append]

/-! ### Stacks in step -/

/-- A stack of sinks that agree on whether a line starts. -/
def inStep (atLineStart : Bool) (headers : List Bytes) : List HeaderSink :=
  headers.map (⟨·, atLineStart⟩)

/-- One print leaves the sinks of a stack in step, and passes on what one sink would that has their
headers, the innermost in front. Only the innermost header may end lines: nothing looks for the starts
of lines in what it passes on. By induction on the stack, from the outermost sink inwards. -/
theorem printAll_inStep (atLineStart : Bool) {headers : List Bytes}
    (oneLine : ∀ header ∈ headers.dropLast, lineFeed ∉ header) (bytes : Bytes) :
    printAll (inStep atLineStart headers) bytes =
      ((mark headers.reverse.flatten atLineStart bytes).1,
        inStep (mark headers.reverse.flatten atLineStart bytes).2 headers) := by
  induction headers generalizing bytes with
  | nil =>
    show (bytes, []) = _
    rw [List.reverse_nil, List.flatten_nil, mark_empty]
    rfl
  | cons outer headers ih =>
    have all : (outer :: headers).reverse.flatten = headers.reverse.flatten ++ outer := by
      rw [List.reverse_cons, List.flatten_append, List.flatten_singleton]
    show ((printAll (inStep atLineStart headers) (mark outer atLineStart bytes).1).1,
      (⟨outer, (mark outer atLineStart bytes).2⟩ : HeaderSink) ::
        (printAll (inStep atLineStart headers) (mark outer atLineStart bytes).1).2) = _
    rw [all]
    -- The innermost header may end lines, so it is left out of the premise and treated on its
    -- own.
    by_cases innermost : headers = []
    · subst innermost
      rfl
    · rw [List.dropLast_cons_of_ne_nil innermost, List.forall_mem_cons] at oneLine
      rw [ih oneLine.2, mark_mark _ oneLine.1, mark_snd_congr outer (headers.reverse.flatten ++ outer)]
      rfl

/-! ### Printing through a stack -/

/-- What each of the prints passes on through a stack of sinks, and the stack after the last one. -/
def printStack : List HeaderSink → List Bytes → List Bytes × List HeaderSink
  | ss, [] => ([], ss)
  | ss, bytes :: more =>
    let (out, after) := printStack (printAll ss bytes).2 more
    ((printAll ss bytes).1 :: out, after)

/-- Prints through a stack in step, one by one, and the stack after them. By induction on the prints:
the sinks are in step again where the next one begins. -/
theorem printStack_inStep (atLineStart : Bool) {headers : List Bytes}
    (oneLine : ∀ header ∈ headers.dropLast, lineFeed ∉ header) (pieces : List Bytes) :
    let one := printEach ⟨headers.reverse.flatten, atLineStart⟩ pieces
    printStack (inStep atLineStart headers) pieces =
      (one.1, inStep one.2.atLineStart headers) := by
  induction pieces generalizing atLineStart with
  | nil => rfl
  | cons bytes more ih =>
    have next := ih (mark headers.reverse.flatten atLineStart bytes).2
    simp only [printStack, printAll_inStep atLineStart oneLine, next]
    rfl

/-- **Stacks.** A new sink whose header ends no line, around a new sink with any header, passes on for
each print what one sink does that has the inner header and the outer one behind it. So does a stack
of any height, with all its headers, the innermost in front, if no header but the innermost ends a
line. -/
theorem printStack_composes :
    (∀ inner outer : Bytes, lineFeed ∉ outer → ∀ pieces : List Bytes,
      (printStack [ofHeader outer, ofHeader inner] pieces).1 =
        ((ofHeader (inner ++ outer)).printEach pieces).1) ∧
    (∀ headers : List Bytes, (∀ header ∈ headers.dropLast, lineFeed ∉ header) →
      ∀ pieces : List Bytes,
        (printStack (headers.map ofHeader) pieces).1 =
          ((ofHeader headers.reverse.flatten).printEach pieces).1) := by
  have composed (headers : List Bytes) (oneLine : ∀ header ∈ headers.dropLast, lineFeed ∉ header)
      (pieces : List Bytes) : (printStack (headers.map ofHeader) pieces).1 =
        ((ofHeader headers.reverse.flatten).printEach pieces).1 :=
    congrArg Prod.fst (printStack_inStep true oneLine pieces)
  refine ⟨?_, composed⟩
  intro inner outer oneLine pieces
  have both : [outer, inner].reverse.flatten = inner ++ outer := by simp
  rw [← both]
  apply composed [outer, inner]
  intro header mem
  rw [List.mem_singleton.mp mem]
  exact oneLine

example : (printStack [ofHeader [0x3E], ofHeader [], ofHeader [0x41]] [[], [0x61], [0x0A], [0x62]]).1 =
    [[], [0x41, 0x3E, 0x61], [0x0A], [0x41, 0x3E, 0x62]] := by decide

end HeaderSink

end Embedder
