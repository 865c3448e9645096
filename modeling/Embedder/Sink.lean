import Embedder.Text.Utf8

namespace Embedder

/-!
# Print sinks

What becomes of the bytes that guests print.

* `HeaderSink.print`: a header in front of every line that is not empty.
* `HeaderSink.printAll`: sinks stacked on one another.
* `LineSink.print`, `LineSink.finish`: whole lines of text.
-/

/-- The byte that ends a line. -/
def lineFeed : UInt8 := 0x0A

/-! ### Headers -/

/-- A sink that passes bytes on with a header in front of the first byte of every line. -/
structure HeaderSink where
  header : Bytes
  atLineStart : Bool
  deriving DecidableEq, Repr

namespace HeaderSink

/-- A sink that has passed nothing on yet. -/
def ofHeader (header : Bytes) : HeaderSink :=
  ⟨header, true⟩

/-- What is passed on for the bytes of one print, and whether a line starts after them. An empty
line gets no header. -/
def mark (header : Bytes) : (atLineStart : Bool) → Bytes → Bytes × Bool
  | atLineStart, [] => ([], atLineStart)
  | atLineStart, b :: bs =>
    let (rest, after) := mark header (b = lineFeed) bs
    (if atLineStart && b ≠ lineFeed then header ++ b :: rest else b :: rest, after)

/-- What one print passes on, and the sink after it. -/
def print (s : HeaderSink) (bytes : Bytes) : Bytes × HeaderSink :=
  let (out, atLineStart) := mark s.header s.atLineStart bytes
  (out, { s with atLineStart })

/-- What a stack of sinks, the outermost first, passes on for one print. -/
def printAll : List HeaderSink → Bytes → Bytes × List HeaderSink
  | [], bytes => (bytes, [])
  | s :: ss, bytes =>
    let (out, s) := s.print bytes
    let (out, ss) := printAll ss out
    (out, s :: ss)

end HeaderSink

/-! ### Lines -/

/-- A sink that waits for the ends of lines: the bytes of the line that has none yet. -/
structure LineSink where
  pending : Bytes
  deriving DecidableEq, Repr

namespace LineSink

/-- A sink to which nothing was printed. -/
def empty : LineSink :=
  ⟨[]⟩

/-- The lines that end within the bytes, the first one continuing `line`, and the unfinished rest;
a line is collected in reverse. -/
def split : (line : Bytes) → Bytes → List Bytes × Bytes
  | line, [] => ([], line.reverse)
  | line, b :: bs =>
    if b = lineFeed then
      let (lines, rest) := split [] bs
      (line.reverse :: lines, rest)
    else split (b :: line) bs

/-- The lines that one print completes, and the sink after it. -/
def print (s : LineSink) (bytes : Bytes) : List String × LineSink :=
  let (lines, pending) := split s.pending.reverse bytes
  (lines.map Text.lossy, { pending })

/-- The line that dropping the sink gives, if one is pending. -/
def finish (s : LineSink) : List String :=
  if s.pending.isEmpty then [] else [Text.lossy s.pending]

end LineSink

end Embedder
