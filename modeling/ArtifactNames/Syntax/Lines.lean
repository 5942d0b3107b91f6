import ArtifactNames.Syntax.Lexer
import ArtifactNames.Source.Span

/-! The lexer's line counter. It is fed every piece of text the lexer matches, counts line feeds
only in the pieces of terminals whose pattern may hold one, and gives a token or a failure the line
and column it has reached. -/

namespace ArtifactNames.Syntax

open Text

structure LineCounter where
  line : Nat
  lineStart : Nat
  charPos : Nat
  deriving DecidableEq, Repr

namespace LineCounter

def start : LineCounter := ⟨1, 0, 0⟩

def column (c : LineCounter) : Nat := c.charPos - c.lineStart + 1

/-- The index of the last line feed of a piece. -/
def lastLineFeed (piece : List Nat) : Nat := piece.length - 1 - piece.reverse.idxOf Span.lineFeed

/-- Feeds a matched piece; its line feeds are looked for only when `testNewline` is set. -/
def feed (c : LineCounter) (piece : List Nat) (testNewline : Bool) : LineCounter :=
  let newlines := if testNewline then piece.count Span.lineFeed else 0
  if newlines = 0 then { c with charPos := c.charPos + piece.length }
  else ⟨c.line + newlines, c.charPos + lastLineFeed piece + 1, c.charPos + piece.length⟩

def span (c : LineCounter) : Span := ⟨some c.line, some c.column, some c.charPos⟩

end LineCounter

/-- Whether the terminal of a token kind is tested for line feeds: the lexer tests a terminal whose
pattern names a line feed or a negated class, which holds of identifiers and strings. -/
def TokenKind.testsLineFeeds : TokenKind → Bool
  | .word => true
  | .string => true
  | _ => false

/-- The piece the lexer matches at a code point `c` before `rest`: how many code points of `rest`
it takes, and whether it is tested for line feeds. A run of blanks and a comment are pieces of
their own; where no token starts, the piece is that code point. -/
def pieceAt (c : Nat) (rest : List Nat) : Nat × Bool :=
  if isBlankSpace c then ((rest.takeWhile isBlankSpace).length, true)
  else if c == 0x23 then ((rest.takeWhile (· != 0x0A)).length, true)
  else match lexeme c rest with
    | some (kind, n) => (n, kind.testsLineFeeds)
    | none => (0, false)

/-- The counter where the lexer reaches offset `o` of `cs`, which starts at offset `pos`: each piece
before `o` is fed whole, and a piece that `o` falls inside is fed up to `o`. -/
def linesFrom (o : Nat) (c : LineCounter) (pos : Nat) (cs : List Nat) : LineCounter :=
  match cs with
  | [] => c
  | x :: rest =>
    if o ≤ pos then c
    else
      let (n, test) := pieceAt x rest
      if o < pos + 1 + n then c.feed ((x :: rest).take (o - pos)) test
      else linesFrom o (c.feed (x :: rest.take n) test) (pos + 1 + n) (rest.drop n)
termination_by cs.length
decreasing_by
  simp only [List.length_drop, List.length_cons]
  omega

/-- The line and column of offset `o` of a text, as the lexer's counter has them there. -/
def linesAt (text : List Nat) (o : Nat) : Span := (linesFrom o LineCounter.start 0 text).span

end ArtifactNames.Syntax
