/-! Positions in the text of a name: a 1-based line and column and a 0-based offset, each maybe
unknown. Offsets count code points, and only the line feed starts a line. -/

namespace ArtifactNames

structure Span where
  line : Option Int := none
  column : Option Int := none
  offset : Option Int := none
  deriving DecidableEq, Repr

namespace Span

def unknown : Span := {}

def isKnown (s : Span) : Bool := s.line.isSome

/-- `L:C`, or `L` without a column, or `<unknown>` without a line. -/
def render (s : Span) : String :=
  match s.line, s.column with
  | none, _ => "<unknown>"
  | some l, none => toString l
  | some l, some c => toString l ++ ":" ++ toString c

def lineFeed : Nat := 0x0A

/-- Number of code points after the last line feed of `cs` (all of them when there is none). -/
def columnWidth (cs : List Nat) : Nat := (cs.reverse.takeWhile (· != lineFeed)).length

/-- The span of offset `o` in `text`: one line more than the line feeds before `o`, and the column
counted from the last of them. -/
def ofOffset (text : List Nat) (o : Nat) : Span :=
  let before := text.take o
  { line := some (1 + before.count lineFeed)
    column := some (1 + columnWidth before)
    offset := some o }

end Span

end ArtifactNames
