import ArtifactNames.Syntax.Parser
import ArtifactNames.Syntax.Lines
import ArtifactNames.Text.Utf8

/-! From a buffer to a syntax tree: the bytes before the terminator are read leniently, scanned and
read as a name; a rejected text is reported at the offset where reading stopped. -/

namespace ArtifactNames.Syntax

open Text

/-- What the grammar makes of a text: its tree, or the span where reading stopped. -/
inductive Compiled where
  | tree (root : Node)
  | rejected (span : Span)

/-- The offset where reading stopped: that of a token, or at the end of the input that of the last
token (0 when there is none), whose line and column the end of the input borrows. -/
def Rejection.offset (toks : List Token) : Rejection → Nat
  | .at o => o
  | .atEnd =>
    match toks.getLast? with
    | some t => t.start
    | none => 0

def compileText (text : List Nat) : Compiled :=
  let toks := scan text
  match readName toks with
  | .ok node => .tree node
  | .error r => .rejected (linesAt text (r.offset toks))

/-- The byte that ends every buffer handed to the grammar; it cannot occur in the text itself. -/
def terminator : UInt8 := 0

/-- A buffer that does not end with the terminator. -/
inductive BufferFault where
  | unterminated
  deriving DecidableEq, Repr

def BufferFault.message : BufferFault → String
  | .unterminated => "compiler input must end with the terminator byte"

def compile (buffer : List UInt8) : Except BufferFault Compiled :=
  if buffer.getLast? == some terminator then .ok (compileText (decodeEscaped buffer.dropLast))
  else .error .unterminated

end ArtifactNames.Syntax
