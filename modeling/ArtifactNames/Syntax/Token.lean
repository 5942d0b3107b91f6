/-! Tokens of the name grammar: words (keywords included), numbers, strings, the blank `_` and
punctuation, and an unscannable token where no token starts. -/

namespace ArtifactNames.Syntax

inductive Punct where
  | assign
  | semicolon
  | colon
  | scope
  | lbrace
  | rbrace
  | lparen
  | rparen
  | at
  | comma
  | dot
  | lbracket
  | rbracket
  deriving DecidableEq, Repr

inductive TokenKind where
  | word
  | number
  | string
  | blank
  | punct (p : Punct)
  | unscannable
  deriving DecidableEq, Repr

/-- A token: its kind, the offset of its first code point, and its code points. -/
structure Token where
  kind : TokenKind
  start : Nat
  text : List Nat
  deriving DecidableEq, Repr

namespace Token

def isPunct (t : Token) (p : Punct) : Bool := t.kind == .punct p

/-- A word spelled exactly `w`. -/
def isWord (t : Token) (w : String) : Bool :=
  t.kind == .word && t.text == w.toList.map Char.toNat

end Token

end ArtifactNames.Syntax
