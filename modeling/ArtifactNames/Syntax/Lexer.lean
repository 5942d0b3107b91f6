import ArtifactNames.Syntax.Token
import ArtifactNames.Text.CharClass

/-! The scanner: each token is the longest run its class allows, the class set by its first code
point; `#` starts a comment to the end of the line, and `::` is one token. -/

namespace ArtifactNames.Syntax

open Text

def isBlankSpace (c : Nat) : Bool :=
  c == 0x20 || c == 0x09 || c == 0x0C || c == 0x0D || c == 0x0A

/-- Characters that may continue a word. -/
def isWordTail (c : Nat) : Bool := isWordChar c || c == 0x2D

/-- Characters that may continue a number. -/
def isNumberTail (c : Nat) : Bool := isWordChar c || c == 0x2E || c == 0x2D || c == 0x2B

/-- Length of the rest of a string after its opening quote, closing quote included; only `\"` and
`\\` may follow a backslash. -/
def stringRest : List Nat → Option Nat
  | [] => none
  | 0x22 :: _ => some 1
  | 0x5C :: c :: rest => if c == 0x22 || c == 0x5C then (stringRest rest).map (· + 2) else none
  | _ :: rest => (stringRest rest).map (· + 1)

def punctOf (c : Nat) : Option Punct :=
  if c == 0x3D then some .assign
  else if c == 0x3B then some .semicolon
  else if c == 0x7B then some .lbrace
  else if c == 0x7D then some .rbrace
  else if c == 0x28 then some .lparen
  else if c == 0x29 then some .rparen
  else if c == 0x40 then some .at
  else if c == 0x2C then some .comma
  else if c == 0x2E then some .dot
  else if c == 0x5B then some .lbracket
  else if c == 0x5D then some .rbracket
  else none

/-- The kind of the token that starts with `c`, and how many code points of `rest` it takes. -/
def lexeme (c : Nat) (rest : List Nat) : Option (TokenKind × Nat) :=
  if c == 0x22 then (stringRest rest).map fun n => (.string, n)
  else if c == 0x3A then
    if rest.head? == some 0x3A then some (.punct .scope, 1) else some (.punct .colon, 0)
  else if let some p := punctOf c then some (.punct p, 0)
  else if isDecimal c then some (.number, (rest.takeWhile isNumberTail).length)
  else if c == 0x5F && !(rest.head?.map isWordTail).getD false then some (.blank, 0)
  else if isWordChar c then some (.word, (rest.takeWhile isWordTail).length)
  else none

/-- Tokens of `cs`, which starts at offset `pos`, after those in `acc`. -/
def scanFrom (pos : Nat) (cs : List Nat) (acc : Array Token) : Array Token :=
  match cs with
  | [] => acc
  | c :: rest =>
    if isBlankSpace c then scanFrom (pos + 1) rest acc
    else if c == 0x23 then
      let n := (rest.takeWhile (· != 0x0A)).length
      scanFrom (pos + 1 + n) (rest.drop n) acc
    else match lexeme c rest with
      | some (kind, n) =>
        scanFrom (pos + 1 + n) (rest.drop n) (acc.push ⟨kind, pos, c :: rest.take n⟩)
      | none => acc.push ⟨.unscannable, pos, [c]⟩
termination_by cs.length
decreasing_by
  all_goals simp only [List.length_drop, List.length_cons]
  all_goals omega

/-- The tokens of a text; the last one is unscannable when the text has a code point where no token
can start. -/
def scan (cs : List Nat) : List Token := (scanFrom 0 cs #[]).toList

end ArtifactNames.Syntax
