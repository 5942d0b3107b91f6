import ArtifactNames.Text.Printable
import ArtifactNames.Text.Utf8

/-! Text written as a quoted literal in a message: single quotes unless it holds one and no double
quote, with escapes for the quote, the backslash and unprintable code points. -/

namespace ArtifactNames.Text

def hexDigit (d : Nat) : Char := if d < 10 then Char.ofNat (0x30 + d) else Char.ofNat (0x57 + d)

/-- The lowest `width` hexadecimal digits of `n`, lower case, most significant first. -/
def hexPadded : Nat → Nat → List Char
  | 0, _ => []
  | width + 1, n => hexPadded width (n / 16) ++ [hexDigit (n % 16)]

def hex (width n : Nat) : String := String.ofList (hexPadded width n)

/-- The escape that writes `c` in hexadecimal. -/
def hexEscape (c : Nat) : String :=
  if c ≤ 0xFF then "\\x" ++ hex 2 c
  else if c ≤ 0xFFFF then "\\u" ++ hex 4 c
  else "\\U" ++ hex 8 c

def literalChar (quote c : Nat) : String :=
  if c == quote || c == 0x5C then String.ofList ['\\', Char.ofNat c]
  else if c == 0x09 then "\\t"
  else if c == 0x0A then "\\n"
  else if c == 0x0D then "\\r"
  else if isPrintable c then String.singleton (Char.ofNat c)
  else hexEscape c

def literal (cs : List Nat) : String :=
  let quote := if cs.contains 0x27 && !cs.contains 0x22 then 0x22 else 0x27
  let mark := String.singleton (Char.ofNat quote)
  mark ++ String.join (cs.map (literalChar quote)) ++ mark

example : literal (ofText "it's") = "\"it's\"" := by decide +kernel
example : literal [0x61, 0x0A, 0x7F] = "'a\\n\\x7f'" := by decide +kernel

end ArtifactNames.Text
