import ArtifactNames.Syntax.Compile
import ArtifactNames.Text.Utf8

/-! The source of a name and its buffer: text or bytes without NUL (a NUL wins over an earlier
surrogate), as UTF-8 or as they are, then the terminator. -/

namespace ArtifactNames

open Text Syntax

inductive Source where
  | text (chars : List Nat)
  | bytes (data : List UInt8)
  deriving DecidableEq, Repr

/-- Why a source cannot become a buffer, with the index of the offending code point or byte. -/
inductive InputFault where
  | nulCharacter (position : Nat)
  | nulByte (position : Nat)
  | unencodable (position : Nat)
  deriving DecidableEq, Repr

def InputFault.position : InputFault → Nat
  | .nulCharacter p => p
  | .nulByte p => p
  | .unencodable p => p

def InputFault.message : InputFault → String
  | .nulCharacter p => s!"source contains a NUL character at offset {p}"
  | .nulByte p => s!"source contains a NUL byte at offset {p}"
  | .unencodable _ => "source cannot be encoded as UTF-8: surrogates not allowed"

def Source.toBuffer : Source → Except InputFault (List UInt8)
  | .text cs =>
    match cs.findIdx? (· == 0) with
    | some i => .error (.nulCharacter i)
    | none =>
      match firstSurrogateRun cs with
      | some (i, _) => .error (.unencodable i)
      | none => .ok (encode cs ++ [terminator])
  | .bytes bs =>
    match bs.findIdx? (· == 0) with
    | some i => .error (.nulByte i)
    | none => .ok (bs ++ [terminator])

end ArtifactNames
