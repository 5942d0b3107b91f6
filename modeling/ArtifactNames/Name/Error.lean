import ArtifactNames.Source.Input
import ArtifactNames.Source.Span
import ArtifactNames.Text.Literal
import ArtifactNames.Text.Utf8

/-! Why reading a name fails, and the message of each failure: an invalid source, a rejected text,
a payload that is not UTF-8, refused storage or stack, a form with no meaning yet, or a bad tree. -/

namespace ArtifactNames

open Text

/-- A text payload that is not UTF-8: undecodable bytes, or code points with a surrogate run. -/
inductive TextFault where
  | undecodable (fault : DecodeError)
  | unencodable (start length first : Nat)
  deriving DecidableEq, Repr

/-- The codec's account of the fault: one byte or character by value, a longer run by its range. -/
def TextFault.detail : TextFault → String
  | .undecodable e =>
    if e.width == 1 then
      s!"'utf-8' codec can't decode byte 0x{hex 2 e.firstByte.toNat} in position {e.start}: {e.reason.describe}"
    else
      s!"'utf-8' codec can't decode bytes in position {e.start}-{e.start + e.width - 1}: {e.reason.describe}"
  | .unencodable start length first =>
    if length == 1 then
      s!"'utf-8' codec can't encode character '{hexEscape first}' in position {start}: surrogates not allowed"
    else
      s!"'utf-8' codec can't encode characters in position {start}-{start + length - 1}: surrogates not allowed"

/-- Which storage could not be had. -/
inductive AllocationKind where
  | collection
  | node
  | stack
  deriving DecidableEq, Repr

def AllocationKind.what : AllocationKind → String
  | .collection => "collection growth"
  | .node => "node allocation"
  | .stack => "tree walk (nesting too deep)"

/-- Forms the grammar reads but names cannot hold yet. -/
inductive Construct where
  | outputIndex
  | computedNamespace
  deriving DecidableEq, Repr

def Construct.describe : Construct → String
  | .outputIndex => "explicit output-selector index"
  | .computedNamespace => "namespace computed from the output of another name"

/-- A tree that does not have the grammar's shape: a node of the wrong kind (by its label), or a
tree with the wrong number of children. -/
inductive Mismatch where
  | unexpected (expected got : String)
  | arity (tag : String) (count expected : Nat)
  deriving DecidableEq, Repr

def Mismatch.message : Mismatch → String
  | .unexpected expected got =>
    s!"name tree mismatch: expected {expected}, got {literal (ofText got)}"
  | .arity tag count expected =>
    s!"name tree mismatch: {literal (ofText tag)} has {count} children, expected {expected}"

inductive ParseError where
  | invalidInput (fault : InputFault)
  | rejected (span : Span)
  | invalidText (fault : TextFault)
  | outOfMemory (kind : AllocationKind)
  | notSupported (construct : Construct)
  | malformed (mismatch : Mismatch)
  deriving DecidableEq, Repr

def ParseError.message : ParseError → String
  | .invalidInput f => f.message
  | .rejected span => if span.isKnown then "syntax error at " ++ span.render else "syntax error"
  | .invalidText f => "text payload is not valid UTF-8: " ++ f.detail
  | .outOfMemory k => "out of memory during " ++ k.what
  | .notSupported c => "not supported: " ++ c.describe
  | .malformed m => m.message

end ArtifactNames
