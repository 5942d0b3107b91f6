/-! The syntax tree of a name: tagged trees, tokens, text and byte payloads, absent parts, and the
other values a hand-made tree can hold. -/

namespace ArtifactNames.Syntax

inductive Node where
  | tree (tag : String) (children : List Node)
  | token (kind : String) (text : List Nat)
  | text (chars : List Nat)
  | bytes (data : List UInt8)
  | absent
  | value (kind : String)
  deriving Repr, Inhabited

/-- How a node is named in a shape mismatch: a tree by its tag, a token by its type, anything else
by the name of its kind of value. -/
def Node.label : Node → String
  | .tree tag _ => tag
  | .token kind _ => kind
  | .text _ => "str"
  | .bytes _ => "bytes"
  | .absent => "NoneType"
  | .value kind => kind

end ArtifactNames.Syntax
