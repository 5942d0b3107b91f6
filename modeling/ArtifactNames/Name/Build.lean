import ArtifactNames.Name.Basic
import ArtifactNames.Name.Error
import ArtifactNames.Storage.Allocator
import ArtifactNames.Syntax.Node
import ArtifactNames.Text.Utf8

/-! Building a name from its syntax tree, depth first and in source order. Each list is reserved
for its length, each declaration, input substitution and nested name goes into a node of its own,
and texts are copied; every storage call is recorded, and a step past the stack bound ends the walk. -/

namespace ArtifactNames

open Syntax Text Storage

inductive CollectionKind where
  | declarations
  | inputs
  | parameters
  deriving DecidableEq, Repr

inductive NodeKind where
  | declaration
  | substitution
  | nestedName
  deriving DecidableEq, Repr

inductive TextKind where
  | identifier
  | parameterName
  | parameterValue
  deriving DecidableEq, Repr

/-- A call on the storage policy. -/
inductive FactoryCall where
  | collection (kind : CollectionKind) (count : Nat)
  | node (kind : NodeKind)
  | text (kind : TextKind) (text : String)
  deriving DecidableEq, Repr

/-- The call stack of a walk: the deepest frame allowed, the depth of the frame that starts the
walk, whether each storage call passes through one more frame that records it, and how many
frames deep an allocator request goes from the call that asks. -/
structure Frames where
  limit : Nat
  entry : Nat
  recorded : Bool
  requestDepth : Nat
  deriving DecidableEq, Repr

structure WalkState where
  allocator : Allocator
  trace : Array FactoryCall

abbrev Walk := ExceptT ParseError (StateM WalkState)

namespace Walk

/-- A frame at `depth`: out of memory for the tree walk when it is past the bound. -/
def reach (frames : Frames) (depth : Nat) : Walk Unit :=
  if depth ≤ frames.limit then pure () else throw (.outOfMemory .stack)

def record (call : FactoryCall) : Walk Unit :=
  modify fun s => { s with trace := s.trace.push call }

/-- One request to the allocator: whether it is granted. -/
def request : Walk Bool := do
  let s ← get
  let (granted, allocator) := s.allocator.request
  set { s with allocator := allocator }
  pure granted

def orFail {α : Type} : Except ParseError α → Walk α
  | .ok a => pure a
  | .error e => throw e

/-- Enters the storage policy from a builder frame at depth `d`, recording the call; gives the
depth of the policy's frame. -/
def enterPolicy (frames : Frames) (d : Nat) (call : FactoryCall) : Walk Nat := do
  if frames.recorded then
    reach frames (d + 1)
    record call
    reach frames (d + 2)
    pure (d + 2)
  else
    reach frames (d + 1)
    record call
    pure (d + 1)

/-- Reserves a list of `count` items: an empty list, then room for `count` items. -/
def collection (frames : Frames) (d : Nat) (kind : CollectionKind) (count : Nat) : Walk Unit := do
  let p ← enterPolicy frames d (.collection kind count)
  reach frames (p + 3)
  if 0 < count then
    reach frames (p + 2 + frames.requestDepth)
    unless (← request) do throw (.outOfMemory .collection)

/-- Puts a built part into a node of its own. -/
def node (frames : Frames) (d : Nat) (kind : NodeKind) : Walk Unit := do
  let p ← enterPolicy frames d (.node kind)
  reach frames (p + 1 + frames.requestDepth)
  unless (← request) do throw (.outOfMemory .node)
  reach frames (p + 3)

def copy (frames : Frames) (d : Nat) (kind : TextKind) (text : String) : Walk Unit := do
  let _ ← enterPolicy frames d (.text kind text)

end Walk

open Walk

def mismatch (expected : String) (node : Node) : ParseError :=
  .malformed (.unexpected expected node.label)

def arity (tag : String) (count expected : Nat) : ParseError :=
  .malformed (.arity tag count expected)

/-- A payload of the given token type: such a token, or any bare text or bytes. -/
def payloadOf (kind : String) (node : Node) : Except ParseError Node :=
  match node with
  | .token k _ => if k == kind then .ok node else .error (mismatch kind node)
  | .text _ | .bytes _ => .ok node
  | other => .error (mismatch kind other)

/-- An optional payload: absent, or a payload of the given token type. -/
def optionalPayloadOf (kind : String) : Node → Except ParseError (Option Node)
  | .absent => .ok none
  | node => (payloadOf kind node).map some

/-- The text of a payload: bytes must decode as UTF-8, text must encode as UTF-8. -/
def payloadChars (node : Node) : Except ParseError (List Nat) :=
  let encodable (cs : List Nat) : Except ParseError (List Nat) :=
    match firstSurrogateRun cs with
    | some (start, length) => .error (.invalidText (.unencodable start length (cs.getD start 0)))
    | none => .ok cs
  match node with
  | .token _ cs => encodable cs
  | .text cs => encodable cs
  | .bytes bs =>
    match decodeStrict bs with
    | .ok cs => .ok cs
    | .error e => .error (.invalidText (.undecodable e))
  | other => .error (mismatch "text payload" other)

/-- Removes one escaping backslash before `"` or `\`. -/
def unescape : List Nat → List Nat
  | 0x5C :: c :: rest => if c == 0x22 || c == 0x5C then c :: unescape rest else 0x5C :: unescape (c :: rest)
  | c :: rest => c :: unescape rest
  | [] => []

/-- The value of a string token: without its first and last code point, and unescaped. -/
def unquote (cs : List Nat) : List Nat := unescape (cs.drop 1).dropLast

/-- Whether a backslash escape occurs in the text. -/
def hasEscape : List Nat → Bool
  | 0x5C :: c :: rest => c == 0x22 || c == 0x5C || hasEscape (c :: rest)
  | _ :: rest => hasEscape rest
  | [] => false

/-- Copies an identifier from a builder frame at depth `d`. -/
def identifier (frames : Frames) (d : Nat) (payload : Node) : Walk String := do
  reach frames d
  reach frames (d + 1)
  let text := toText (← orFail (payloadChars payload))
  copy frames d .identifier text
  reach frames (d + 2)
  pure text

/-- The binding of a declaration, from the tag and children of its tree. -/
def buildBinding (frames : Frames) (d : Nat) (tag : String) (children : List Node) :
    Walk (Option String) := do
  reach frames d
  reach frames (d + 2)
  if tag == "unbound" then pure none
  else if tag == "bound" then
    reach frames (d + 3)
    match children with
    | [ident] => some <$> identifier frames (d + 1) (← orFail (payloadOf "IDENT" ident))
    | _ => throw (arity "bound" children.length 1)
  else throw (mismatch "binding" (.tree tag children))

/-- The items of a parameter list, each `param` tree a name and a value. -/
def buildParameterItems (frames : Frames) (d : Nat) : List Node → Walk (List Parameter)
  | [] => pure []
  | item :: rest => do
    reach frames (d + 3)
    match item with
    | .tree "param" children =>
      reach frames (d + 3)
      match children with
      | [key, value] =>
        let valueKind : Bool := match value with
          | .token k _ => k == "IDENT" || k == "NUMBER" || k == "STRING"
          | .text _ | .bytes _ => true
          | _ => false
        unless valueKind do throw (mismatch "parameter value" value)
        let key ← orFail (payloadOf "IDENT" key)
        reach frames (d + 1)
        let name := toText (← orFail (payloadChars key))
        copy frames d .parameterName name
        reach frames (d + 2)
        let chars ← orFail (payloadChars value)
        let text ← match value with
          | .token "STRING" _ =>
            if hasEscape ((chars.drop 1).dropLast) then reach frames (d + 3)
            pure (toText (unquote chars))
          | _ => pure (toText chars)
        copy frames d .parameterValue text
        reach frames (d + 2)
        let params ← buildParameterItems frames d rest
        pure (⟨name, text⟩ :: params)
      | _ => throw (arity "param" children.length 2)
    | other => throw (mismatch "param" other)

/-- Parameters from the children of a `params` tree. -/
def buildParameters (frames : Frames) (d : Nat) (children : List Node) : Walk (List Parameter) := do
  reach frames d
  reach frames (d + 3)
  match children with
  | [chain] =>
    match chain with
    | .absent =>
      collection frames d .parameters 0
      reach frames (d + 1)
      pure []
    | .tree "param_list" items =>
      collection frames d .parameters items.length
      let params ← buildParameterItems frames d items
      reach frames (d + 1)
      pure params
    | other => throw (mismatch "param_list" other)
  | _ => throw (arity "params" children.length 1)

/-- No parameters: an empty parameter list. -/
def buildNoParameters (frames : Frames) (d : Nat) : Walk (List Parameter) := do
  reach frames d
  reach frames (d + 1)
  collection frames d .parameters 0
  reach frames (d + 1)
  pure []

/-- A parameterized id from the children of its tree. The parameters are checked before the
identifier, and the identifier is copied before the parameters are built. -/
def buildParameterizedId (frames : Frames) (d : Nat) (children : List Node) :
    Walk ParameterizedId := do
  reach frames d
  reach frames (d + 3)
  match children with
  | [ident, params] =>
    match params with
    | .absent =>
      let id ← identifier frames (d + 1) (← orFail (payloadOf "IDENT" ident))
      pure ⟨id, ← buildNoParameters frames (d + 1)⟩
    | .tree "params" pchildren =>
      let id ← identifier frames (d + 1) (← orFail (payloadOf "IDENT" ident))
      pure ⟨id, ← buildParameters frames (d + 1) pchildren⟩
    | other => throw (mismatch "params" other)
  | _ => throw (arity "parameterized_id" children.length 2)

/-- A namespace from the tag and children of its tree; a computed namespace has no meaning yet. -/
def buildNamespace (frames : Frames) (d : Nat) (tag : String) (children : List Node) :
    Walk Namespace := do
  reach frames d
  reach frames (d + 2)
  if tag == "builtin_namespace" then
    reach frames (d + 3)
    match children with
    | [pid] =>
      match pid with
      | .tree "parameterized_id" pchildren => .builtin <$> buildParameterizedId frames (d + 1) pchildren
      | other => throw (mismatch "parameterized_id" other)
    | _ => throw (arity "builtin_namespace" children.length 1)
  else if tag == "named_namespace" then throw (.notSupported .computedNamespace)
  else throw (mismatch "namespace" (.tree tag children))

/-- No inputs: an empty input list. -/
def buildNoInputs (frames : Frames) (d : Nat) : Walk (List Input) := do
  reach frames d
  reach frames (d + 1)
  collection frames d .inputs 0
  reach frames (d + 1)
  pure []

mutual

/-- A name from the children of a `name` tree. -/
def buildName (frames : Frames) (d : Nat) (children : List Node) : Walk Name := do
  reach frames d
  reach frames (d + 3)
  match children with
  | [decls, sub] =>
    match decls, sub with
    | .tree "declarations" items, .tree "substitution" parts =>
      let ds ← buildDeclarations frames (d + 1) items
      let term ← buildSubstitution frames (d + 1) parts
      pure ⟨ds, term⟩
    | .tree "declarations" _, other => throw (mismatch "substitution" other)
    | other, _ => throw (mismatch "declarations" other)
  | _ => throw (arity "name" children.length 2)
termination_by 2 * sizeOf children

def buildDeclarations (frames : Frames) (d : Nat) (items : List Node) : Walk (List Declaration) := do
  reach frames d
  reach frames (d + 2)
  collection frames d .declarations items.length
  let ds ← buildDeclarationItems frames d items
  reach frames (d + 1)
  pure ds
termination_by 2 * sizeOf items + 1

def buildDeclarationItems (frames : Frames) (d : Nat) : List Node → Walk (List Declaration)
  | [] => pure []
  | item :: rest => do
    reach frames (d + 3)
    match item with
    | .tree "declaration" children =>
      let decl ← buildDeclaration frames (d + 1) children
      node frames d .declaration
      reach frames (d + 2)
      let ds ← buildDeclarationItems frames d rest
      pure (decl :: ds)
    | other => throw (mismatch "declaration" other)
termination_by items => 2 * sizeOf items

def buildDeclaration (frames : Frames) (d : Nat) (children : List Node) : Walk Declaration := do
  reach frames d
  reach frames (d + 3)
  match children with
  | [binding, sub] =>
    match binding, sub with
    | .tree btag bchildren, .tree "substitution" parts =>
      let var ← buildBinding frames (d + 1) btag bchildren
      let val ← buildSubstitution frames (d + 1) parts
      pure ⟨var, val⟩
    | .tree _ _, other => throw (mismatch "substitution" other)
    | other, _ => throw (mismatch "binding" other)
  | _ => throw (arity "declaration" children.length 2)
termination_by 2 * sizeOf children

/-- A substitution from the children of its tree: a reference, then inputs when a `multiary` tree
follows. -/
def buildSubstitution (frames : Frames) (d : Nat) (parts : List Node) : Walk Substitution := do
  reach frames d
  reach frames (d + 3)
  match parts with
  | [ref] =>
    match ref with
    | .tree tag children =>
      let r ← buildRef frames (d + 1) tag children
      pure ⟨r, ← buildNoInputs frames (d + 1)⟩
    | other => throw (mismatch "name reference" other)
  | [ref, inputs] =>
    match ref, inputs with
    | .tree tag children, .absent =>
      let r ← buildRef frames (d + 1) tag children
      pure ⟨r, ← buildNoInputs frames (d + 1)⟩
    | .tree tag children, .tree "multiary" mchildren =>
      let r ← buildRef frames (d + 1) tag children
      pure ⟨r, ← buildInputs frames (d + 1) mchildren⟩
    | .tree _ _, other => throw (mismatch "multiary" other)
    | other, _ => throw (mismatch "name reference" other)
  | _ => throw (mismatch "substitution with 1 or 2 parts" (.tree "substitution" parts))
termination_by 2 * sizeOf parts

/-- A reference from the tag and children of its tree. -/
def buildRef (frames : Frames) (d : Nat) (tag : String) (children : List Node) : Walk Ref := do
  reach frames d
  reach frames (d + 2)
  if tag == "atomic_ref" then
    reach frames (d + 3)
    match children with
    | [ns, pid] =>
      match ns, pid with
      | .absent, .tree "parameterized_id" pchildren =>
        pure (.atomic none (← buildParameterizedId frames (d + 1) pchildren))
      | .tree ntag nchildren, .tree "parameterized_id" pchildren =>
        let n ← buildNamespace frames (d + 1) ntag nchildren
        pure (.atomic (some n) (← buildParameterizedId frames (d + 1) pchildren))
      | .absent, other => throw (mismatch "parameterized_id" other)
      | .tree _ _, other => throw (mismatch "parameterized_id" other)
      | other, _ => throw (mismatch "namespace" other)
    | _ => throw (arity "atomic_ref" children.length 2)
  else if tag == "variable_ref" || tag == "resolved_ref" then
    match children with
    | [ident] =>
      let text ← identifier frames (d + 1) (← orFail (payloadOf "IDENT" ident))
      pure (if tag == "variable_ref" then .var text else .resolved text)
    | _ => throw (arity tag children.length 1)
  else if tag == "nested_ref" then
    reach frames (d + 3)
    match children with
    | [inner] =>
      match inner with
      | .tree "name" nchildren =>
        let n ← buildName frames (d + 1) nchildren
        node frames d .nestedName
        pure (.nested n)
      | other => throw (mismatch "name" other)
    | _ => throw (arity "nested_ref" children.length 1)
  else throw (mismatch "name reference" (.tree tag children))
termination_by 2 * sizeOf children

/-- Inputs from the children of a `multiary` tree; an explicit output index has no meaning yet. -/
def buildInputs (frames : Frames) (d : Nat) (children : List Node) : Walk (List Input) := do
  reach frames d
  reach frames (d + 3)
  match children with
  | [index, specs] =>
    match index, specs with
    | .absent, .absent =>
      reach frames (d + 1)
      collection frames d .inputs 0
      reach frames (d + 1)
      pure []
    | .absent, .tree "spec_list" items =>
      reach frames (d + 2)
      collection frames d .inputs items.length
      let inputs ← buildInputItems frames d items
      reach frames (d + 1)
      pure inputs
    | .tree "graph_index" _, .absent => throw (.notSupported .outputIndex)
    | .tree "graph_index" _, .tree "spec_list" _ => throw (.notSupported .outputIndex)
    | .absent, other => throw (mismatch "spec_list" other)
    | .tree "graph_index" _, other => throw (mismatch "spec_list" other)
    | other, _ => throw (mismatch "graph_index" other)
  | _ => throw (arity "multiary" children.length 2)
termination_by 2 * sizeOf children

def buildInputItems (frames : Frames) (d : Nat) : List Node → Walk (List Input)
  | [] => pure []
  | item :: rest => do
    reach frames (d + 3)
    match item with
    | .tree "substitution_spec" children =>
      let input ← buildInput frames (d + 1) children
      reach frames (d + 2)
      let inputs ← buildInputItems frames d rest
      pure (input :: inputs)
    | other => throw (mismatch "substitution_spec" other)
termination_by items => 2 * sizeOf items

/-- An input from the children of a `substitution_spec` tree. -/
def buildInput (frames : Frames) (d : Nat) (children : List Node) : Walk Input := do
  reach frames d
  reach frames (d + 3)
  match children with
  | [inputId, output] =>
    let id ← orFail (optionalPayloadOf "IDENT" inputId)
    match output with
    | .tree "output_ref" ochildren =>
      let id ← match id with
        | some p => some <$> identifier frames (d + 1) p
        | none => pure none
      pure ⟨id, ← buildOutputRef frames (d + 1) ochildren⟩
    | other => throw (mismatch "output_ref" other)
  | _ => throw (arity "substitution_spec" children.length 2)
termination_by 2 * sizeOf children

/-- An output reference from the children of an `output_ref` tree; the substitution is put into a
node of its own before the output id is copied. -/
def buildOutputRef (frames : Frames) (d : Nat) (children : List Node) : Walk OutputRef := do
  reach frames d
  reach frames (d + 3)
  match children with
  | [sub, outputId] =>
    match sub with
    | .tree "substitution" parts =>
      let out ← orFail (optionalPayloadOf "IDENT" outputId)
      let s ← buildSubstitution frames (d + 1) parts
      node frames d .substitution
      let out ← match out with
        | some p => some <$> identifier frames (d + 1) p
        | none => pure none
      pure ⟨s, out⟩
    | other => throw (mismatch "substitution" other)
  | _ => throw (arity "output_ref" children.length 2)
termination_by 2 * sizeOf children

end

/-- The walk over a whole tree, whose root must be a `name`. -/
def buildRoot (frames : Frames) (root : Node) : Walk Name :=
  match root with
  | .tree "name" children => buildName frames (frames.entry + 1) children
  | other => throw (mismatch "name" other)

end ArtifactNames
