/-! Names: `let` declarations and a terminal substitution, which applies an atomic reference, a
variable, a resolved variable or a nested name to inputs, positional or named. -/

namespace ArtifactNames

/-- A parameter: its name and its value, with quotes already removed. -/
structure Parameter where
  name : String
  value : String
  deriving DecidableEq, Repr

/-- An identifier with its parameters, in order, duplicates kept. -/
structure ParameterizedId where
  id : String
  params : List Parameter
  deriving DecidableEq, Repr

mutual

structure Name where
  decls : List Declaration
  term : Substitution

/-- `let var = val;`, where `var` is absent for `let _`. -/
structure Declaration where
  var : Option String
  val : Substitution

structure Substitution where
  ref : Ref
  inputs : List Input

/-- An input: the input id (absent when positional) and the output it receives. -/
structure Input where
  id : Option String
  value : OutputRef

/-- An output of a substitution: its id, or absent for the default output. -/
structure OutputRef where
  sub : Substitution
  output : Option String

inductive Ref where
  | atomic (ns : Option Namespace) (id : ParameterizedId)
  | var (name : String)
  | resolved (name : String)
  | nested (name : Name)

inductive Namespace where
  | builtin (id : ParameterizedId)
  | computed (out : OutputRef)

end

mutual

def Name.beq : Name → Name → Bool
  | ⟨d1, t1⟩, ⟨d2, t2⟩ => Declaration.beqList d1 d2 && t1.beq t2

def Declaration.beqList : List Declaration → List Declaration → Bool
  | [], [] => true
  | a :: as, b :: bs => a.beq b && Declaration.beqList as bs
  | _, _ => false

def Declaration.beq : Declaration → Declaration → Bool
  | ⟨v1, s1⟩, ⟨v2, s2⟩ => v1 == v2 && s1.beq s2

def Substitution.beq : Substitution → Substitution → Bool
  | ⟨r1, i1⟩, ⟨r2, i2⟩ => r1.beq r2 && Input.beqList i1 i2

def Input.beqList : List Input → List Input → Bool
  | [], [] => true
  | a :: as, b :: bs => a.beq b && Input.beqList as bs
  | _, _ => false

def Input.beq : Input → Input → Bool
  | ⟨i1, v1⟩, ⟨i2, v2⟩ => i1 == i2 && v1.beq v2

def OutputRef.beq : OutputRef → OutputRef → Bool
  | ⟨s1, o1⟩, ⟨s2, o2⟩ => s1.beq s2 && o1 == o2

def Ref.beq : Ref → Ref → Bool
  | .atomic n1 p1, .atomic n2 p2 => Namespace.beqOption n1 n2 && p1 == p2
  | .var a, .var b => a == b
  | .resolved a, .resolved b => a == b
  | .nested a, .nested b => a.beq b
  | _, _ => false

def Namespace.beqOption : Option Namespace → Option Namespace → Bool
  | none, none => true
  | some a, some b => a.beq b
  | _, _ => false

def Namespace.beq : Namespace → Namespace → Bool
  | .builtin a, .builtin b => a == b
  | .computed a, .computed b => a.beq b
  | _, _ => false

end

instance : BEq Name := ⟨Name.beq⟩

end ArtifactNames
