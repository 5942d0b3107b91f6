import ArtifactNames.Proofs.Syntax.Scan

/-! The names text can hold: no computed namespace, no inputs on variables, identifiers that are
words, parameter values without NUL, and no keyword where the grammar reads one. -/

namespace ArtifactNames

open Syntax Text

def isIdentText (s : String) : Bool := isIdent (ofText s)

/-- The word a substitution starts with when the grammar could read it as a keyword: the
variable, else the id of the namespace, else the id of an unqualified atomic reference. -/
def Ref.leadingWord : Ref → Option String
  | .var v => some v
  | .atomic (some (.builtin ns)) _ => some ns.id
  | .atomic none pid => some pid.id
  | _ => none

def Ref.takesInputs : Ref → Bool
  | .atomic _ _ => true
  | .nested _ => true
  | _ => false

def Parameter.representable (p : Parameter) : Bool :=
  isIdentText p.name && !(ofText p.value).contains 0

def ParameterizedId.representable (p : ParameterizedId) : Bool :=
  isIdentText p.id && p.params.all Parameter.representable

mutual

def Name.representable : Name → Bool
  | ⟨ds, t⟩ => Declaration.representableList ds && t.representable && t.ref.leadingWord != some "let"

def Declaration.representableList : List Declaration → Bool
  | [] => true
  | ⟨var, val⟩ :: ds => var.all isIdentText && val.representable && Declaration.representableList ds

def Substitution.representable : Substitution → Bool
  | ⟨ref, is⟩ => ref.representable && (ref.takesInputs || is.isEmpty) &&
      ref.leadingWord != some "resolved" && Input.representableList is

def Ref.representable : Ref → Bool
  | .atomic none pid => pid.representable
  | .atomic (some (.builtin ns)) pid => ns.representable && pid.representable
  | .atomic (some (.computed _)) _ => false
  | .var v => isIdentText v
  | .resolved v => isIdentText v
  | .nested n => n.representable

def Input.representableList : List Input → Bool
  | [] => true
  | ⟨id, out⟩ :: is =>
    id.all (fun a => isIdentText a && a != "resolved") && out.representable && Input.representableList is

def OutputRef.representable : OutputRef → Bool
  | ⟨sub, out⟩ => sub.representable && out.all isIdentText

end

/-! ## Nesting depth

A substitution is one level deeper than every substitution it holds: in its inputs, in the
declarations and the last substitution of a nested name, or in a computed namespace. -/

mutual

def Name.depth : Name → Nat
  | ⟨ds, t⟩ => max (Declaration.depthList ds) t.depth

def Declaration.depthList : List Declaration → Nat
  | [] => 0
  | ⟨_, val⟩ :: ds => max val.depth (Declaration.depthList ds)

def Substitution.depth : Substitution → Nat
  | ⟨ref, is⟩ => 1 + max ref.depth (Input.depthList is)

def Ref.depth : Ref → Nat
  | .nested n => n.depth
  | .atomic (some (.computed ⟨sub, _⟩)) _ => sub.depth
  | _ => 0

def Input.depthList : List Input → Nat
  | [] => 0
  | ⟨_, ⟨sub, _⟩⟩ :: is => max sub.depth (Input.depthList is)

end

end ArtifactNames
