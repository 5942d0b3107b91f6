import ArtifactNames.Syntax.Lexer
import ArtifactNames.Syntax.Node

/-! The grammar of names, read by recursive descent on the next token alone. `let` and `resolved`
are keywords only where a declaration or a substitution may start, and every reader takes at least
one token. -/

namespace ArtifactNames.Syntax

open Text

/-- Where reading stopped: at a token (its offset) or at the end of the tokens. -/
inductive Rejection where
  | at (offset : Nat)
  | atEnd
  deriving DecidableEq, Repr

/-- The rest of the tokens after a part that took at least one of them. -/
abbrev Rest (toks : List Token) := {rest : List Token // rest.length < toks.length}

abbrev Parsed (toks : List Token) := Except Rejection (Node × Rest toks)

def identNode (t : Token) : Node := .token "IDENT" t.text

def expectPunct (p : Punct) (toks : List Token) : Except Rejection (Rest toks) :=
  match toks with
  | t :: rest => if t.isPunct p then .ok ⟨rest, Nat.lt_succ_self _⟩ else .error (.at t.start)
  | [] => .error .atEnd

/-- Any word, keywords included, as an identifier. -/
def ident (toks : List Token) : Parsed toks :=
  match toks with
  | t :: rest => if t.kind == .word then .ok (identNode t, ⟨rest, Nat.lt_succ_self _⟩) else .error (.at t.start)
  | [] => .error .atEnd

/-- The value of a parameter: a word, a number or a string, each a token of its own type. -/
def paramValue (toks : List Token) : Parsed toks :=
  match toks with
  | t :: rest =>
    let node : Option Node :=
      if t.kind == .word then some (.token "IDENT" t.text)
      else if t.kind == .number then some (.token "NUMBER" t.text)
      else if t.kind == .string then some (.token "STRING" t.text)
      else none
    match node with
    | some n => .ok (n, ⟨rest, Nat.lt_succ_self _⟩)
    | none => .error (.at t.start)
  | [] => .error .atEnd

def param (toks : List Token) : Parsed toks := do
  let (key, ⟨r1, h1⟩) ← ident toks
  let ⟨r2, h2⟩ ← expectPunct .assign r1
  let (value, ⟨r3, h3⟩) ← paramValue r2
  pure (.tree "param" [key, value], ⟨r3, by omega⟩)

/-- Parameters after the first, each after a comma. -/
def moreParams (toks : List Token) (acc : Array Node) :
    Except Rejection (Array Node × {rest : List Token // rest.length ≤ toks.length}) :=
  match toks with
  | t :: rest =>
    if t.isPunct .comma then
      match param rest with
      | .error e => .error e
      | .ok (p, ⟨r1, h1⟩) =>
        match moreParams r1 (acc.push p) with
        | .error e => .error e
        | .ok (ps, ⟨r2, h2⟩) => .ok (ps, ⟨r2, by rw [List.length_cons]; omega⟩)
    else .ok (acc, ⟨t :: rest, Nat.le_refl _⟩)
  | [] => .ok (acc, ⟨[], Nat.le_refl _⟩)
termination_by toks.length
decreasing_by simp; omega

/-- `[` then parameters then `]`; an empty list is an absent parameter list. -/
def params (toks : List Token) : Parsed toks :=
  match expectPunct .lbracket toks with
  | .error e => .error e
  | .ok ⟨r1, h1⟩ =>
    match r1 with
    | [] => .error .atEnd
    | t :: r2 =>
      if t.isPunct .rbracket then .ok (.tree "params" [.absent], ⟨r2, by rw [List.length_cons] at h1; omega⟩)
      else
        match param (t :: r2) with
        | .error e => .error e
        | .ok (first, ⟨r3, h3⟩) =>
          match moreParams r3 #[first] with
          | .error e => .error e
          | .ok (ps, ⟨r4, h4⟩) =>
            match expectPunct .rbracket r4 with
            | .error e => .error e
            | .ok ⟨r5, h5⟩ => .ok (.tree "params" [.tree "param_list" ps.toList], ⟨r5, by omega⟩)

def pid (toks : List Token) : Parsed toks :=
  match ident toks with
  | .error e => .error e
  | .ok (id, ⟨r1, h1⟩) =>
    match r1 with
    | t :: r2 =>
      if t.isPunct .lbracket then
        match params (t :: r2) with
        | .error e => .error e
        | .ok (ps, ⟨r3, h3⟩) => .ok (.tree "parameterized_id" [id, ps], ⟨r3, by omega⟩)
      else .ok (.tree "parameterized_id" [id, .absent], ⟨t :: r2, h1⟩)
    | [] => .ok (.tree "parameterized_id" [id, .absent], ⟨[], h1⟩)

/-- A graph index is a number of ASCII digits only; a number that goes on after its leading ASCII
digits is rejected where they end. -/
def graphIndex (toks : List Token) : Parsed toks :=
  match toks with
  | t :: rest =>
    if t.kind == .number then
      let digits := (t.text.takeWhile isAsciiDigit).length
      if digits == 0 then .error (.at t.start)
      else if digits == t.text.length then
        .ok (.tree "graph_index" [.token "INT" t.text], ⟨rest, Nat.lt_succ_self _⟩)
      else .error (.at (t.start + digits))
    else .error (.at t.start)
  | [] => .error .atEnd

/-- Whether the tokens go on with inputs (`(` or `@`). -/
def startsInputs : List Token → Bool
  | t :: _ => t.isPunct .lparen || t.isPunct .at
  | [] => false

mutual

def name (toks : List Token) : Parsed toks :=
  match declarations toks #[] with
  | .error e => .error e
  | .ok (decls, ⟨r1, h1⟩) =>
    match substitution r1 with
    | .error e => .error e
    | .ok (sub, ⟨r2, h2⟩) =>
      .ok (.tree "name" [.tree "declarations" decls.toList, sub], ⟨r2, by omega⟩)
termination_by 5 * toks.length + 4
decreasing_by all_goals omega

/-- Declarations, each starting with the keyword `let`. -/
def declarations (toks : List Token) (acc : Array Node) :
    Except Rejection (Array Node × {rest : List Token // rest.length ≤ toks.length}) :=
  match toks with
  | t :: rest =>
    if t.isWord "let" then
      match declaration rest with
      | .error e => .error e
      | .ok (d, ⟨r1, h1⟩) =>
        match declarations r1 (acc.push d) with
        | .error e => .error e
        | .ok (ds, ⟨r2, h2⟩) => .ok (ds, ⟨r2, by rw [List.length_cons]; omega⟩)
    else .ok (acc, ⟨t :: rest, Nat.le_refl _⟩)
  | [] => .ok (acc, ⟨[], Nat.le_refl _⟩)
termination_by 5 * toks.length + 3
decreasing_by all_goals simp; omega

/-- A declaration after its `let`. -/
def declaration (toks : List Token) : Parsed toks :=
  match toks with
  | b :: rest =>
    let binding : Option Node :=
      if b.kind == .blank then some (.tree "unbound" [])
      else if b.kind == .word then some (.tree "bound" [identNode b])
      else none
    match binding with
    | none => .error (.at b.start)
    | some bind =>
      match expectPunct .assign rest with
      | .error e => .error e
      | .ok ⟨r1, h1⟩ =>
        match substitution r1 with
        | .error e => .error e
        | .ok (sub, ⟨r2, h2⟩) =>
          match expectPunct .semicolon r2 with
          | .error e => .error e
          | .ok ⟨r3, h3⟩ => .ok (.tree "declaration" [bind, sub], ⟨r3, by rw [List.length_cons]; omega⟩)
  | [] => .error .atEnd
termination_by 5 * toks.length
decreasing_by simp; omega

def substitution (toks : List Token) : Parsed toks :=
  match toks with
  | [] => .error .atEnd
  | t :: rest =>
    if t.isWord "resolved" then
      match expectPunct .lparen rest with
      | .error e => .error e
      | .ok ⟨r1, h1⟩ =>
        match ident r1 with
        | .error e => .error e
        | .ok (id, ⟨r2, h2⟩) =>
          match expectPunct .rparen r2 with
          | .error e => .error e
          | .ok ⟨r3, h3⟩ =>
            .ok (.tree "substitution" [.tree "resolved_ref" [id]], ⟨r3, by rw [List.length_cons]; omega⟩)
    else if t.kind == .word then
      match atomicOrVariable t rest with
      | .error e => .error e
      | .ok (sub, ⟨r1, h1⟩) => .ok (sub, ⟨r1, by rw [List.length_cons]; omega⟩)
    else if t.isPunct .lparen then
      match name rest with
      | .error e => .error e
      | .ok (inner, ⟨r1, h1⟩) =>
        match expectPunct .rparen r1 with
        | .error e => .error e
        | .ok ⟨r2, h2⟩ =>
          if startsInputs r2 then
            match multiary r2 with
            | .error e => .error e
            | .ok (m, ⟨r3, h3⟩) =>
              .ok (.tree "substitution" [.tree "nested_ref" [inner], m], ⟨r3, by rw [List.length_cons]; omega⟩)
          else .ok (.tree "substitution" [.tree "nested_ref" [inner], .absent], ⟨r2, by rw [List.length_cons]; omega⟩)
    else if t.isPunct .lbrace then
      match outputRef rest with
      | .error e => .error e
      | .ok (out, ⟨r1, h1⟩) =>
        match expectPunct .rbrace r1 with
        | .error e => .error e
        | .ok ⟨r2, h2⟩ =>
          match expectPunct .scope r2 with
          | .error e => .error e
          | .ok ⟨r3, h3⟩ =>
            match pid r3 with
            | .error e => .error e
            | .ok (id, ⟨r4, h4⟩) =>
              match multiary r4 with
              | .error e => .error e
              | .ok (m, ⟨r5, h5⟩) =>
                .ok (.tree "substitution"
                  [.tree "atomic_ref" [.tree "named_namespace" [out], id], m], ⟨r5, by rw [List.length_cons]; omega⟩)
    else .error (.at t.start)
termination_by 5 * toks.length
decreasing_by all_goals (simp_all; omega)

/-- After a leading word `w`: an atomic reference, plain or namespaced, or else a variable. -/
def atomicOrVariable (w : Token) (toks : List Token) :
    Except Rejection (Node × {rest : List Token // rest.length ≤ toks.length}) :=
  match toks with
  | [] => .ok (.tree "substitution" [.tree "variable_ref" [identNode w]], ⟨[], Nat.le_refl _⟩)
  | t :: rest =>
    if t.isPunct .lbracket then
      match params (t :: rest) with
      | .error e => .error e
      | .ok (ps, ⟨r1, h1⟩) =>
        match afterPid (.tree "parameterized_id" [identNode w, ps]) r1 with
        | .error e => .error e
        | .ok (sub, ⟨r2, h2⟩) => .ok (sub, ⟨r2, by omega⟩)
    else if t.isPunct .scope || startsInputs (t :: rest) then
      match afterPid (.tree "parameterized_id" [identNode w, .absent]) (t :: rest) with
      | .error e => .error e
      | .ok (sub, ⟨r1, h1⟩) => .ok (sub, ⟨r1, by omega⟩)
    else .ok (.tree "substitution" [.tree "variable_ref" [identNode w]], ⟨t :: rest, Nat.le_refl _⟩)
termination_by 5 * toks.length + 4
decreasing_by all_goals simp_all <;> omega

/-- After a parameterized id: `::` and the id of a namespaced reference, or its inputs. -/
def afterPid (first : Node) (toks : List Token) : Parsed toks :=
  match toks with
  | t :: rest =>
    if t.isPunct .scope then
      match pid rest with
      | .error e => .error e
      | .ok (id, ⟨r1, h1⟩) =>
        match multiary r1 with
        | .error e => .error e
        | .ok (m, ⟨r2, h2⟩) =>
          .ok (.tree "substitution" [.tree "atomic_ref" [.tree "builtin_namespace" [first], id], m],
            ⟨r2, by rw [List.length_cons]; omega⟩)
    else if startsInputs (t :: rest) then
      match multiary (t :: rest) with
      | .error e => .error e
      | .ok (m, ⟨r1, h1⟩) => .ok (.tree "substitution" [.tree "atomic_ref" [.absent, first], m], ⟨r1, h1⟩)
    else .error (.at t.start)
  | [] => .error .atEnd
termination_by 5 * toks.length + 3
decreasing_by all_goals simp_all <;> omega

/-- Inputs: an optional `@` index, then the specs in parentheses. -/
def multiary (toks : List Token) : Parsed toks :=
  match toks with
  | t :: rest =>
    if t.isPunct .at then
      match graphIndex rest with
      | .error e => .error e
      | .ok (index, ⟨r1, h1⟩) =>
        match inputList index r1 with
        | .error e => .error e
        | .ok (m, ⟨r2, h2⟩) => .ok (m, ⟨r2, by rw [List.length_cons]; omega⟩)
    else inputList .absent (t :: rest)
  | [] => .error .atEnd
termination_by 5 * toks.length + 2
decreasing_by all_goals simp_all <;> omega

/-- `(`, the specs separated by commas, `)`. -/
def inputList (index : Node) (toks : List Token) : Parsed toks :=
  match expectPunct .lparen toks with
  | .error e => .error e
  | .ok ⟨r1, h1⟩ =>
    match r1 with
    | [] => .error .atEnd
    | t :: r2 =>
      if t.isPunct .rparen then .ok (.tree "multiary" [index, .absent], ⟨r2, by rw [List.length_cons] at h1; omega⟩)
      else
        match spec (t :: r2) with
        | .error e => .error e
        | .ok (first, ⟨r3, h3⟩) =>
          match moreSpecs r3 #[first] with
          | .error e => .error e
          | .ok (specs, ⟨r4, h4⟩) =>
            match expectPunct .rparen r4 with
            | .error e => .error e
            | .ok ⟨r5, h5⟩ =>
              .ok (.tree "multiary" [index, .tree "spec_list" specs.toList], ⟨r5, by omega⟩)
termination_by 5 * toks.length + 1
decreasing_by all_goals (simp_all; omega)

/-- Specs after the first, each after a comma. -/
def moreSpecs (toks : List Token) (acc : Array Node) :
    Except Rejection (Array Node × {rest : List Token // rest.length ≤ toks.length}) :=
  match toks with
  | t :: rest =>
    if t.isPunct .comma then
      match spec rest with
      | .error e => .error e
      | .ok (s, ⟨r1, h1⟩) =>
        match moreSpecs r1 (acc.push s) with
        | .error e => .error e
        | .ok (ss, ⟨r2, h2⟩) => .ok (ss, ⟨r2, by rw [List.length_cons]; omega⟩)
    else .ok (acc, ⟨t :: rest, Nat.le_refl _⟩)
  | [] => .ok (acc, ⟨[], Nat.le_refl _⟩)
termination_by 5 * toks.length + 3
decreasing_by all_goals simp_all <;> omega

/-- A spec: an input id and `:` before the value, or the value alone. The keyword `resolved` can
only start a value. -/
def spec (toks : List Token) : Parsed toks :=
  match toks with
  | t :: c :: r1 =>
    if t.kind == .word && !t.isWord "resolved" && c.isPunct .colon then
      match outputRef r1 with
      | .error e => .error e
      | .ok (out, ⟨r2, h2⟩) => .ok (.tree "substitution_spec" [identNode t, out], ⟨r2, by rw [List.length_cons, List.length_cons]; omega⟩)
    else
      match outputRef (t :: c :: r1) with
      | .error e => .error e
      | .ok (out, r2) => .ok (.tree "substitution_spec" [.absent, out], r2)
  | toks =>
    match outputRef toks with
    | .error e => .error e
    | .ok (out, r2) => .ok (.tree "substitution_spec" [.absent, out], r2)
termination_by 5 * toks.length + 2
decreasing_by all_goals simp_all <;> omega

/-- A substitution and an optional `.` with the id of one of its outputs. -/
def outputRef (toks : List Token) : Parsed toks :=
  match substitution toks with
  | .error e => .error e
  | .ok (sub, ⟨r1, h1⟩) =>
    match r1 with
    | t :: r2 =>
      if t.isPunct .dot then
        match ident r2 with
        | .error e => .error e
        | .ok (id, ⟨r3, h3⟩) => .ok (.tree "output_ref" [sub, id], ⟨r3, by rw [List.length_cons] at h1; omega⟩)
      else .ok (.tree "output_ref" [sub, .absent], ⟨t :: r2, h1⟩)
    | [] => .ok (.tree "output_ref" [sub, .absent], ⟨[], h1⟩)
termination_by 5 * toks.length + 1
decreasing_by all_goals simp_all

end

/-- The tree of a whole name, or where reading stopped. -/
def readName (toks : List Token) : Except Rejection Node :=
  match name toks with
  | .error e => .error e
  | .ok (node, ⟨[], _⟩) => .ok node
  | .ok (_, ⟨t :: _, _⟩) => .error (.at t.start)

end ArtifactNames.Syntax
