import ArtifactNames.Proofs.Name.Representable

/-! The canonical text of a name and the tree the grammar gives it. Main statement
(`Name.scan_render`): the text of a representable name scans as its printed tokens. -/

namespace ArtifactNames

open Syntax Text

/-! ## Layout -/

def separated : List (List Piece) → List Piece
  | [] => []
  | y :: ys => (Piece.mark .comma).withBlank :: (y ++ separated ys)

def commaSep : List (List Piece) → List Piece
  | [] => []
  | x :: xs => x ++ separated xs

def parenthesized (items : List (List Piece)) : List Piece :=
  Piece.mark .lparen :: (commaSep items ++ [Piece.mark .rparen])

def nestedInputs : List (List Piece) → List Piece
  | [] => []
  | x :: xs => parenthesized (x :: xs)

def Parameter.layout (p : Parameter) : List Piece :=
  [.word (ofText p.name), .mark .assign, .string (ofText p.value)]

def paramsLayout : List Parameter → List Piece
  | [] => []
  | p :: ps => Piece.mark .lbracket :: (commaSep ((p :: ps).map Parameter.layout) ++ [Piece.mark .rbracket])

def ParameterizedId.layout (p : ParameterizedId) : List Piece :=
  .word (ofText p.id) :: paramsLayout p.params

def binder : Option String → Piece
  | none => Piece.blank.withBlank
  | some v => (Piece.word (ofText v)).withBlank

mutual

def Name.layout : Name → List Piece
  | ⟨ds, t⟩ => Declaration.layoutList ds ++ t.layout

def Declaration.layoutList : List Declaration → List Piece
  | [] => []
  | d :: ds => d.layout ++ Declaration.layoutList ds

def Declaration.layout : Declaration → List Piece
  | ⟨var, val⟩ => (Piece.word (ofText "let")).withBlank :: binder var :: (Piece.mark .assign).withBlank ::
      (val.layout ++ [(Piece.mark .semicolon).withBlank])

def Substitution.layout : Substitution → List Piece
  | ⟨.atomic ns pid, is⟩ => Namespace.layoutOpt ns ++ (pid.layout ++ parenthesized (Input.layouts is))
  | ⟨.var v, _⟩ => [.word (ofText v)]
  | ⟨.resolved v, _⟩ => [.word (ofText "resolved"), .mark .lparen, .word (ofText v), .mark .rparen]
  | ⟨.nested n, is⟩ => Piece.mark .lparen :: (n.layout ++ Piece.mark .rparen :: nestedInputs (Input.layouts is))

def Input.layouts : List Input → List (List Piece)
  | [] => []
  | i :: is => i.layout :: Input.layouts is

def Input.layout : Input → List Piece
  | ⟨none, out⟩ => out.layout
  | ⟨some a, out⟩ => .word (ofText a) :: (Piece.mark .colon).withBlank :: out.layout

def OutputRef.layout : OutputRef → List Piece
  | ⟨sub, none⟩ => sub.layout
  | ⟨sub, some o⟩ => sub.layout ++ [.mark .dot, .word (ofText o)]

def Namespace.layoutOpt : Option Namespace → List Piece
  | none => []
  | some (.builtin pid) => pid.layout ++ [.mark .scope]
  | some (.computed out) => Piece.mark .lbrace :: (out.layout ++ [.mark .rbrace, .mark .scope])

end

def Name.render (n : Name) : List Nat := spell n.layout

/-! ## Syntax trees -/

def identTree (s : String) : Node := .token "IDENT" (ofText s)

def optIdentTree : Option String → Node
  | none => .absent
  | some s => identTree s

def Parameter.tree (p : Parameter) : Node :=
  .tree "param" [identTree p.name, .token "STRING" (quote (ofText p.value))]

def paramsTree : List Parameter → Node
  | [] => .absent
  | p :: ps => .tree "params" [.tree "param_list" ((p :: ps).map Parameter.tree)]

def ParameterizedId.tree (p : ParameterizedId) : Node :=
  .tree "parameterized_id" [identTree p.id, paramsTree p.params]

def bindingTree : Option String → Node
  | none => .tree "unbound" []
  | some v => .tree "bound" [identTree v]

def multiaryTree : List Node → Node
  | [] => .tree "multiary" [.absent, .absent]
  | s :: ss => .tree "multiary" [.absent, .tree "spec_list" (s :: ss)]

def nestedInputsTree : List Node → Node
  | [] => .absent
  | s :: ss => multiaryTree (s :: ss)

mutual

def Name.tree : Name → Node
  | ⟨ds, t⟩ => .tree "name" [.tree "declarations" (Declaration.trees ds), .tree "substitution" t.parts]

def Declaration.trees : List Declaration → List Node
  | [] => []
  | d :: ds => d.tree :: Declaration.trees ds

def Declaration.tree : Declaration → Node
  | ⟨var, val⟩ => .tree "declaration" [bindingTree var, .tree "substitution" val.parts]

def Substitution.parts : Substitution → List Node
  | ⟨.atomic ns pid, is⟩ => [.tree "atomic_ref" [Namespace.treeOpt ns, pid.tree], multiaryTree (Input.trees is)]
  | ⟨.var v, _⟩ => [.tree "variable_ref" [identTree v]]
  | ⟨.resolved v, _⟩ => [.tree "resolved_ref" [identTree v]]
  | ⟨.nested n, is⟩ => [.tree "nested_ref" [n.tree], nestedInputsTree (Input.trees is)]

def Input.trees : List Input → List Node
  | [] => []
  | i :: is => i.tree :: Input.trees is

def Input.tree : Input → Node
  | ⟨id, out⟩ => .tree "substitution_spec" [optIdentTree id, out.tree]

def OutputRef.tree : OutputRef → Node
  | ⟨sub, out⟩ => .tree "output_ref" [.tree "substitution" sub.parts, optIdentTree out]

def Namespace.treeOpt : Option Namespace → Node
  | none => .absent
  | some (.builtin pid) => .tree "builtin_namespace" [pid.tree]
  | some (.computed out) => .tree "named_namespace" [out.tree]

end

/-! ## Printed tokens read back -/

def Stops (next : Option Nat) : Prop := ∀ x ∈ next, isWordTail x = false

def Opens (ps : List Piece) : Prop := Stops (spell ps).head?

/-- Printed tokens that read back as themselves before any code point that `ok` allows, in a text
of scalar values other than NUL. -/
structure Prints (ps : List Piece) (ok : Option Nat → Prop) : Prop where
  fits : ∀ after, ok after → Fits ps after
  clean : ∀ c ∈ spell ps, c ≠ 0 ∧ c.isValidChar

theorem stops_or {a b : Option Nat} (ha : Stops a) (hb : Stops b) : Stops (a.or b) := by
  cases a with
  | none => simpa using hb
  | some x => simpa using ha

theorem Prints.append {A B : List Piece} {okA okB : Option Nat → Prop} (hA : Prints A okA)
    (hB : Prints B okB) (link : ∀ after, okB after → okA ((spell B).head?.or after)) :
    Prints (A ++ B) okB where
  fits after h := (fits_append A B after).mpr ⟨hA.fits _ (link after h), hB.fits after h⟩
  clean c mem := by
    rw [spell_append, List.mem_append] at mem
    rcases mem with inA | inB
    · exact hA.clean c inA
    · exact hB.clean c inB

theorem Prints.stops {ps : List Piece} (h : Prints ps fun _ => True) : Prints ps Stops :=
  ⟨fun after _ => h.fits after trivial, h.clean⟩

theorem prints_nil (ok : Option Nat → Prop) : Prints [] ok :=
  ⟨fun _ _ => trivial, by simp⟩

theorem opens_nil : Opens [] := by simp [Opens, Stops]

theorem opens_mark (p : Punct) (ps : List Piece) : Opens (Piece.mark p :: ps) := by
  simp only [Opens, Stops, spell_cons, Piece.spell, Piece.mark]
  cases p <;> simp [Punct.spelling] <;> decide

theorem opens_mark_blank (p : Punct) (ps : List Piece) : Opens ((Piece.mark p).withBlank :: ps) := by
  simp only [Opens, Stops, spell_cons, Piece.spell, Piece.withBlank, Piece.mark]
  cases p <;> simp [Punct.spelling] <;> decide

theorem link_opens {B : List Piece} (h : Opens B) :
    ∀ after, Stops after → Stops ((spell B).head?.or after) :=
  fun _ ha => stops_or h ha

theorem link_mark (p : Punct) (ps : List Piece) (after : Option Nat) :
    Stops ((spell (Piece.mark p :: ps)).head?.or after) := by
  cases p <;> simp [Stops, spell_cons, Piece.spell, Piece.mark, Punct.spelling] <;> decide

theorem link_mark_blank (p : Punct) (ps : List Piece) (after : Option Nat) :
    Stops ((spell ((Piece.mark p).withBlank :: ps)).head?.or after) := by
  cases p <;> simp [Stops, spell_cons, Piece.spell, Piece.withBlank, Piece.mark, Punct.spelling] <;> decide

theorem clean_ofText (s : String) : ∀ c ∈ ofText s, c.isValidChar := by
  intro c mem
  obtain ⟨ch, -, rfl⟩ := List.mem_map.mp mem
  exact isValidChar_toNat ch

theorem ne_zero_of_isIdent {w : List Nat} (ident : isIdent w = true) : ∀ c ∈ w, c ≠ 0 := by
  match w, ident with
  | c :: tail, ident =>
    simp only [isIdent, Bool.and_eq_true, List.all_eq_true] at ident
    intro x mem
    rcases List.mem_cons.mp mem with rfl | inTail
    · rintro rfl
      exact absurd ident.1.1.1 (by decide)
    · rintro rfl
      exact absurd (ident.1.2 0 inTail) (by decide)

theorem prints_word {s : String} (ident : isIdentText s = true) : Prints [Piece.word (ofText s)] Stops where
  fits after stop := by
    simp only [Fits, Piece.word, Bool.false_eq_true, ↓reduceIte, spell_nil, List.head?_nil,
      Option.none_or, and_true]
    exact lexes_word ident stop
  clean c mem := by
    simp only [spell_cons, Piece.spell, Piece.word, spell_nil, Bool.false_eq_true, ↓reduceIte,
      List.append_nil] at mem
    exact ⟨ne_zero_of_isIdent ident c mem, clean_ofText s c mem⟩

theorem prints_word_blank (s : String) (ident : isIdentText s = true) :
    Prints [(Piece.word (ofText s)).withBlank] fun _ => True where
  fits _ _ := by
    simp only [Fits, Piece.withBlank, Piece.word, ↓reduceIte, and_true]
    exact lexes_word ident (by decide)
  clean c mem := by
    simp only [spell_cons, Piece.spell, Piece.withBlank, Piece.word, ↓reduceIte, spell_nil,
      List.append_nil, List.mem_append, List.mem_singleton] at mem
    rcases mem with inWord | rfl
    · exact ⟨ne_zero_of_isIdent ident c inWord, clean_ofText s c inWord⟩
    · decide

theorem clean_spelling (p : Punct) : ∀ c ∈ p.spelling, c ≠ 0 ∧ c.isValidChar := by
  cases p <;> decide

theorem prints_mark (p : Punct) (plain : p ≠ .colon) : Prints [Piece.mark p] fun _ => True where
  fits after _ := by
    simp only [Fits, Piece.mark, Bool.false_eq_true, ↓reduceIte, and_true]
    exact lexes_mark p plain _
  clean c mem := by
    simp only [spell_cons, Piece.spell, Piece.mark, Bool.false_eq_true, ↓reduceIte, spell_nil,
      List.append_nil] at mem
    exact clean_spelling p c mem

theorem prints_mark_blank (p : Punct) (plain : p ≠ .colon) :
    Prints [(Piece.mark p).withBlank] fun _ => True where
  fits after _ := by
    simp only [Fits, Piece.withBlank, Piece.mark, ↓reduceIte, and_true]
    exact lexes_mark p plain _
  clean c mem := by
    simp only [spell_cons, Piece.spell, Piece.withBlank, Piece.mark, ↓reduceIte, spell_nil,
      List.append_nil, List.mem_append, List.mem_singleton] at mem
    rcases mem with inMark | rfl
    · exact clean_spelling p c inMark
    · decide

theorem prints_colon_blank : Prints [(Piece.mark .colon).withBlank] fun _ => True where
  fits after _ := by
    simp only [Fits, Piece.withBlank, Piece.mark, ↓reduceIte, and_true, Punct.spelling]
    exact lexes_colon (by decide)
  clean := by decide

theorem prints_blank_blank : Prints [Piece.blank.withBlank] fun _ => True where
  fits after _ := by
    simp only [Fits, Piece.withBlank, Piece.blank, ↓reduceIte, and_true]
    exact lexes_blank (by decide)
  clean := by decide

theorem mem_escape {c : Nat} {cs : List Nat} (h : c ∈ escape cs) : c ∈ cs ∨ c = 0x5C := by
  induction cs with
  | nil => simp [escape] at h
  | cons x xs ih =>
    rw [escape] at h
    split at h
    · rcases List.mem_cons.mp h with rfl | h
      · exact .inr rfl
      · rcases List.mem_cons.mp h with rfl | h
        · exact .inl List.mem_cons_self
        · exact (ih h).imp_left (List.mem_cons_of_mem x)
    · rcases List.mem_cons.mp h with rfl | h
      · exact .inl List.mem_cons_self
      · exact (ih h).imp_left (List.mem_cons_of_mem x)

theorem prints_string {v : String} (nul : (ofText v).contains 0 = false) :
    Prints [Piece.string (ofText v)] fun _ => True where
  fits after _ := by
    simp only [Fits, Piece.string, Bool.false_eq_true, ↓reduceIte, and_true]
    exact lexes_string _ _
  clean c mem := by
    simp only [spell_cons, Piece.spell, Piece.string, Bool.false_eq_true, ↓reduceIte, spell_nil,
      List.append_nil, quote, List.mem_cons, List.mem_append, List.not_mem_nil, or_false] at mem
    -- a code point of a quoted value is a quote, a backslash or a code point of the value
    have inValue : c ∈ ofText v → c ≠ 0 ∧ c.isValidChar := fun h =>
      ⟨fun zero => by simp [zero ▸ h] at nul, clean_ofText v c h⟩
    rcases mem with (rfl | inEscape) | rfl
    · decide
    · rcases mem_escape inEscape with h | rfl
      · exact inValue h
      · decide
    · decide

/-! ## Separated and bracketed items -/

theorem Prints.cons {p : Piece} {B : List Piece} {okp okB : Option Nat → Prop} (hp : Prints [p] okp)
    (hB : Prints B okB) (link : ∀ after, okB after → okp ((spell B).head?.or after)) :
    Prints (p :: B) okB :=
  hp.append hB link

theorem Prints.before_mark {A : List Piece} {ok : Option Nat → Prop} (hA : Prints A Stops)
    (p : Punct) (plain : p ≠ .colon) : Prints (A ++ [Piece.mark p]) ok :=
  ⟨fun after _ => ((hA.append (prints_mark p plain) fun after _ => link_mark p [] after).fits after trivial),
    (hA.append (prints_mark p plain) fun after _ => link_mark p [] after).clean⟩

theorem opens_separated (ys : List (List Piece)) : Opens (separated ys) := by
  cases ys with
  | nil => exact opens_nil
  | cons y ys => exact opens_mark_blank .comma _

theorem prints_separated {ys : List (List Piece)} (h : ∀ y ∈ ys, Prints y Stops) :
    Prints (separated ys) Stops := by
  induction ys with
  | nil => exact prints_nil _
  | cons y ys ih =>
    have rest : Prints (y ++ separated ys) Stops :=
      (h y List.mem_cons_self).append (ih fun y' mem => h y' (List.mem_cons_of_mem y mem))
        (link_opens (opens_separated ys))
    exact (prints_mark_blank .comma (by decide)).cons rest fun _ _ => trivial

theorem prints_commaSep {xs : List (List Piece)} (h : ∀ x ∈ xs, Prints x Stops) :
    Prints (commaSep xs) Stops := by
  cases xs with
  | nil => exact prints_nil _
  | cons x xs =>
    exact (h x List.mem_cons_self).append
      (prints_separated fun y mem => h y (List.mem_cons_of_mem x mem)) (link_opens (opens_separated xs))

theorem prints_parenthesized {items : List (List Piece)} (h : ∀ x ∈ items, Prints x Stops) :
    Prints (parenthesized items) fun _ => True :=
  (prints_mark .lparen (by decide)).cons ((prints_commaSep h).before_mark .rparen (by decide))
    fun _ _ => trivial

theorem prints_nestedInputs {items : List (List Piece)} (h : ∀ x ∈ items, Prints x Stops) :
    Prints (nestedInputs items) Stops := by
  cases items with
  | nil => exact prints_nil _
  | cons x xs => exact (prints_parenthesized h).stops

theorem Parameter.prints_layout {p : Parameter} (h : p.representable = true) :
    Prints p.layout fun _ => True := by
  simp only [Parameter.representable, Bool.and_eq_true, Bool.not_eq_true'] at h
  have value : Prints [Piece.mark .assign, Piece.string (ofText p.value)] fun _ => True :=
    (prints_mark .assign (by decide)).cons (prints_string h.2) fun _ _ => trivial
  exact (prints_word h.1).cons value fun after _ => link_mark .assign _ after

theorem prints_paramsLayout {ps : List Parameter} (h : ps.all Parameter.representable = true) :
    Prints (paramsLayout ps) Stops := by
  cases ps with
  | nil => exact prints_nil _
  | cons p ps =>
    rw [List.all_eq_true] at h
    have items : ∀ x ∈ (p :: ps).map Parameter.layout, Prints x Stops := by
      intro x mem
      obtain ⟨q, inPs, rfl⟩ := List.mem_map.mp mem
      exact (Parameter.prints_layout (h q inPs)).stops
    exact (prints_mark .lbracket (by decide)).cons ((prints_commaSep items).before_mark .rbracket (by decide))
      fun _ _ => trivial

theorem opens_paramsLayout (ps : List Parameter) : Opens (paramsLayout ps) := by
  cases ps with
  | nil => exact opens_nil
  | cons p ps => exact opens_mark .lbracket _

theorem ParameterizedId.prints_layout {p : ParameterizedId} (h : p.representable = true) :
    Prints p.layout Stops := by
  simp only [ParameterizedId.representable, Bool.and_eq_true] at h
  exact (prints_word h.1).cons (prints_paramsLayout h.2) (link_opens (opens_paramsLayout _))

theorem prints_binder {var : Option String} (h : var.all isIdentText = true) :
    Prints [binder var] fun _ => True := by
  cases var with
  | none => exact prints_blank_blank
  | some v => exact prints_word_blank v (by simpa using h)

/-! ## Names -/

mutual

theorem Name.prints_layout (n : Name) (h : n.representable = true) : Prints n.layout Stops := by
  match n with
  | ⟨ds, t⟩ =>
    simp only [Name.representable, Bool.and_eq_true] at h
    obtain ⟨⟨decls, term⟩, -⟩ := h
    exact (Declaration.prints_layoutList ds decls).append (Substitution.prints_layout t term)
      fun _ _ => trivial

theorem Declaration.prints_layoutList (ds : List Declaration)
    (h : Declaration.representableList ds = true) : Prints (Declaration.layoutList ds) fun _ => True := by
  match ds with
  | [] => exact prints_nil _
  | ⟨var, val⟩ :: ds =>
    simp only [Declaration.representableList, Bool.and_eq_true] at h
    obtain ⟨⟨bound, valid⟩, rest⟩ := h
    -- `let`, the binder and `=` each have a blank after them, and `;` ends the declaration
    have value : Prints (val.layout ++ [(Piece.mark .semicolon).withBlank]) fun _ => True :=
      (Substitution.prints_layout val valid).append (prints_mark_blank .semicolon (by decide))
        fun after _ => link_mark_blank .semicolon [] after
    have decl : Prints (Declaration.layout ⟨var, val⟩) fun _ => True :=
      (prints_word_blank "let" (by decide)).cons
        ((prints_binder bound).cons ((prints_mark_blank .assign (by decide)).cons value
          fun _ _ => trivial) fun _ _ => trivial) fun _ _ => trivial
    exact decl.append (Declaration.prints_layoutList ds rest) fun _ _ => trivial

theorem Substitution.prints_layout (s : Substitution) (h : s.representable = true) :
    Prints s.layout Stops := by
  match s with
  | ⟨.atomic none pid, is⟩ =>
    simp only [Substitution.representable, Ref.representable, Bool.and_eq_true] at h
    obtain ⟨⟨⟨pidOk, -⟩, -⟩, inputs⟩ := h
    have atomic := (ParameterizedId.prints_layout pidOk).append
      (prints_parenthesized (Input.prints_layouts is inputs)) fun after _ => link_mark .lparen _ after
    exact atomic.stops
  | ⟨.atomic (some (.builtin ns)) pid, is⟩ =>
    simp only [Substitution.representable, Ref.representable, Bool.and_eq_true] at h
    obtain ⟨⟨⟨⟨nsOk, pidOk⟩, -⟩, -⟩, inputs⟩ := h
    have atomic := (ParameterizedId.prints_layout pidOk).append
      (prints_parenthesized (Input.prints_layouts is inputs)) fun after _ => link_mark .lparen _ after
    have scope : Prints (ns.layout ++ [Piece.mark .scope]) fun _ => True :=
      (ParameterizedId.prints_layout nsOk).before_mark .scope (by decide)
    exact (scope.append atomic fun _ _ => trivial).stops
  | ⟨.atomic (some (.computed _)) _, _⟩ => simp [Substitution.representable, Ref.representable] at h
  | ⟨.var v, _⟩ =>
    simp only [Substitution.representable, Ref.representable, Bool.and_eq_true] at h
    exact prints_word h.1.1.1
  | ⟨.resolved v, _⟩ =>
    simp only [Substitution.representable, Ref.representable, Bool.and_eq_true] at h
    have args : Prints [Piece.mark .lparen, Piece.word (ofText v), Piece.mark .rparen] fun _ => True :=
      (prints_mark .lparen (by decide)).cons ((prints_word h.1.1.1).before_mark .rparen (by decide))
        fun _ _ => trivial
    exact ((prints_word (show isIdentText "resolved" = true by decide)).cons args fun after _ => link_mark .lparen _ after).stops
  | ⟨.nested n, is⟩ =>
    simp only [Substitution.representable, Ref.representable, Bool.and_eq_true] at h
    obtain ⟨⟨⟨inner, -⟩, -⟩, inputs⟩ := h
    have close : Prints (Piece.mark .rparen :: nestedInputs (Input.layouts is)) Stops :=
      (prints_mark .rparen (by decide)).cons (prints_nestedInputs (Input.prints_layouts is inputs))
        fun _ _ => trivial
    exact (prints_mark .lparen (by decide)).cons
      ((Name.prints_layout n inner).append close (link_opens (opens_mark .rparen _))) fun _ _ => trivial

theorem Input.prints_layouts (is : List Input) (h : Input.representableList is = true) :
    ∀ l ∈ Input.layouts is, Prints l Stops := by
  match is with
  | [] => simp [Input.layouts]
  | ⟨id, out⟩ :: is =>
    simp only [Input.representableList, Bool.and_eq_true] at h
    obtain ⟨⟨named, valid⟩, rest⟩ := h
    have value := OutputRef.prints_layout out valid
    intro l mem
    rcases List.mem_cons.mp mem with rfl | inRest
    · cases id with
      | none => exact value
      | some a =>
        simp only [Option.all_some, Bool.and_eq_true] at named
        -- the colon has a blank after it, so it is never read as part of `::`
        have colon : Prints ((Piece.mark .colon).withBlank :: out.layout) Stops :=
          prints_colon_blank.cons value fun _ _ => trivial
        exact (prints_word named.1).cons colon (link_opens (opens_mark_blank .colon _))
    · exact Input.prints_layouts is rest l inRest

theorem OutputRef.prints_layout (out : OutputRef) (h : out.representable = true) :
    Prints out.layout Stops := by
  match out with
  | ⟨sub, none⟩ =>
    simp only [OutputRef.representable, Bool.and_eq_true] at h
    exact Substitution.prints_layout sub h.1
  | ⟨sub, some o⟩ =>
    simp only [OutputRef.representable, Bool.and_eq_true, Option.all_some] at h
    have output : Prints [Piece.mark .dot, Piece.word (ofText o)] Stops :=
      (prints_mark .dot (by decide)).cons (prints_word h.2) fun _ _ => trivial
    exact (Substitution.prints_layout sub h.1).append output (link_opens (opens_mark .dot _))

end

theorem Name.scan_render {n : Name} (h : n.representable = true) :
    (scan n.render).map Token.lexeme = n.layout.map Piece.lexeme := by
  have fits := (Name.prints_layout n h).fits none (by simp [Stops])
  obtain ⟨toks, scanned, lexemes⟩ := tokensFrom_spell n.layout none fits 0 [] rfl
  rw [List.append_nil] at scanned
  rw [Name.render, scan_eq_tokensFrom, scanned, tokensFrom_nil, List.append_nil, lexemes]

theorem Name.clean_render {n : Name} (h : n.representable = true) :
    ∀ c ∈ n.render, c ≠ 0 ∧ c.isValidChar :=
  (Name.prints_layout n h).clean

end ArtifactNames
