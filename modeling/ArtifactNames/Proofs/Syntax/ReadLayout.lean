import ArtifactNames.Proofs.Name.Render
import ArtifactNames.Syntax.Parser

/-! Reading printed tokens back into a syntax tree. Main statement (`Name.reads`): the tokens of a
representable name, followed by nothing or by `)`, read as the name's tree. -/

namespace ArtifactNames

open Syntax Text

def Reads {α : Type} {P : List Token → Prop} (r : Except Rejection (α × {rest : List Token // P rest}))
    (a : α) (rest : List Token) : Prop :=
  ∃ h, r = .ok (a, ⟨rest, h⟩)

def Lexed (toks : List Token) (ps : List Piece) : Prop := toks.map Token.lexeme = ps.map Piece.lexeme

theorem lexed_nil {toks : List Token} : Lexed toks [] ↔ toks = [] := by simp [Lexed]

theorem lexed_cons {toks : List Token} {p : Piece} {ps : List Piece} :
    Lexed toks (p :: ps) ↔ ∃ start ts, toks = ⟨p.kind, start, p.text⟩ :: ts ∧ Lexed ts ps := by
  constructor
  · intro h
    match toks, h with
    | ⟨kind, start, text⟩ :: ts, h =>
      simp only [Lexed, List.map_cons, List.cons.injEq, Token.lexeme, Piece.lexeme, Prod.mk.injEq] at h
      obtain ⟨⟨rfl, rfl⟩, rest⟩ := h
      exact ⟨start, ts, rfl, rest⟩
  · rintro ⟨start, ts, rfl, h⟩
    simp only [Lexed, List.map_cons, Token.lexeme, Piece.lexeme, List.cons.injEq, true_and]
    exact h

theorem lexed_append {toks : List Token} {A B : List Piece} :
    Lexed toks (A ++ B) ↔ ∃ t1 t2, toks = t1 ++ t2 ∧ Lexed t1 A ∧ Lexed t2 B := by
  simp only [Lexed, List.map_append]
  exact List.map_eq_append_iff

theorem ofText_inj {v w : String} : ofText v = ofText w ↔ v = w :=
  ⟨fun h => by rw [← toText_ofText v, h, toText_ofText], congrArg ofText⟩

@[simp] theorem isWord_ofText (start : Nat) (v w : String) :
    (⟨.word, start, ofText v⟩ : Token).isWord w = (v == w) := by
  show ((TokenKind.word == .word) && (ofText v == ofText w)) = (v == w)
  rw [beq_self_eq_true, Bool.true_and, Bool.eq_iff_iff, beq_iff_eq, beq_iff_eq]
  exact ofText_inj

@[simp] theorem isPunct_mk (kind : TokenKind) (start : Nat) (text : List Nat) (p : Punct) :
    (⟨kind, start, text⟩ : Token).isPunct p = (kind == .punct p) := rfl

theorem reads_ok {α : Type} {P : List Token → Prop} {a a' : α} {x : {rest : List Token // P rest}}
    (h : a' = a) : Reads (.ok (a', x) : Except Rejection (α × {rest : List Token // P rest})) a x.val :=
  ⟨x.property, by rw [h]⟩

theorem Reads.of_toks_eq {α : Type} {P : List Token → List Token → Prop}
    (f : (ts : List Token) → Except Rejection (α × {r : List Token // P ts r})) {ts ts' : List Token}
    {a : α} {rest : List Token} (h : Reads (f ts) a rest) (eq : ts = ts') : Reads (f ts') a rest := by
  subst eq
  exact h

theorem expectPunct_punct (p : Punct) (start : Nat) (text : List Nat) (rest : List Token) :
    expectPunct p (⟨.punct p, start, text⟩ :: rest) = .ok ⟨rest, Nat.lt_succ_self _⟩ := by
  simp [expectPunct]

theorem ident_word (start : Nat) (text : List Nat) (rest : List Token) :
    ident (⟨.word, start, text⟩ :: rest) = .ok (.token "IDENT" text, ⟨rest, Nat.lt_succ_self _⟩) := by
  simp [ident, identNode]

theorem Parameter.reads {p : Parameter} {toks : List Token} (lexed : Lexed toks p.layout)
    (rest : List Token) : Reads (param (toks ++ rest)) p.tree rest := by
  rw [Parameter.layout] at lexed
  obtain ⟨s1, ts, rfl, key⟩ := lexed_cons.mp lexed
  obtain ⟨s2, ts, rfl, assign⟩ := lexed_cons.mp key
  obtain ⟨s3, ts, rfl, value⟩ := lexed_cons.mp assign
  obtain rfl := lexed_nil.mp value
  exact ⟨_, rfl⟩


theorem moreParams_reads (ps : List Parameter) {toks : List Token}
    (lexed : Lexed toks (separated (ps.map Parameter.layout))) (rest : List Token)
    (stop : ∀ t ∈ rest.head?, t.isPunct .comma = false) (acc : Array Node) :
    Reads (moreParams (toks ++ rest) acc) (acc ++ (ps.map Parameter.tree).toArray) rest := by
  induction ps generalizing toks acc with
  | nil =>
    obtain rfl := lexed_nil.mp lexed
    have same : acc ++ (([] : List Parameter).map Parameter.tree).toArray = acc := by simp
    rw [same, List.nil_append]
    cases rest with
    | nil => rw [moreParams]; exact ⟨_, rfl⟩
    | cons t r =>
      rw [moreParams, if_neg (by simpa using stop t rfl)]
      exact ⟨_, rfl⟩
  | cons p ps ih =>
    rw [List.map_cons, separated] at lexed
    obtain ⟨s, ts, rfl, items⟩ := lexed_cons.mp lexed
    obtain ⟨pt, st, rfl, first, more⟩ := lexed_append.mp items
    obtain ⟨h1, e1⟩ := Parameter.reads first (st ++ rest)
    obtain ⟨h2, e2⟩ := ih more (acc.push p.tree)
    have pushed : acc ++ ((p :: ps).map Parameter.tree).toArray =
        acc.push p.tree ++ (ps.map Parameter.tree).toArray := by simp
    rw [List.cons_append, List.append_assoc, moreParams, if_pos (by rfl), e1, pushed]
    simp only [e2]
    exact ⟨_, rfl⟩


theorem params_reads (p : Parameter) (ps : List Parameter) {toks : List Token}
    (lexed : Lexed toks (paramsLayout (p :: ps))) (rest : List Token) :
    Reads (params (toks ++ rest)) (paramsTree (p :: ps)) rest := by
  rw [paramsLayout, List.map_cons, commaSep] at lexed
  obtain ⟨s, ts, rfl, inner⟩ := lexed_cons.mp lexed
  obtain ⟨it, ct, rfl, items, close⟩ := lexed_append.mp inner
  obtain ⟨sc, ct, rfl, closed⟩ := lexed_cons.mp close
  obtain rfl := lexed_nil.mp closed
  obtain ⟨pt, st, rfl, first, more⟩ := lexed_append.mp items
  obtain ⟨h1, e1⟩ := Parameter.reads first (st ++ ⟨.punct .rbracket, sc, Punct.spelling .rbracket⟩ :: rest)
  obtain ⟨h2, e2⟩ := moreParams_reads ps more (⟨.punct .rbracket, sc, Punct.spelling .rbracket⟩ :: rest)
    (by simp) #[p.tree]
  rw [Parameter.layout] at first
  obtain ⟨sk, kt, rfl, -⟩ := lexed_cons.mp first
  simp only [List.cons_append, Piece.kind_word, Piece.text_word,
    Piece.kind_mark, Piece.text_mark] at e1 e2 ⊢
  simp only [params, expectPunct_punct, isPunct_mk, reduceCtorEq, beq_iff_eq, ↓reduceIte, List.cons_append,
    List.append_assoc, List.nil_append, e1, e2]
  exact reads_ok (by simp [paramsTree])

theorem ParameterizedId.reads (p : ParameterizedId) {toks : List Token} (lexed : Lexed toks p.layout)
    (rest : List Token) (stop : ∀ t ∈ rest.head?, t.isPunct .lbracket = false) :
    Reads (pid (toks ++ rest)) p.tree rest := by
  rw [ParameterizedId.layout] at lexed
  obtain ⟨s, pt, rfl, ps⟩ := lexed_cons.mp lexed
  cases hp : p.params with
  | nil =>
    rw [hp, paramsLayout] at ps
    obtain rfl := lexed_nil.mp ps
    have tree : p.tree = .tree "parameterized_id" [identTree p.id, .absent] := by
      simp [ParameterizedId.tree, hp, paramsTree]
    rw [tree]
    cases rest with
    | nil => exact ⟨_, rfl⟩
    | cons t r =>
      have notBracket := stop t rfl
      simp only [pid, Piece.kind_word, Piece.text_word, List.cons_append, List.nil_append, ident_word,
        notBracket, Bool.false_eq_true, ↓reduceIte]
      exact reads_ok rfl
  | cons q qs =>
    rw [hp] at ps
    obtain ⟨h1, e1⟩ := params_reads q qs ps rest
    have tree : p.tree = .tree "parameterized_id" [identTree p.id, paramsTree (q :: qs)] := by
      simp [ParameterizedId.tree, hp]
    rw [tree]
    rw [paramsLayout] at ps
    obtain ⟨sb, bt, rfl, -⟩ := lexed_cons.mp ps
    simp only [List.cons_append, Piece.kind_mark, Piece.text_mark, Piece.kind_word, Piece.text_word] at e1 ⊢
    simp only [pid, ident_word, isPunct_mk, beq_self_eq_true, ↓reduceIte, e1]
    exact reads_ok rfl

/-! ## One step of each reading function -/

theorem multiary_reads {t : Token} {ts rest : List Token} {m : Node} (notAt : t.isPunct .at = false)
    (h : Reads (inputList .absent (t :: ts)) m rest) : Reads (multiary (t :: ts)) m rest := by
  rw [multiary, if_neg (by simp [notAt])]
  exact h

theorem inputList_empty (s1 s2 : Nat) (x1 x2 : List Nat) (rest : List Token) :
    Reads (inputList .absent (⟨.punct .lparen, s1, x1⟩ :: ⟨.punct .rparen, s2, x2⟩ :: rest))
      (multiaryTree []) rest := by
  rw [inputList]
  simp only [expectPunct_punct, isPunct_mk, beq_self_eq_true, ↓reduceIte]
  exact reads_ok rfl

theorem inputList_items {ft more rest : List Token} {n : Node} {ns : Array Node} (s1 s2 : Nat)
    (x1 x2 : List Nat) (nonempty : ft ≠ []) (open' : ∀ t ∈ ft.head?, t.isPunct .rparen = false)
    (first : Reads (spec (ft ++ more)) n more)
    (others : Reads (moreSpecs more #[n]) ns (⟨.punct .rparen, s2, x2⟩ :: rest)) :
    Reads (inputList .absent (⟨.punct .lparen, s1, x1⟩ :: (ft ++ more)))
      (.tree "multiary" [.absent, .tree "spec_list" ns.toList]) rest := by
  obtain ⟨t, ts, rfl⟩ := List.exists_cons_of_ne_nil nonempty
  rw [List.cons_append] at first ⊢
  obtain ⟨h1, e1⟩ := first
  obtain ⟨h2, e2⟩ := others
  rw [inputList]
  simp only [expectPunct_punct, open' t rfl, Bool.false_eq_true, ↓reduceIte, e1, e2]
  exact reads_ok rfl

theorem moreSpecs_stop {rest : List Token} (stop : ∀ t ∈ rest.head?, t.isPunct .comma = false)
    (acc : Array Node) : Reads (moreSpecs rest acc) acc rest := by
  cases rest with
  | nil => rw [moreSpecs]; exact ⟨_, rfl⟩
  | cons t r =>
    rw [moreSpecs, if_neg (by simpa using stop t rfl)]
    exact ⟨_, rfl⟩

theorem moreSpecs_comma {ts more rest : List Token} {n : Node} {acc out : Array Node} (s : Nat) (x : List Nat)
    (first : Reads (spec ts) n more) (others : Reads (moreSpecs more (acc.push n)) out rest) :
    Reads (moreSpecs (⟨.punct .comma, s, x⟩ :: ts) acc) out rest := by
  obtain ⟨h1, e1⟩ := first
  obtain ⟨h2, e2⟩ := others
  rw [moreSpecs, if_pos (by rfl), e1]
  simp only [e2]
  exact reads_ok rfl

theorem spec_named {a : String} {ts rest : List Token} {out : Node} (s1 s2 : Nat) (x : List Nat)
    (notResolved : a ≠ "resolved") (h : Reads (outputRef ts) out rest) :
    Reads (spec (⟨.word, s1, ofText a⟩ :: ⟨.punct .colon, s2, x⟩ :: ts))
      (.tree "substitution_spec" [identTree a, out]) rest := by
  obtain ⟨h1, e1⟩ := h
  have keyword : (a == "resolved") = false := by simpa using notResolved
  rw [spec]
  simp only [isWord_ofText, isPunct_mk, beq_self_eq_true, keyword, Bool.not_false,
    Bool.and_self, ↓reduceIte, e1]
  exact reads_ok rfl

theorem spec_positional {ts rest : List Token} {out : Node}
    (notNamed : ∀ t c r, ts = t :: c :: r → t.kind = .word → t.isWord "resolved" = false →
      c.isPunct .colon = false)
    (h : Reads (outputRef ts) out rest) :
    Reads (spec ts) (.tree "substitution_spec" [.absent, out]) rest := by
  obtain ⟨h1, e1⟩ := h
  unfold spec
  split
  · rename_i t c r
    have plain := notNamed t c r rfl
    rw [if_neg]
    · simp only [e1]
      exact reads_ok rfl
    · intro named
      simp only [Bool.and_eq_true, beq_iff_eq, Bool.not_eq_true'] at named
      rw [plain named.1.1 named.1.2] at named
      exact absurd named.2 (by simp)
  · simp only [e1]
    exact reads_ok rfl

theorem outputRef_plain {ts rest : List Token} {sub : Node} (h : Reads (substitution ts) sub rest)
    (stop : ∀ t ∈ rest.head?, t.isPunct .dot = false) :
    Reads (outputRef ts) (.tree "output_ref" [sub, .absent]) rest := by
  obtain ⟨h1, e1⟩ := h
  rw [outputRef, e1]
  cases rest with
  | nil => exact reads_ok rfl
  | cons t r =>
    simp only [stop t rfl, Bool.false_eq_true, ↓reduceIte]
    exact reads_ok rfl

theorem outputRef_named {ts rest : List Token} {sub : Node} {o : String} (s1 s2 : Nat) (x : List Nat)
    (h : Reads (substitution ts) sub (⟨.punct .dot, s1, x⟩ :: ⟨.word, s2, ofText o⟩ :: rest)) :
    Reads (outputRef ts) (.tree "output_ref" [sub, identTree o]) rest := by
  obtain ⟨h1, e1⟩ := h
  rw [outputRef, e1]
  simp only [isPunct_mk, beq_self_eq_true, ↓reduceIte, ident_word]
  exact reads_ok rfl

theorem substitution_word {v : String} {ts rest : List Token} {sub : Node} (s : Nat)
    (notResolved : v ≠ "resolved") (h : Reads (atomicOrVariable ⟨.word, s, ofText v⟩ ts) sub rest) :
    Reads (substitution (⟨.word, s, ofText v⟩ :: ts)) sub rest := by
  obtain ⟨h1, e1⟩ := h
  have keyword : (v == "resolved") = false := by simpa using notResolved
  rw [substitution]
  simp only [isWord_ofText, keyword, Bool.false_eq_true, ↓reduceIte, beq_self_eq_true, e1]
  exact reads_ok rfl

theorem substitution_resolved (v : String) (s1 s2 s3 s4 : Nat) (x2 x4 : List Nat) (rest : List Token) :
    Reads (substitution (⟨.word, s1, ofText "resolved"⟩ :: ⟨.punct .lparen, s2, x2⟩ ::
      ⟨.word, s3, ofText v⟩ :: ⟨.punct .rparen, s4, x4⟩ :: rest))
      (.tree "substitution" [.tree "resolved_ref" [identTree v]]) rest := by
  rw [substitution]
  simp only [isWord_ofText, beq_self_eq_true, ↓reduceIte, expectPunct_punct, ident_word]
  exact reads_ok rfl

theorem substitution_nested {ts more rest : List Token} {inner : Node} (s1 s2 : Nat) (x1 x2 : List Nat)
    (h : Reads (name ts) inner (⟨.punct .rparen, s2, x2⟩ :: more))
    (stop : startsInputs rest = false) (plain : more = rest) :
    Reads (substitution (⟨.punct .lparen, s1, x1⟩ :: ts))
      (.tree "substitution" [.tree "nested_ref" [inner], .absent]) rest := by
  subst plain
  obtain ⟨h1, e1⟩ := h
  rw [substitution]
  simp only [isPunct_mk, beq_self_eq_true, ↓reduceIte, Bool.false_eq_true, e1,
    expectPunct_punct, stop]
  exact reads_ok rfl

theorem substitution_nested_inputs {ts more rest : List Token} {inner m : Node} (s1 s2 : Nat)
    (x1 x2 : List Nat) (h : Reads (name ts) inner (⟨.punct .rparen, s2, x2⟩ :: more))
    (inputs : startsInputs more = true) (hm : Reads (multiary more) m rest) :
    Reads (substitution (⟨.punct .lparen, s1, x1⟩ :: ts))
      (.tree "substitution" [.tree "nested_ref" [inner], m]) rest := by
  obtain ⟨h1, e1⟩ := h
  obtain ⟨h2, e2⟩ := hm
  rw [substitution]
  simp only [isPunct_mk, beq_self_eq_true, ↓reduceIte, e1,
    expectPunct_punct, inputs, e2]
  exact reads_ok rfl

theorem afterPid_inputs {t : Token} {ts rest : List Token} {m : Node} (first : Node)
    (paren : t.isPunct .lparen = true) (h : Reads (multiary (t :: ts)) m rest) :
    Reads (afterPid first (t :: ts)) (.tree "substitution" [.tree "atomic_ref" [.absent, first], m]) rest := by
  obtain ⟨h1, e1⟩ := h
  have notScope : t.isPunct .scope = false := by
    simp only [Token.isPunct, beq_iff_eq] at paren ⊢
    simp [paren]
  rw [afterPid]
  simp only [notScope, startsInputs, paren, Bool.true_or, Bool.false_eq_true, ↓reduceIte, e1]
  exact reads_ok rfl

theorem afterPid_scope {ts more rest : List Token} {id m : Node} (first : Node) (s : Nat) (x : List Nat)
    (hid : Reads (pid ts) id more) (hm : Reads (multiary more) m rest) :
    Reads (afterPid first (⟨.punct .scope, s, x⟩ :: ts))
      (.tree "substitution" [.tree "atomic_ref" [.tree "builtin_namespace" [first], id], m]) rest := by
  obtain ⟨h1, e1⟩ := hid
  obtain ⟨h2, e2⟩ := hm
  rw [afterPid]
  simp only [isPunct_mk, beq_self_eq_true, ↓reduceIte, e1, e2]
  exact reads_ok rfl

theorem atomicOrVariable_var (w : Token) (rest : List Token)
    (stop : ∀ t ∈ rest.head?, t.isPunct .lbracket = false ∧ t.isPunct .scope = false ∧
      startsInputs [t] = false) :
    Reads (atomicOrVariable w rest) (.tree "substitution" [.tree "variable_ref" [identNode w]]) rest := by
  cases rest with
  | nil => rw [atomicOrVariable]; exact reads_ok rfl
  | cons t r =>
    obtain ⟨notBracket, notScope, noInputs⟩ := stop t rfl
    have noInputs' : startsInputs (t :: r) = false := by simpa [startsInputs] using noInputs
    rw [atomicOrVariable]
    simp only [notBracket, notScope, noInputs', Bool.false_or, Bool.false_eq_true, ↓reduceIte]
    exact reads_ok rfl

theorem atomicOrVariable_pid (w : Token) (ps : List Parameter) {pt : List Token} {t : Token}
    {ts rest : List Token} {sub : Node} (lexed : Lexed pt (paramsLayout ps))
    (next : t.isPunct .lbracket = false) (goesOn : (t.isPunct .scope || startsInputs (t :: ts)) = true)
    (h : Reads (afterPid (.tree "parameterized_id" [identNode w, paramsTree ps]) (t :: ts)) sub rest) :
    Reads (atomicOrVariable w (pt ++ t :: ts)) sub rest := by
  obtain ⟨h1, e1⟩ := h
  cases ps with
  | nil =>
    obtain rfl := lexed_nil.mp lexed
    rw [List.nil_append, atomicOrVariable]
    simp only [next, goesOn, Bool.false_eq_true, ↓reduceIte]
    rw [paramsTree] at e1
    simp only [e1]
    exact reads_ok rfl
  | cons q qs =>
    obtain ⟨h2, e2⟩ := params_reads q qs lexed (t :: ts)
    rw [paramsLayout] at lexed
    obtain ⟨sb, bt, rfl, -⟩ := lexed_cons.mp lexed
    simp only [List.cons_append, Piece.kind_mark, Piece.text_mark] at e2 ⊢
    rw [atomicOrVariable]
    simp only [isPunct_mk, beq_self_eq_true, ↓reduceIte, e2, e1]
    exact reads_ok rfl

theorem declarations_stop {rest : List Token} (stop : ∀ t ∈ rest.head?, t.isWord "let" = false)
    (acc : Array Node) : Reads (declarations rest acc) acc rest := by
  cases rest with
  | nil => rw [declarations]; exact ⟨_, rfl⟩
  | cons t r =>
    rw [declarations, if_neg (by simpa using stop t rfl)]
    exact ⟨_, rfl⟩

theorem declarations_let {ts more rest : List Token} {d : Node} {acc out : Array Node} (s : Nat)
    (first : Reads (declaration ts) d more) (others : Reads (declarations more (acc.push d)) out rest) :
    Reads (declarations (⟨.word, s, ofText "let"⟩ :: ts) acc) out rest := by
  obtain ⟨h1, e1⟩ := first
  obtain ⟨h2, e2⟩ := others
  rw [declarations]
  simp only [isWord_ofText, beq_self_eq_true, ↓reduceIte, e1, e2]
  exact reads_ok rfl

theorem declaration_binder (var : Option String) {ts rest : List Token} {sub : Node} (s1 s2 s3 : Nat)
    (x2 x3 : List Nat) (h : Reads (substitution ts) sub (⟨.punct .semicolon, s3, x3⟩ :: rest)) :
    Reads (declaration (⟨(binder var).kind, s1, (binder var).text⟩ :: ⟨.punct .assign, s2, x2⟩ :: ts))
      (.tree "declaration" [bindingTree var, sub]) rest := by
  obtain ⟨h1, e1⟩ := h
  rw [declaration]
  cases var with
  | none =>
    simp only [binder, Piece.kind_withBlank, Piece.kind_blank, Piece.text_withBlank, beq_self_eq_true,
      ↓reduceIte, expectPunct_punct, e1]
    exact reads_ok rfl
  | some v =>
    simp only [binder, Piece.kind_withBlank, Piece.kind_word, Piece.text_withBlank, Piece.text_word,
      beq_self_eq_true, ↓reduceIte, expectPunct_punct, e1]
    exact reads_ok rfl

theorem name_reads {ts more rest : List Token} {ds : Array Node} {sub : Node}
    (decls : Reads (declarations ts #[]) ds more) (term : Reads (substitution more) sub rest) :
    Reads (name ts) (.tree "name" [.tree "declarations" ds.toList, sub]) rest := by
  obtain ⟨h1, e1⟩ := decls
  obtain ⟨h2, e2⟩ := term
  rw [name, e1]
  simp only [e2]
  exact reads_ok rfl

/-! ## What may follow a part -/

def Closes (ps : List Punct) (rest : List Token) : Prop :=
  ∀ t ∈ rest.head?, ∃ p ∈ ps, t.kind = .punct p

theorem Closes.isPunct {ps : List Punct} {rest : List Token} (h : Closes ps rest) {q : Punct}
    (hq : q ∉ ps) : ∀ t ∈ rest.head?, t.isPunct q = false := by
  intro t ht
  obtain ⟨p, hp, kind⟩ := h t ht
  simp only [Token.isPunct, kind, beq_eq_false_iff_ne, ne_eq, TokenKind.punct.injEq]
  rintro rfl
  exact hq hp

theorem Closes.isWord {ps : List Punct} {rest : List Token} (h : Closes ps rest) (w : String) :
    ∀ t ∈ rest.head?, t.isWord w = false := by
  intro t ht
  obtain ⟨p, -, kind⟩ := h t ht
  simp [Token.isWord, kind]

theorem Closes.mono {ps qs : List Punct} {rest : List Token} (h : Closes ps rest)
    (sub : ∀ p ∈ ps, p ∈ qs) : Closes qs rest := by
  intro t ht
  obtain ⟨p, hp, kind⟩ := h t ht
  exact ⟨p, sub p hp, kind⟩

theorem closes_punct {p : Punct} {ps : List Punct} (hp : p ∈ ps) (s : Nat) (x : List Nat)
    (rest : List Token) : Closes ps (⟨.punct p, s, x⟩ :: rest) := by
  intro t ht
  cases ht
  exact ⟨p, hp, rfl⟩

theorem Closes.noInputs {ps : List Punct} {rest : List Token} (h : Closes ps rest)
    (hl : .lparen ∉ ps) (ha : .at ∉ ps) : startsInputs rest = false := by
  cases rest with
  | nil => rfl
  | cons t r => simp [startsInputs, h.isPunct hl t rfl, h.isPunct ha t rfl]

/-! ## First tokens -/

def Substitution.firstPiece : Substitution → Piece
  | ⟨.atomic none pid, _⟩ => .word (ofText pid.id)
  | ⟨.atomic (some (.builtin ns)) _, _⟩ => .word (ofText ns.id)
  | ⟨.atomic (some (.computed _)) _, _⟩ => .mark .lbrace
  | ⟨.var v, _⟩ => .word (ofText v)
  | ⟨.resolved _, _⟩ => .word (ofText "resolved")
  | ⟨.nested _, _⟩ => .mark .lparen

def Input.firstPiece : Input → Piece
  | ⟨some a, _⟩ => .word (ofText a)
  | ⟨none, out⟩ => out.sub.firstPiece

theorem Substitution.layout_head (s : Substitution) : ∃ ps, s.layout = s.firstPiece :: ps := by
  match s with
  | ⟨.atomic none pid, is⟩ =>
    exact ⟨paramsLayout pid.params ++ parenthesized (Input.layouts is), by
      simp [Substitution.layout, Substitution.firstPiece, Namespace.layoutOpt, ParameterizedId.layout]⟩
  | ⟨.atomic (some (.builtin ns)) pid, is⟩ =>
    exact ⟨paramsLayout ns.params ++ [Piece.mark .scope] ++ (pid.layout ++ parenthesized (Input.layouts is)), by
      simp [Substitution.layout, Substitution.firstPiece, Namespace.layoutOpt, ParameterizedId.layout]⟩
  | ⟨.atomic (some (.computed out)) pid, is⟩ =>
    exact ⟨out.layout ++ [Piece.mark .rbrace, Piece.mark .scope] ++ (pid.layout ++ parenthesized (Input.layouts is)),
      by simp [Substitution.layout, Substitution.firstPiece, Namespace.layoutOpt]⟩
  | ⟨.var v, _⟩ => exact ⟨[], rfl⟩
  | ⟨.resolved v, _⟩ => exact ⟨_, rfl⟩
  | ⟨.nested n, is⟩ => exact ⟨_, rfl⟩

theorem OutputRef.layout_head (out : OutputRef) : ∃ ps, out.layout = out.sub.firstPiece :: ps := by
  obtain ⟨ps, head⟩ := out.sub.layout_head
  match out with
  | ⟨sub, none⟩ => exact ⟨ps, head⟩
  | ⟨sub, some o⟩ => exact ⟨ps ++ [Piece.mark .dot, Piece.word (ofText o)], by simp [OutputRef.layout, head]⟩

theorem Input.layout_head (i : Input) : ∃ ps, i.layout = i.firstPiece :: ps := by
  match i with
  | ⟨some a, out⟩ => exact ⟨_, rfl⟩
  | ⟨none, out⟩ => exact out.layout_head

theorem Substitution.firstPiece_kind (s : Substitution) : s.firstPiece.kind ≠ .punct .rparen := by
  match s with
  | ⟨.atomic none _, _⟩ | ⟨.atomic (some (.builtin _)) _, _⟩ | ⟨.var _, _⟩ | ⟨.resolved _, _⟩ =>
    simp [Substitution.firstPiece]
  | ⟨.atomic (some (.computed _)) _, _⟩ | ⟨.nested _, _⟩ => simp [Substitution.firstPiece]

theorem Input.firstPiece_kind (i : Input) : i.firstPiece.kind ≠ .punct .rparen := by
  match i with
  | ⟨some a, _⟩ => simp [Input.firstPiece]
  | ⟨none, out⟩ => exact out.sub.firstPiece_kind

theorem Substitution.firstPiece_not_let (s : Substitution) (h : s.ref.leadingWord ≠ some "let")
    (start : Nat) : (⟨s.firstPiece.kind, start, s.firstPiece.text⟩ : Token).isWord "let" = false := by
  match s with
  | ⟨.atomic none pid, _⟩ | ⟨.atomic (some (.builtin pid)) _, _⟩ | ⟨.var pid, _⟩ =>
    simpa [Substitution.firstPiece, Ref.leadingWord] using h
  | ⟨.resolved _, _⟩ => simp [Substitution.firstPiece]
  | ⟨.atomic (some (.computed _)) _, _⟩ | ⟨.nested _, _⟩ => simp [Substitution.firstPiece, Token.isWord]

/-! ## A positional input is not read as a named one -/

theorem lexed_second {toks more : List Token} {p q : Piece} {ps : List Piece} (lexed : Lexed toks (p :: q :: ps))
    {t c : Token} {r : List Token} (split : toks ++ more = t :: c :: r) : c.kind = q.kind := by
  obtain ⟨s1, t1, rfl, l1⟩ := lexed_cons.mp lexed
  obtain ⟨s2, t2, rfl, -⟩ := lexed_cons.mp l1
  simp only [List.cons_append, List.cons.injEq] at split
  rw [← split.2.1]

theorem second_of_params (ps : List Parameter) (more : List Piece) (open' : Opens more) (nonempty : more ≠ [])
    (plain : ∀ p ∈ more.head?, p.kind ≠ .punct .colon) :
    ∃ q qs, paramsLayout ps ++ more = q :: qs ∧ q.kind ≠ .punct .colon := by
  cases ps with
  | nil =>
    obtain ⟨q, qs, rfl⟩ := List.exists_cons_of_ne_nil nonempty
    exact ⟨q, qs, rfl, plain q rfl⟩
  | cons p ps => exact ⟨_, _, rfl, by simp⟩

theorem Substitution.not_named (s : Substitution) (h : s.representable = true) {toks more : List Token}
    (lexed : Lexed toks s.layout) (after : ∀ c ∈ more.head?, c.isPunct .colon = false) :
    ∀ t c r, toks ++ more = t :: c :: r → t.kind = .word → t.isWord "resolved" = false →
      c.isPunct .colon = false := by
  intro t c r split word notResolved
  match s with
  | ⟨.atomic none pid, is⟩ =>
    obtain ⟨q, qs, eq, notColon⟩ := second_of_params pid.params (parenthesized (Input.layouts is))
      (opens_mark .lparen _) (by simp [parenthesized]) (by simp [parenthesized])
    rw [show Substitution.layout ⟨.atomic none pid, is⟩ = Piece.word (ofText pid.id) :: q :: qs by
      simp [Substitution.layout, Namespace.layoutOpt, ParameterizedId.layout, eq]] at lexed
    simp [Token.isPunct, lexed_second lexed split, notColon]
  | ⟨.atomic (some (.builtin ns)) pid, is⟩ =>
    obtain ⟨q, qs, eq, notColon⟩ := second_of_params ns.params
      (Piece.mark .scope :: (pid.layout ++ parenthesized (Input.layouts is))) (opens_mark .scope _) (by simp)
      (by simp)
    rw [show Substitution.layout ⟨.atomic (some (.builtin ns)) pid, is⟩ = Piece.word (ofText ns.id) :: q :: qs by
      simp [Substitution.layout, Namespace.layoutOpt, ParameterizedId.layout, ← eq]] at lexed
    simp [Token.isPunct, lexed_second lexed split, notColon]
  | ⟨.atomic (some (.computed _)) _, _⟩ => simp [Substitution.representable, Ref.representable] at h
  | ⟨.var v, _⟩ =>
    -- a variable is one token, so the token after it comes from what follows
    obtain ⟨s1, t1, rfl, l1⟩ := lexed_cons.mp lexed
    obtain rfl := lexed_nil.mp l1
    simp only [List.cons_append, List.nil_append, List.cons.injEq] at split
    obtain ⟨-, rfl⟩ := split
    exact after c rfl
  | ⟨.resolved v, _⟩ =>
    obtain ⟨s1, t1, rfl, -⟩ := lexed_cons.mp lexed
    simp only [List.cons_append, List.cons.injEq] at split
    obtain ⟨rfl, -⟩ := split
    simp at notResolved
  | ⟨.nested n, _⟩ =>
    obtain ⟨s1, t1, rfl, -⟩ := lexed_cons.mp lexed
    simp only [List.cons_append, List.cons.injEq] at split
    obtain ⟨rfl, -⟩ := split
    simp at word

theorem OutputRef.not_named (out : OutputRef) (h : out.representable = true) {toks rest : List Token}
    (lexed : Lexed toks out.layout) (closes : Closes [.rparen, .comma] rest) :
    ∀ t c r, toks ++ rest = t :: c :: r → t.kind = .word → t.isWord "resolved" = false →
      c.isPunct .colon = false := by
  match out with
  | ⟨sub, none⟩ =>
    simp only [OutputRef.representable, Bool.and_eq_true] at h
    exact sub.not_named h.1 lexed (closes.isPunct (by simp))
  | ⟨sub, some o⟩ =>
    simp only [OutputRef.representable, Bool.and_eq_true] at h
    rw [OutputRef.layout] at lexed
    obtain ⟨st, ot, rfl, subLexed, outLexed⟩ := lexed_append.mp lexed
    obtain ⟨s1, t1, rfl, -⟩ := lexed_cons.mp outLexed
    rw [List.append_assoc]
    exact sub.not_named h.1 subLexed (by simp)

theorem closes_separated {items : List (List Piece)} {st : List Token} (lexed : Lexed st (separated items))
    {ps : List Punct} (comma : .comma ∈ ps) {rest : List Token} (closes : Closes ps rest) :
    Closes ps (st ++ rest) := by
  cases items with
  | nil =>
    rw [separated] at lexed
    obtain rfl := lexed_nil.mp lexed
    exact closes
  | cons y ys =>
    rw [separated] at lexed
    obtain ⟨s, ts, rfl, -⟩ := lexed_cons.mp lexed
    exact closes_punct comma s _ _

/-! ## Names -/

mutual

theorem Name.reads (n : Name) (h : n.representable = true) {toks : List Token} (lexed : Lexed toks n.layout)
    (rest : List Token) (closes : Closes [.rparen] rest) : Reads (name (toks ++ rest)) n.tree rest := by
  match n with
  | ⟨ds, t⟩ =>
    simp only [Name.representable, Bool.and_eq_true, bne_iff_ne, ne_eq] at h
    obtain ⟨⟨declsOk, termOk⟩, notLet⟩ := h
    rw [Name.layout] at lexed
    obtain ⟨dt, tt, rfl, declsLexed, termLexed⟩ := lexed_append.mp lexed
    -- the declarations stop at the last substitution, which does not start with `let`
    have stop : ∀ x ∈ (tt ++ rest).head?, x.isWord "let" = false := by
      obtain ⟨ps, head⟩ := t.layout_head
      rw [head] at termLexed
      obtain ⟨st, tt', rfl, -⟩ := lexed_cons.mp termLexed
      intro x hx
      cases hx
      exact t.firstPiece_not_let notLet st
    have decls := Declaration.readsList ds declsOk declsLexed (tt ++ rest) stop #[]
    have term := Substitution.reads t termOk termLexed rest (closes.mono (by simp))
    have tree : Name.tree ⟨ds, t⟩ = .tree "name" [.tree "declarations" (#[] ++ (Declaration.trees ds).toArray).toList,
        .tree "substitution" t.parts] := by
      simp [Name.tree]
    rw [tree, List.append_assoc]
    exact name_reads decls term

theorem Declaration.readsList (ds : List Declaration) (h : Declaration.representableList ds = true)
    {toks : List Token} (lexed : Lexed toks (Declaration.layoutList ds)) (rest : List Token)
    (stop : ∀ t ∈ rest.head?, t.isWord "let" = false) (acc : Array Node) :
    Reads (declarations (toks ++ rest) acc) (acc ++ (Declaration.trees ds).toArray) rest := by
  match ds with
  | [] =>
    rw [Declaration.layoutList] at lexed
    obtain rfl := lexed_nil.mp lexed
    have same : acc ++ (Declaration.trees []).toArray = acc := by simp [Declaration.trees]
    rw [same, List.nil_append]
    exact declarations_stop stop acc
  | ⟨var, val⟩ :: ds =>
    simp only [Declaration.representableList, Bool.and_eq_true] at h
    obtain ⟨⟨-, valOk⟩, othersOk⟩ := h
    rw [Declaration.layoutList, Declaration.layout] at lexed
    obtain ⟨dt, ot, rfl, declLexed, othersLexed⟩ := lexed_append.mp lexed
    obtain ⟨s1, t1, rfl, l1⟩ := lexed_cons.mp declLexed
    obtain ⟨s2, t2, rfl, l2⟩ := lexed_cons.mp l1
    obtain ⟨s3, t3, rfl, l3⟩ := lexed_cons.mp l2
    obtain ⟨vt, st, rfl, valLexed, semiLexed⟩ := lexed_append.mp l3
    obtain ⟨s4, t4, rfl, l4⟩ := lexed_cons.mp semiLexed
    obtain rfl := lexed_nil.mp l4
    have value := Substitution.reads val valOk valLexed
      (⟨.punct .semicolon, s4, Punct.spelling .semicolon⟩ :: (ot ++ rest)) (closes_punct (by simp) _ _ _)
    have others := Declaration.readsList ds othersOk othersLexed rest stop
      (acc.push (.tree "declaration" [bindingTree var, .tree "substitution" val.parts]))
    have pushed : acc ++ (Declaration.trees (⟨var, val⟩ :: ds)).toArray =
        acc.push (.tree "declaration" [bindingTree var, .tree "substitution" val.parts]) ++
          (Declaration.trees ds).toArray := by
      simp [Declaration.trees, Declaration.tree]
    rw [pushed]
    exact (declarations_let s1 (declaration_binder var s2 s3 s4 (Punct.spelling .assign) (Punct.spelling .semicolon)
      value) others).of_toks_eq (declarations · acc)
      (by simp)

theorem Substitution.reads (s : Substitution) (h : s.representable = true) {toks : List Token}
    (lexed : Lexed toks s.layout) (rest : List Token) (closes : Closes [.semicolon, .rparen, .comma, .dot] rest) :
    Reads (substitution (toks ++ rest)) (.tree "substitution" s.parts) rest := by
  match s with
  | ⟨.atomic none pid, is⟩ =>
    simp only [Substitution.representable, Ref.representable, Ref.leadingWord, Bool.and_eq_true, bne_iff_ne,
      ne_eq, Option.some.injEq] at h
    obtain ⟨⟨⟨-, -⟩, notResolved⟩, inputsOk⟩ := h
    rw [Substitution.layout, Namespace.layoutOpt, List.nil_append, ParameterizedId.layout, List.cons_append] at lexed
    obtain ⟨sw, pt, rfl, pidLexed⟩ := lexed_cons.mp lexed
    obtain ⟨ppt, it, rfl, paramsLexed, inputsLexed⟩ := lexed_append.mp pidLexed
    have inputs := Input.readsList is inputsOk inputsLexed rest
    rw [parenthesized] at inputsLexed
    obtain ⟨sl, it', rfl, -⟩ := lexed_cons.mp inputsLexed
    simp only [Piece.kind_mark, Piece.text_mark, List.cons_append] at inputs
    have m := multiary_reads (by simp) inputs
    have after := afterPid_inputs
      (.tree "parameterized_id" [identNode ⟨.word, sw, ofText pid.id⟩, paramsTree pid.params]) (by simp) m
    have atomic := atomicOrVariable_pid ⟨.word, sw, ofText pid.id⟩ pid.params paramsLexed (by simp) (by simp [startsInputs])
      after
    exact (substitution_word sw notResolved atomic).of_toks_eq substitution (by simp)
  | ⟨.atomic (some (.builtin ns)) pid, is⟩ =>
    simp only [Substitution.representable, Ref.representable, Ref.leadingWord, Bool.and_eq_true, bne_iff_ne,
      ne_eq, Option.some.injEq] at h
    obtain ⟨⟨⟨-, -⟩, notResolved⟩, inputsOk⟩ := h
    rw [Substitution.layout, Namespace.layoutOpt] at lexed
    obtain ⟨nt, rt, rfl, nsLexed, restLexed⟩ := lexed_append.mp lexed
    rw [ParameterizedId.layout, List.cons_append] at nsLexed
    obtain ⟨sw, npt, rfl, nl⟩ := lexed_cons.mp nsLexed
    obtain ⟨ppt, sct, rfl, paramsLexed, scopeLexed⟩ := lexed_append.mp nl
    obtain ⟨ssc, sct', rfl, scopeNil⟩ := lexed_cons.mp scopeLexed
    obtain rfl := lexed_nil.mp scopeNil
    obtain ⟨pt, it, rfl, pidLexed, inputsLexed⟩ := lexed_append.mp restLexed
    have inputs := Input.readsList is inputsOk inputsLexed rest
    rw [parenthesized] at inputsLexed
    obtain ⟨sl, it', rfl, -⟩ := lexed_cons.mp inputsLexed
    simp only [Piece.kind_mark, Piece.text_mark, List.cons_append] at inputs
    have m := multiary_reads (by simp) inputs
    have id := ParameterizedId.reads pid pidLexed (⟨.punct .lparen, sl, Punct.spelling .lparen⟩ :: (it' ++ rest))
      (by simp)
    have after := afterPid_scope
      (.tree "parameterized_id" [identNode ⟨.word, sw, ofText ns.id⟩, paramsTree ns.params]) ssc (Punct.spelling .scope) id m
    have atomic := atomicOrVariable_pid ⟨.word, sw, ofText ns.id⟩ ns.params paramsLexed (by simp) (by simp)
      after
    exact (substitution_word sw notResolved atomic).of_toks_eq substitution (by simp)
  | ⟨.atomic (some (.computed _)) _, _⟩ => simp [Substitution.representable, Ref.representable] at h
  | ⟨.var v, _⟩ =>
    simp only [Substitution.representable, Ref.representable, Ref.leadingWord, Bool.and_eq_true, bne_iff_ne,
      ne_eq, Option.some.injEq] at h
    obtain ⟨⟨-, notResolved⟩, -⟩ := h
    rw [Substitution.layout] at lexed
    obtain ⟨sw, t1, rfl, l1⟩ := lexed_cons.mp lexed
    obtain rfl := lexed_nil.mp l1
    -- what follows a variable cannot make it a reference: no `[`, `::`, `(` or `@`
    have var := atomicOrVariable_var ⟨.word, sw, ofText v⟩ rest fun t ht =>
      ⟨closes.isPunct (by simp) t ht, closes.isPunct (by simp) t ht,
        by simp [startsInputs, closes.isPunct (q := .lparen) (by simp) t ht, closes.isPunct (q := .at) (by simp) t ht]⟩
    exact (substitution_word sw notResolved var).of_toks_eq substitution (by simp)
  | ⟨.resolved v, _⟩ =>
    rw [Substitution.layout] at lexed
    obtain ⟨s1, t1, rfl, l1⟩ := lexed_cons.mp lexed
    obtain ⟨s2, t2, rfl, l2⟩ := lexed_cons.mp l1
    obtain ⟨s3, t3, rfl, l3⟩ := lexed_cons.mp l2
    obtain ⟨s4, t4, rfl, l4⟩ := lexed_cons.mp l3
    obtain rfl := lexed_nil.mp l4
    exact (substitution_resolved v s1 s2 s3 s4 (Punct.spelling .lparen) (Punct.spelling .rparen) rest).of_toks_eq substitution (by simp)
  | ⟨.nested n, is⟩ =>
    simp only [Substitution.representable, Ref.representable, Bool.and_eq_true] at h
    obtain ⟨⟨⟨innerOk, -⟩, -⟩, inputsOk⟩ := h
    have inputs := fun {it : List Token} (l : Lexed it (parenthesized (Input.layouts is))) =>
      Input.readsList is inputsOk l rest
    rw [Substitution.layout] at lexed
    obtain ⟨s1, t1, rfl, l1⟩ := lexed_cons.mp lexed
    obtain ⟨nt, ct, rfl, nameLexed, closeLexed⟩ := lexed_append.mp l1
    obtain ⟨s2, it, rfl, inputsLexed⟩ := lexed_cons.mp closeLexed
    cases is with
    | nil =>
      rw [Input.layouts, nestedInputs] at inputsLexed
      obtain rfl := lexed_nil.mp inputsLexed
      have inner := Name.reads n innerOk nameLexed (⟨.punct .rparen, s2, Punct.spelling .rparen⟩ :: rest)
        (closes_punct (by simp) _ _ _)
      exact (substitution_nested s1 s2 (Punct.spelling .lparen) (Punct.spelling .rparen) inner (closes.noInputs (by simp) (by simp)) rfl).of_toks_eq
        substitution (by simp)
    | cons i is =>
      have m := inputs (by rw [Input.layouts, nestedInputs] at inputsLexed; rw [Input.layouts]; exact inputsLexed)
      rw [Input.layouts, nestedInputs, parenthesized] at inputsLexed
      obtain ⟨sl, it', rfl, -⟩ := lexed_cons.mp inputsLexed
      simp only [Piece.kind_mark, Piece.text_mark, List.cons_append] at m
      have inner := Name.reads n innerOk nameLexed
        (⟨.punct .rparen, s2, Punct.spelling .rparen⟩ :: ⟨.punct .lparen, sl, Punct.spelling .lparen⟩ :: (it' ++ rest))
        (closes_punct (by simp) _ _ _)
      exact (substitution_nested_inputs s1 s2 (Punct.spelling .lparen) (Punct.spelling .rparen) inner (by simp [startsInputs])
        (multiary_reads (by simp) m)).of_toks_eq substitution (by simp)

theorem Input.readsList (is : List Input) (h : Input.representableList is = true) {toks : List Token}
    (lexed : Lexed toks (parenthesized (Input.layouts is))) (rest : List Token) :
    Reads (inputList .absent (toks ++ rest)) (multiaryTree (Input.trees is)) rest := by
  match is with
  | [] =>
    rw [Input.layouts, parenthesized, commaSep, List.nil_append] at lexed
    obtain ⟨s1, t1, rfl, l1⟩ := lexed_cons.mp lexed
    obtain ⟨s2, t2, rfl, l2⟩ := lexed_cons.mp l1
    obtain rfl := lexed_nil.mp l2
    rw [Input.trees]
    exact inputList_empty s1 s2 (Punct.spelling .lparen) (Punct.spelling .rparen) rest
  | ⟨id, out⟩ :: is =>
    simp only [Input.representableList, Bool.and_eq_true] at h
    obtain ⟨⟨named, valid⟩, othersOk⟩ := h
    rw [Input.layouts, parenthesized, commaSep] at lexed
    obtain ⟨s1, t1, rfl, l1⟩ := lexed_cons.mp lexed
    obtain ⟨body, ct, rfl, bodyLexed, closeLexed⟩ := lexed_append.mp l1
    obtain ⟨s2, t2, rfl, l2⟩ := lexed_cons.mp closeLexed
    obtain rfl := lexed_nil.mp l2
    obtain ⟨ft, st, rfl, firstLexed, othersLexed⟩ := lexed_append.mp bodyLexed
    have first := Input.reads ⟨id, out⟩ named valid firstLexed (st ++ ⟨.punct .rparen, s2, Punct.spelling .rparen⟩ :: rest)
      (closes_separated othersLexed (by simp) (closes_punct (by simp) _ _ _))
    have others := Input.readsMore is othersOk othersLexed (⟨.punct .rparen, s2, Punct.spelling .rparen⟩ :: rest)
      (closes_punct (by simp) _ _ _) #[Input.tree ⟨id, out⟩]
    obtain ⟨ps, head⟩ := Input.layout_head ⟨id, out⟩
    rw [head] at firstLexed
    obtain ⟨sf, ft', rfl, -⟩ := lexed_cons.mp firstLexed
    have open' : ∀ t ∈ (⟨(Input.firstPiece ⟨id, out⟩).kind, sf, (Input.firstPiece ⟨id, out⟩).text⟩ :: ft').head?,
        t.isPunct .rparen = false := by
      intro t ht
      cases ht
      simpa using Input.firstPiece_kind ⟨id, out⟩
    have tree : multiaryTree (Input.trees (⟨id, out⟩ :: is)) =
        .tree "multiary" [.absent, .tree "spec_list" (#[Input.tree ⟨id, out⟩] ++ (Input.trees is).toArray).toList] := by
      simp [Input.trees, multiaryTree]
    rw [tree]
    exact (inputList_items s1 s2 (Punct.spelling .lparen) (Punct.spelling .rparen) (List.cons_ne_nil _ _) open' first others).of_toks_eq (inputList .absent ·)
      (by simp)

theorem Input.readsMore (is : List Input) (h : Input.representableList is = true) {toks : List Token}
    (lexed : Lexed toks (separated (Input.layouts is))) (rest : List Token) (closes : Closes [.rparen] rest)
    (acc : Array Node) : Reads (moreSpecs (toks ++ rest) acc) (acc ++ (Input.trees is).toArray) rest := by
  match is with
  | [] =>
    rw [Input.layouts, separated] at lexed
    obtain rfl := lexed_nil.mp lexed
    have same : acc ++ (Input.trees []).toArray = acc := by simp [Input.trees]
    rw [same, List.nil_append]
    exact moreSpecs_stop (closes.isPunct (by simp)) acc
  | ⟨id, out⟩ :: is =>
    simp only [Input.representableList, Bool.and_eq_true] at h
    obtain ⟨⟨named, valid⟩, othersOk⟩ := h
    rw [Input.layouts, separated] at lexed
    obtain ⟨s1, t1, rfl, l1⟩ := lexed_cons.mp lexed
    obtain ⟨ft, st, rfl, firstLexed, othersLexed⟩ := lexed_append.mp l1
    have first := Input.reads ⟨id, out⟩ named valid firstLexed (st ++ rest)
      (closes_separated othersLexed (by simp) (closes.mono (by simp)))
    have others := Input.readsMore is othersOk othersLexed rest closes (acc.push (Input.tree ⟨id, out⟩))
    have pushed : acc ++ (Input.trees (⟨id, out⟩ :: is)).toArray =
        acc.push (Input.tree ⟨id, out⟩) ++ (Input.trees is).toArray := by
      simp [Input.trees]
    rw [pushed]
    exact (moreSpecs_comma s1 (Punct.spelling .comma) first others).of_toks_eq (moreSpecs · acc) (by simp)

theorem Input.reads (i : Input) (named : i.id.all (fun a => isIdentText a && a != "resolved") = true)
    (valid : i.value.representable = true) {toks : List Token} (lexed : Lexed toks i.layout)
    (rest : List Token) (closes : Closes [.rparen, .comma] rest) : Reads (spec (toks ++ rest)) i.tree rest := by
  match i with
  | ⟨some a, out⟩ =>
    simp only [Option.all_some, Bool.and_eq_true, bne_iff_ne, ne_eq] at named
    rw [Input.layout] at lexed
    obtain ⟨s1, t1, rfl, l1⟩ := lexed_cons.mp lexed
    obtain ⟨s2, ot, rfl, outLexed⟩ := lexed_cons.mp l1
    have value := OutputRef.reads out valid outLexed rest closes
    exact (spec_named s1 s2 (Punct.spelling .colon) named.2 value).of_toks_eq spec (by simp)
  | ⟨none, out⟩ =>
    rw [Input.layout] at lexed
    exact spec_positional (OutputRef.not_named out valid lexed closes) (OutputRef.reads out valid lexed rest closes)

theorem OutputRef.reads (out : OutputRef) (h : out.representable = true) {toks : List Token}
    (lexed : Lexed toks out.layout) (rest : List Token) (closes : Closes [.rparen, .comma] rest) :
    Reads (outputRef (toks ++ rest)) out.tree rest := by
  match out with
  | ⟨sub, none⟩ =>
    simp only [OutputRef.representable, Bool.and_eq_true] at h
    rw [OutputRef.layout] at lexed
    exact outputRef_plain (Substitution.reads sub h.1 lexed rest (closes.mono (by simp))) (closes.isPunct (by simp))
  | ⟨sub, some o⟩ =>
    simp only [OutputRef.representable, Bool.and_eq_true] at h
    rw [OutputRef.layout] at lexed
    obtain ⟨st, ot, rfl, subLexed, outLexed⟩ := lexed_append.mp lexed
    obtain ⟨s1, t1, rfl, l1⟩ := lexed_cons.mp outLexed
    obtain ⟨s2, t2, rfl, l2⟩ := lexed_cons.mp l1
    obtain rfl := lexed_nil.mp l2
    have value := Substitution.reads sub h.1 subLexed
      (⟨.punct .dot, s1, Punct.spelling .dot⟩ :: ⟨.word, s2, ofText o⟩ :: rest) (closes_punct (by simp) _ _ _)
    exact (outputRef_named s1 s2 (Punct.spelling .dot) value).of_toks_eq outputRef (by simp)

end

end ArtifactNames
