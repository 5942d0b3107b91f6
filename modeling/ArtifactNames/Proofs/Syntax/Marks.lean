import ArtifactNames.Proofs.Syntax.ReadSound

/-! What the walk meets, in the tree (`Node.marks`) and in the tokens (`Spells`). Main statement
(`readName_spells`): a whole name meets what its tokens meet. -/

namespace ArtifactNames

open Syntax Text

/-- What the walk meets at one place of a tree: a text it copies, or a construct that ends it. -/
inductive Mark where
  | copy (text : List Nat)
  | fail (e : ParseError)

/-- What the walk meets at a leaf of type `kind` with code points `cs`: a text that is not UTF-8
ends it; any other is copied, a string without its quotes and escapes. -/
def leafMark (kind : String) (cs : List Nat) : Mark :=
  match firstSurrogateRun cs with
  | some (start, length) => .fail (.invalidText (.unencodable start length (cs.getD start 0)))
  | none => .copy (if kind == "STRING" then unquote cs else cs)

namespace Syntax

mutual

/-- What the walk meets in a tree, in source order: the texts of its leaves, and a computed
namespace or an output index in place of everything they hold. -/
def Node.marks : Node → List Mark
  | .token kind cs => [leafMark kind cs]
  | .tree "named_namespace" _ => [.fail (.notSupported .computedNamespace)]
  | .tree "graph_index" _ => [.fail (.notSupported .outputIndex)]
  | .tree _ children => Node.marksOf children
  | _ => []

def Node.marksOf : List Node → List Mark
  | [] => []
  | n :: ns => n.marks ++ Node.marksOf ns

end

@[simp] theorem Node.marksOf_nil : Node.marksOf [] = [] := by
  simp [Node.marksOf]

@[simp] theorem Node.marksOf_cons (n : Node) (ns : List Node) :
    Node.marksOf (n :: ns) = n.marks ++ Node.marksOf ns := by
  simp [Node.marksOf]

@[simp] theorem Node.marks_token (kind : String) (cs : List Nat) :
    (Node.token kind cs).marks = [leafMark kind cs] := by
  simp [Node.marks]

@[simp] theorem Node.marks_absent : Node.absent.marks = [] := by
  simp [Node.marks]

@[simp] theorem Node.marks_computed (children : List Node) :
    (Node.tree "named_namespace" children).marks = [.fail (.notSupported .computedNamespace)] := by
  simp [Node.marks]

@[simp] theorem Node.marks_index (children : List Node) :
    (Node.tree "graph_index" children).marks = [.fail (.notSupported .outputIndex)] := by
  simp [Node.marks]

@[simp] theorem Node.marks_tree {tag : String} (children : List Node)
    (notComputed : tag ≠ "named_namespace") (notIndex : tag ≠ "graph_index") :
    (Node.tree tag children).marks = Node.marksOf children := by
  unfold Node.marks
  split <;> simp_all

/-- What the walk meets at a token when the token reaches the tree: the text of a word, number or
string, and the construct that `@` or `{` opens. -/
def Token.mark? (t : Token) : Option Mark :=
  match t.kind with
  | .word => some (leafMark "IDENT" t.text)
  | .number => some (leafMark "NUMBER" t.text)
  | .string => some (leafMark "STRING" t.text)
  | .punct .at => some (.fail (.notSupported .outputIndex))
  | .punct .lbrace => some (.fail (.notSupported .computedNamespace))
  | _ => none

def Token.keyword (t : Token) : Bool := t.isWord "let" || t.isWord "resolved"

theorem Token.mark?_of_at {t : Token} (h : t.isPunct .at = true) :
    t.mark? = some (.fail (.notSupported .outputIndex)) := by
  simp [Token.mark?, beq_iff_eq.mp h]

theorem Token.mark?_of_lbrace {t : Token} (h : t.isPunct .lbrace = true) :
    t.mark? = some (.fail (.notSupported .computedNamespace)) := by
  simp [Token.mark?, beq_iff_eq.mp h]

theorem Token.mark?_of_isPunct {t : Token} {p : Punct} (h : t.isPunct p = true) (notAt : p ≠ .at)
    (notBrace : p ≠ .lbrace) : t.mark? = none := by
  have kind : t.kind = .punct p := beq_iff_eq.mp h
  cases p <;> simp_all [Token.mark?]

end Syntax

namespace Mark

/-- The texts copied before the first construct that ends the walk, and that construct's error
when there is one. -/
def run : List Mark → List (List Nat) × Option ParseError
  | [] => ([], none)
  | .copy t :: ms => (t :: (run ms).1, (run ms).2)
  | .fail e :: _ => ([], some e)

theorem run_append (ms ms' : List Mark) :
    run (ms ++ ms') = match (run ms).2 with
      | none => ((run ms).1 ++ (run ms').1, (run ms').2)
      | some e => ((run ms).1, some e) := by
  induction ms with
  | nil => simp [run]
  | cons m ms ih =>
    cases m with
    | copy t =>
      simp only [List.cons_append, run, ih]
      split <;> rfl
    | fail e => rfl

theorem run_congr_append {ms₁ ms₂ ms₁' ms₂' : List Mark} (h₁ : run ms₁ = run ms₁')
    (h₂ : run ms₂ = run ms₂') : run (ms₁ ++ ms₂) = run (ms₁' ++ ms₂') := by
  rw [run_append, run_append, h₁, h₂]

end Mark

/-- `kept` is `toks` with some of its keywords left out. -/
inductive DropsKeywords : List Token → List Token → Prop
  | nil : DropsKeywords [] []
  | keep {t : Token} {toks kept : List Token} : DropsKeywords toks kept →
      DropsKeywords (t :: toks) (t :: kept)
  | drop {t : Token} {toks kept : List Token} : t.keyword = true → DropsKeywords toks kept →
      DropsKeywords (t :: toks) kept

namespace DropsKeywords

theorem refl : ∀ toks : List Token, DropsKeywords toks toks
  | [] => .nil
  | _ :: toks => .keep (refl toks)

theorem append {a ka b kb : List Token} (ha : DropsKeywords a ka) (hb : DropsKeywords b kb) :
    DropsKeywords (a ++ b) (ka ++ kb) := by
  induction ha with
  | nil => exact hb
  | keep _ ih => exact .keep ih
  | drop keyword _ ih => exact .drop keyword ih

end DropsKeywords

/-- The tokens `toks`, some keywords left out, meet what `ms` meets: the same texts copied up to
the same error. -/
def Spells (toks : List Token) (ms : List Mark) : Prop :=
  ∃ kept, DropsKeywords toks kept ∧ Mark.run (kept.filterMap Token.mark?) = Mark.run ms

namespace Spells

theorem nil : Spells [] [] := ⟨[], .nil, rfl⟩

theorem append {a b : List Token} {ms ms' : List Mark} (ha : Spells a ms) (hb : Spells b ms') :
    Spells (a ++ b) (ms ++ ms') := by
  obtain ⟨ka, drops, same⟩ := ha
  obtain ⟨kb, drops', same'⟩ := hb
  refine ⟨ka ++ kb, drops.append drops', ?_⟩
  rw [List.filterMap_append]
  exact Mark.run_congr_append same same'

theorem cons {t : Token} {toks : List Token} {ms ms' : List Mark} (ht : Spells [t] ms)
    (h : Spells toks ms') : Spells (t :: toks) (ms ++ ms') :=
  ht.append h

theorem quiet {t : Token} (h : t.mark? = none) : Spells [t] [] :=
  ⟨[t], .keep .nil, by simp [h]⟩

theorem punct {t : Token} {p : Punct} (h : t.isPunct p = true) (notAt : p ≠ .at)
    (notBrace : p ≠ .lbrace) : Spells [t] [] :=
  quiet (Token.mark?_of_isPunct h notAt notBrace)

theorem keyword {t : Token} (h : t.keyword = true) : Spells [t] [] :=
  ⟨[], .drop h .nil, rfl⟩

theorem leaf {t : Token} {m : Mark} (h : t.mark? = some m) : Spells [t] [m] :=
  ⟨[t], .keep .nil, by simp [h]⟩

theorem word {t : Token} (h : t.kind = .word) : Spells [t] (identNode t).marks :=
  leaf (by simp [Token.mark?, h])

theorem fail {t : Token} {e : ParseError} (h : t.mark? = some (.fail e)) (toks : List Token)
    (ms : List Mark) : Spells (t :: toks) (.fail e :: ms) :=
  ⟨t :: toks, .refl _, by simp [h, Mark.run]⟩

end Spells

/-! ## Reading keeps the order -/

section Reading

theorem ident_spells {toks rest : List Token} {node : Node} (h : Reads (ident toks) node rest) :
    ∃ t, toks = t :: rest ∧ t.kind = .word ∧ node = identNode t ∧ Spells [t] node.marks := by
  obtain ⟨t, rfl, word, rfl⟩ := ident_sound h
  exact ⟨t, rfl, word, rfl, Spells.word word⟩

theorem paramValue_spells {toks rest : List Token} {node : Node}
    (h : Reads (paramValue toks) node rest) : ∃ t, toks = t :: rest ∧ Spells [t] node.marks := by
  obtain ⟨_, h⟩ := h
  cases toks with
  | nil => cases h
  | cons t more =>
    obtain ⟨kind, start, text⟩ := t
    -- the value's leaf has the type of its token
    cases kind with
    | word | number | string =>
      simp [paramValue] at h
      obtain ⟨rfl, rfl⟩ := h
      exact ⟨_, rfl, Spells.leaf (by simp [Token.mark?])⟩
    | blank | punct _ | unscannable => simp [paramValue] at h

theorem param_spells {toks rest : List Token} {node : Node} (h : Reads (param toks) node rest) :
    ∃ P, toks = P ++ rest ∧ Spells P node.marks := by
  obtain ⟨key, r1, ⟨r2, h2⟩, value, keyed, assign, valued, rfl⟩ := param_parts h
  obtain ⟨t, rfl, word, rfl, keySpells⟩ := ident_spells keyed
  obtain ⟨a, eq, isAssign⟩ := expectPunct_ok assign
  obtain ⟨v, rfl, valueSpells⟩ := paramValue_spells valued
  refine ⟨[t, a, v], by simp [eq], ?_⟩
  simpa [Node.marks] using keySpells.append ((Spells.punct isAssign (by decide) (by decide)).append valueSpells)

theorem moreParams_spells {toks rest : List Token} {acc ps : Array Node}
    (h : Reads (moreParams toks acc) ps rest) :
    ∃ more P, ps.toList = acc.toList ++ more ∧ toks = P ++ rest ∧ Spells P (Node.marksOf more) := by
  obtain ⟨rfl, rfl, -⟩ | ⟨t, more, first, r1, rfl, comma, readFirst, readMore⟩ := moreParams_parts h
  · exact ⟨[], [], by simp, rfl, Spells.nil⟩
  · have shorter := readFirst.bound
    obtain ⟨P, rfl, firstSpells⟩ := param_spells readFirst
    obtain ⟨tail, Q, eq, rfl, restSpells⟩ := moreParams_spells readMore
    refine ⟨first :: tail, t :: (P ++ Q), by simp [eq], by simp, ?_⟩
    simpa using (Spells.punct comma (by decide) (by decide)).append (firstSpells.append restSpells)
termination_by toks.length
decreasing_by subst_vars; simp only [List.length_cons]; omega

theorem params_spells {toks rest : List Token} {node : Node} (h : Reads (params toks) node rest) :
    ∃ P, toks = P ++ rest ∧ Spells P node.marks := by
  rcases params_parts h with ⟨lb, rb, rfl, isOpen, isClose, rfl⟩ |
    ⟨lb, t, more, first, r3, ps, rb, rfl, isOpen, -, readFirst, readMore, isClose, rfl⟩
  · -- `[]`: no parameters
    refine ⟨[lb, rb], by simp, ?_⟩
    simpa [Node.marks] using (Spells.punct isOpen (by decide) (by decide)).append
      (Spells.punct isClose (by decide) (by decide))
  · obtain ⟨P, eq, firstSpells⟩ := param_spells readFirst
    obtain ⟨more', Q, psEq, rfl, moreSpells⟩ := moreParams_spells readMore
    refine ⟨lb :: (P ++ Q ++ [rb]), by simp [eq], ?_⟩
    simpa [Node.marks, psEq] using (Spells.punct isOpen (by decide) (by decide)).append
      ((firstSpells.append moreSpells).append (Spells.punct isClose (by decide) (by decide)))

theorem pid_spells {toks rest : List Token} {node : Node} (h : Reads (pid toks) node rest) :
    ∃ P, toks = P ++ rest ∧ Spells P node.marks := by
  rcases pid_parts h with ⟨id, lb, more, ps, readId, -, readParams, rfl⟩ | ⟨id, readId, -, rfl⟩
  · obtain ⟨t, rfl, word, rfl, idSpells⟩ := ident_spells readId
    obtain ⟨P, eq, psSpells⟩ := params_spells readParams
    refine ⟨t :: P, by simp [eq], ?_⟩
    simpa [Node.marks] using idSpells.append psSpells
  · obtain ⟨t, rfl, word, rfl, idSpells⟩ := ident_spells readId
    exact ⟨[t], rfl, by simpa [Node.marks] using idSpells⟩

theorem graphIndex_takes {toks rest : List Token} {node : Node}
    (h : Reads (graphIndex toks) node rest) :
    ∃ t, toks = t :: rest ∧ node.marks = [.fail (.notSupported .outputIndex)] := by
  obtain ⟨t, rfl, -, -, -, rfl⟩ := graphIndex_parts h
  exact ⟨t, rfl, by simp [Node.marks]⟩

theorem binding_spells {b : Token} {bind : Node}
    (h : (if b.kind == .blank then some (.tree "unbound" [])
      else if b.kind == .word then some (.tree "bound" [identNode b]) else none) = some bind) :
    Spells [b] bind.marks := by
  split at h
  · rename_i blank
    cases h
    simpa [Node.marks] using Spells.quiet (by simp [Token.mark?, beq_iff_eq.mp blank])
  · split at h
    · rename_i word
      cases h
      simpa [Node.marks] using Spells.word (beq_iff_eq.mp word)
    · cases h

mutual

theorem name_spells : ∀ {toks rest : List Token} {node : Node},
    Reads (name toks) node rest → ∃ P, toks = P ++ rest ∧ Spells P node.marks
  | toks, rest, node, h => by
    obtain ⟨decls, r1, sub, readDecls, readSub, rfl⟩ := name_parts h
    obtain ⟨more, P, declsEq, eqP, declsSpells⟩ := declarations_spells readDecls
    obtain ⟨Q, eqQ, subSpells⟩ := substitution_spells readSub
    refine ⟨P ++ Q, by simp [eqP, eqQ], ?_⟩
    simpa [Node.marks, declsEq] using declsSpells.append subSpells
termination_by toks => 5 * toks.length + 4

theorem declarations_spells : ∀ {toks rest : List Token} {acc ds : Array Node},
    Reads (declarations toks acc) ds rest →
    ∃ more P, ds.toList = acc.toList ++ more ∧ toks = P ++ rest ∧ Spells P (Node.marksOf more)
  | toks, rest, acc, ds, h => by
    obtain ⟨rfl, rfl, -⟩ | ⟨t, more, d, r1, rfl, keyword, readDecl, readMore⟩ := declarations_parts h
    · exact ⟨[], [], by simp, rfl, Spells.nil⟩
    · -- `let` opens a declaration, and is left out
      have shorter := readDecl.bound
      obtain ⟨P, eqP, declSpells⟩ := declaration_spells readDecl
      obtain ⟨tail, Q, eq, eqQ, restSpells⟩ := declarations_spells readMore
      refine ⟨d :: tail, t :: (P ++ Q), by simp [eq], by simp [eqP, eqQ], ?_⟩
      simpa using (Spells.keyword (by simp [Token.keyword, keyword])).append
        (declSpells.append restSpells)
termination_by toks => 5 * toks.length + 3
decreasing_by all_goals subst_vars; simp only [List.length_cons]; omega

theorem declaration_spells : ∀ {toks rest : List Token} {node : Node},
    Reads (declaration toks) node rest → ∃ P, toks = P ++ rest ∧ Spells P node.marks
  | toks, rest, node, h => by
    obtain ⟨b, a, more, bind, sub, c, rfl, chosen, isAssign, readSub, isSemicolon, rfl⟩ :=
      declaration_parts h
    obtain ⟨P, rfl, subSpells⟩ := substitution_spells readSub
    refine ⟨b :: a :: (P ++ [c]), by simp, ?_⟩
    simpa [Node.marks] using (binding_spells chosen).append
      ((Spells.punct isAssign (by decide) (by decide)).append
        (subSpells.append (Spells.punct isSemicolon (by decide) (by decide))))
termination_by toks => 5 * toks.length

theorem substitution_spells : ∀ {toks rest : List Token} {node : Node},
    Reads (substitution toks) node rest → ∃ P, toks = P ++ rest ∧ Spells P node.marks
  | toks, rest, node, h => by
    rcases substitution_parts h with
      ⟨t, lp, more, id, rp, rfl, resolved, isOpen, readId, isClose, rfl⟩ |
      ⟨t, more, rfl, -, word, readSub⟩ |
      ⟨t, more, inner, rp, r2, m, rfl, lparen, readInner, isClose, -, readInputs, rfl⟩ |
      ⟨t, more, inner, rp, rfl, lparen, readInner, isClose, -, rfl⟩ |
      ⟨t, more, out, rb, sc, r3, id, r4, m, rfl, lbrace, readOut, -, -, readId, readInputs, rfl⟩
    · -- `resolved ( word )`: the keyword is left out
      obtain ⟨u, idEq, word, rfl, idSpells⟩ := ident_spells readId
      refine ⟨[t, lp, u, rp], by simp [idEq], ?_⟩
      simpa [Node.marks] using (Spells.keyword (by simp [Token.keyword, resolved])).append
        ((Spells.punct isOpen (by decide) (by decide)).append
          (idSpells.append (Spells.punct isClose (by decide) (by decide))))
    · -- a leading word: an atomic reference or a variable
      obtain ⟨P, eqP, subSpells⟩ := atomicOrVariable_spells word readSub
      exact ⟨t :: P, by simp [eqP], subSpells⟩
    · -- a nested name and inputs
      obtain ⟨P, eqP, innerSpells⟩ := name_spells readInner
      obtain ⟨Q, eqQ, inputsSpells⟩ := multiary_spells readInputs
      refine ⟨t :: (P ++ rp :: Q), by simp [eqP, eqQ], ?_⟩
      simpa [Node.marks] using ((Spells.punct lparen (by decide) (by decide)).append
        (innerSpells.append (Spells.punct isClose (by decide) (by decide)))).append inputsSpells
    · -- a nested name alone
      obtain ⟨P, eqP, innerSpells⟩ := name_spells readInner
      refine ⟨t :: (P ++ [rp]), by simp [eqP], ?_⟩
      simpa [Node.marks] using (Spells.punct lparen (by decide) (by decide)).append
        (innerSpells.append (Spells.punct isClose (by decide) (by decide)))
    · -- a computed namespace: the walk ends at its `{`, before anything after it
      obtain ⟨P, eqP, -⟩ := outputRef_spells readOut
      obtain ⟨Q, eqQ, -⟩ := pid_spells readId
      obtain ⟨R, eqR, -⟩ := multiary_spells readInputs
      refine ⟨t :: (P ++ rb :: sc :: (Q ++ R)), by simp [eqP, eqQ, eqR], ?_⟩
      simpa [Node.marks] using Spells.fail (Token.mark?_of_lbrace lbrace)
        (P ++ rb :: sc :: (Q ++ R)) (id.marks ++ m.marks)
termination_by toks => 5 * toks.length

theorem atomicOrVariable_spells : ∀ {w : Token} {toks rest : List Token} {node : Node},
    w.kind = .word → Reads (atomicOrVariable w toks) node rest →
    ∃ P, toks = P ++ rest ∧ Spells (w :: P) node.marks
  | w, toks, rest, node, word, h => by
    rcases atomicOrVariable_parts h with ⟨t, more, ps, r1, rfl, -, readParams, readSub⟩ |
      ⟨t, more, rfl, -, -, readSub⟩ | ⟨rfl, -, rfl⟩
    · -- the parameters leave fewer tokens, which the recursion into what follows them needs
      have shorter := readParams.bound
      obtain ⟨P, eqP, psSpells⟩ := params_spells readParams
      obtain ⟨Q, ms, eqQ, marksEq, subSpells⟩ := afterPid_spells readSub
      refine ⟨P ++ Q, by simp [eqP, eqQ], ?_⟩
      rw [marksEq]
      simpa [Node.marks] using (Spells.word word).append (psSpells.append subSpells)
    · obtain ⟨P, ms, eqP, marksEq, subSpells⟩ := afterPid_spells readSub
      refine ⟨P, eqP, ?_⟩
      rw [marksEq]
      simpa [Node.marks] using (Spells.word word).append subSpells
    · exact ⟨[], rfl, by simpa [Node.marks] using Spells.word word⟩
termination_by _ toks => 5 * toks.length + 4

theorem afterPid_spells : ∀ {first : Node} {toks rest : List Token} {node : Node},
    Reads (afterPid first toks) node rest →
    ∃ P ms, toks = P ++ rest ∧ node.marks = first.marks ++ ms ∧ Spells P ms
  | first, toks, rest, node, h => by
    rcases afterPid_parts h with ⟨sc, more, id, r1, m, rfl, scope, readId, readInputs, rfl⟩ |
      ⟨t, more, m, rfl, -, -, readInputs, rfl⟩
    · -- `first` was a namespace: `:: pid` and inputs follow
      obtain ⟨P, eqP, idSpells⟩ := pid_spells readId
      obtain ⟨Q, eqQ, inputsSpells⟩ := multiary_spells readInputs
      refine ⟨sc :: (P ++ Q), id.marks ++ m.marks, by simp [eqP, eqQ], by simp [Node.marks], ?_⟩
      simpa using (Spells.punct scope (by decide) (by decide)).append (idSpells.append inputsSpells)
    · obtain ⟨P, eqP, inputsSpells⟩ := multiary_spells readInputs
      exact ⟨P, m.marks, eqP, by simp [Node.marks], inputsSpells⟩
termination_by _ toks => 5 * toks.length + 3

theorem multiary_spells : ∀ {toks rest : List Token} {node : Node},
    Reads (multiary toks) node rest → ∃ P, toks = P ++ rest ∧ Spells P node.marks
  | toks, rest, node, h => by
    rcases multiary_parts h with ⟨a, more, index, r1, rfl, indexed, readIndex, readList⟩ |
      ⟨t, more, rfl, -, readList⟩
    · -- an output index: the walk ends at its `@`
      obtain ⟨n, indexEq, indexMarks⟩ := graphIndex_takes readIndex
      obtain ⟨P, ms, eqP, marksEq, -⟩ := inputList_spells readList
      refine ⟨a :: n :: P, by simp [indexEq, eqP], ?_⟩
      rw [marksEq, indexMarks]
      exact Spells.fail (Token.mark?_of_at indexed) (n :: P) ms
    · obtain ⟨P, ms, eqP, marksEq, listSpells⟩ := inputList_spells readList
      exact ⟨P, eqP, by simpa [marksEq, Node.marks] using listSpells⟩
termination_by toks => 5 * toks.length + 2

theorem inputList_spells : ∀ {index : Node} {toks rest : List Token} {node : Node},
    Reads (inputList index toks) node rest →
    ∃ P ms, toks = P ++ rest ∧ node.marks = index.marks ++ ms ∧ Spells P ms
  | index, toks, rest, node, h => by
    rcases inputList_parts h with ⟨lp, rp, rfl, isOpen, isClose, rfl⟩ |
      ⟨lp, t, more, first, r3, specs, rp, rfl, isOpen, -, readFirst, readMore, isClose, rfl⟩
    · refine ⟨[lp, rp], [], by simp, by simp [Node.marks], ?_⟩
      simpa using (Spells.punct isOpen (by decide) (by decide)).append
        (Spells.punct isClose (by decide) (by decide))
    · -- the bound over the whole list, where the recursion is measured
      have shorter : r3.length < (lp :: t :: more).length := Nat.lt_succ_of_lt readFirst.bound
      obtain ⟨P, eqP, firstSpells⟩ := spec_spells readFirst
      obtain ⟨more', Q, specsEq, eqQ, moreSpells⟩ := moreSpecs_spells readMore
      refine ⟨lp :: (P ++ Q ++ [rp]), first.marks ++ Node.marksOf more',
        by simp [eqP, eqQ], by simp [Node.marks, specsEq], ?_⟩
      simpa using (Spells.punct isOpen (by decide) (by decide)).append
        ((firstSpells.append moreSpells).append (Spells.punct isClose (by decide) (by decide)))
termination_by _ toks => 5 * toks.length + 1

theorem moreSpecs_spells : ∀ {toks rest : List Token} {acc ss : Array Node},
    Reads (moreSpecs toks acc) ss rest →
    ∃ more P, ss.toList = acc.toList ++ more ∧ toks = P ++ rest ∧ Spells P (Node.marksOf more)
  | toks, rest, acc, ss, h => by
    obtain ⟨rfl, rfl, -⟩ | ⟨t, more, first, r1, rfl, comma, readFirst, readMore⟩ := moreSpecs_parts h
    · exact ⟨[], [], by simp, rfl, Spells.nil⟩
    · have shorter := readFirst.bound
      obtain ⟨P, eqP, firstSpells⟩ := spec_spells readFirst
      obtain ⟨tail, Q, eq, eqQ, restSpells⟩ := moreSpecs_spells readMore
      refine ⟨first :: tail, t :: (P ++ Q), by simp [eq], by simp [eqP, eqQ], ?_⟩
      simpa using (Spells.punct comma (by decide) (by decide)).append (firstSpells.append restSpells)
termination_by toks => 5 * toks.length + 3
decreasing_by all_goals subst_vars; simp only [List.length_cons]; omega

theorem spec_spells : ∀ {toks rest : List Token} {node : Node},
    Reads (spec toks) node rest → ∃ P, toks = P ++ rest ∧ Spells P node.marks
  | toks, rest, node, h => by
    rcases spec_parts h with ⟨t, c, more, out, rfl, word, -, isColon, readOut, rfl⟩ |
      ⟨out, -, readOut, rfl⟩
    · obtain ⟨P, eqP, outSpells⟩ := outputRef_spells readOut
      refine ⟨t :: c :: P, by simp [eqP], ?_⟩
      simpa [Node.marks] using (Spells.word word).append
        ((Spells.punct isColon (by decide) (by decide)).append outSpells)
    · obtain ⟨P, eqP, outSpells⟩ := outputRef_spells readOut
      exact ⟨P, eqP, by simpa [Node.marks] using outSpells⟩
termination_by toks => 5 * toks.length + 2

theorem outputRef_spells : ∀ {toks rest : List Token} {node : Node},
    Reads (outputRef toks) node rest → ∃ P, toks = P ++ rest ∧ Spells P node.marks
  | toks, rest, node, h => by
    rcases outputRef_parts h with ⟨sub, d, r, id, readSub, isDot, readId, rfl⟩ |
      ⟨sub, readSub, -, rfl⟩
    · obtain ⟨P, eqP, subSpells⟩ := substitution_spells readSub
      obtain ⟨u, idEq, word, rfl, idSpells⟩ := ident_spells readId
      refine ⟨P ++ [d, u], by simp [eqP, idEq], ?_⟩
      simpa [Node.marks] using subSpells.append
        ((Spells.punct isDot (by decide) (by decide)).append idSpells)
    · obtain ⟨P, eqP, subSpells⟩ := substitution_spells readSub
      exact ⟨P, eqP, by simpa [Node.marks] using subSpells⟩
termination_by toks => 5 * toks.length + 1

end

end Reading

end ArtifactNames
