import ArtifactNames.Proofs.Syntax.Grammar
import ArtifactNames.Proofs.Syntax.ReadLayout

/-! Reading gives trees of the tree language. Main statement (`readName_sound`): the tree of a
whole name read from sound tokens is a `name` tree of `NameTree P`. -/

namespace ArtifactNames

open Syntax Text

theorem Reads.bound {α : Type} {Q : List Token → Prop} {r : Except Rejection (α × {rest // Q rest})}
    {a : α} {rest : List Token} (h : Reads r a rest) : Q rest := by
  obtain ⟨bound, -⟩ := h
  exact bound

theorem reads_inj {α : Type} {Q : List Token → Prop} {a b : α} {r r' : List Token} {hr : Q r}
    {hr' : Q r'} (h : (Except.ok (a, ⟨r, hr⟩) : Except Rejection (α × {rest // Q rest})) = .ok (b, ⟨r', hr'⟩)) :
    a = b ∧ r = r' := by
  simp only [Except.ok.injEq, Prod.mk.injEq, Subtype.mk.injEq] at h
  exact h

section Sound

variable {P : List Nat → Prop}

theorem sound_of_suffix {toks rest : List Token} (suffix : rest <:+ toks)
    (sound : ∀ t ∈ toks, t.Sound P) : ∀ t ∈ rest, t.Sound P :=
  fun t mem => sound t (suffix.subset mem)

theorem expectPunct_ok {p : Punct} {toks : List Token} {r : Rest toks} (h : expectPunct p toks = .ok r) :
    ∃ t, toks = t :: r.val ∧ t.isPunct p = true := by
  cases toks with
  | nil => cases h
  | cons t more =>
    simp only [expectPunct] at h
    split at h
    · cases h
      exact ⟨t, rfl, by assumption⟩
    · cases h

theorem expectPunct_taken {p : Punct} {toks rest : List Token} {shorter : rest.length < toks.length}
    (h : expectPunct p toks = .ok ⟨rest, shorter⟩) : ∃ t, toks = t :: rest ∧ t.isPunct p = true :=
  expectPunct_ok h

theorem ident_sound {toks rest : List Token} {node : Node} (h : Reads (ident toks) node rest) :
    ∃ t, toks = t :: rest ∧ t.kind = .word ∧ node = .token "IDENT" t.text := by
  obtain ⟨_, h⟩ := h
  cases toks with
  | nil => cases h
  | cons t more =>
    simp only [ident] at h
    split at h
    · rename_i word
      simp only [Except.ok.injEq, Prod.mk.injEq, Subtype.mk.injEq] at h
      obtain ⟨rfl, rfl⟩ := h
      exact ⟨t, rfl, beq_iff_eq.mp word, rfl⟩
    · cases h

theorem paramValue_sound {toks rest : List Token} {node : Node} (sound : ∀ t ∈ toks, t.Sound P)
    (h : Reads (paramValue toks) node rest) : ValueLeaf P node ∧ rest <:+ toks := by
  obtain ⟨_, h⟩ := h
  cases toks with
  | nil => cases h
  | cons t more =>
    obtain ⟨kind, start, text⟩ := t
    have hP : P text := (sound _ List.mem_cons_self).2
    -- the value's node is chosen by the token's kind
    cases kind with
    | word =>
      simp [paramValue] at h
      obtain ⟨rfl, rfl⟩ := h
      exact ⟨.ident hP, List.suffix_cons _ _⟩
    | number =>
      simp [paramValue] at h
      obtain ⟨rfl, rfl⟩ := h
      exact ⟨.number hP, List.suffix_cons _ _⟩
    | string =>
      simp [paramValue] at h
      obtain ⟨rfl, rfl⟩ := h
      exact ⟨.string hP, List.suffix_cons _ _⟩
    | blank | punct _ | unscannable => simp [paramValue] at h

theorem bind_eq_ok {ε α β : Type} {x : Except ε α} {f : α → Except ε β} {b : β}
    (h : x >>= f = .ok b) : ∃ a, x = .ok a ∧ f a = .ok b := by
  cases x with
  | error e => cases h
  | ok a => exact ⟨a, rfl, h⟩

theorem expectPunct_suffix {p : Punct} {toks : List Token} {r : Rest toks}
    (h : expectPunct p toks = .ok r) : r.val <:+ toks := by
  obtain ⟨t, eq, -⟩ := expectPunct_ok h
  exact ⟨[t], eq.symm⟩

theorem param_parts {toks rest : List Token} {node : Node} (h : Reads (param toks) node rest) :
    ∃ key r1 r2 value, Reads (ident toks) key r1 ∧ expectPunct .assign r1 = .ok r2 ∧
      Reads (paramValue r2.val) value rest ∧ node = .tree "param" [key, value] := by
  obtain ⟨_, h⟩ := h
  unfold param at h
  obtain ⟨⟨key, r1, h1⟩, keyed, h⟩ := bind_eq_ok h
  dsimp only at h
  obtain ⟨⟨r2, h2⟩, assign, h⟩ := bind_eq_ok h
  dsimp only at h
  obtain ⟨⟨value, r3, h3⟩, valued, h⟩ := bind_eq_ok h
  simp only [pure, Except.pure, Except.ok.injEq, Prod.mk.injEq, Subtype.mk.injEq] at h
  obtain ⟨rfl, rfl⟩ := h
  exact ⟨key, r1, ⟨r2, h2⟩, value, ⟨h1, keyed⟩, assign, ⟨h3, valued⟩, rfl⟩

theorem param_sound {toks rest : List Token} {node : Node} (sound : ∀ t ∈ toks, t.Sound P)
    (h : Reads (param toks) node rest) :
    ∃ k v, node = .tree "param" [.token "IDENT" k, v] ∧ isIdent k = true ∧ ValueLeaf P v ∧
      rest <:+ toks := by
  obtain ⟨key, r1, ⟨r2, h2⟩, value, keyed, assign, valued, rfl⟩ := param_parts h
  obtain ⟨t, rfl, word, rfl⟩ := ident_sound keyed
  have afterKey : r2 <:+ t :: r1 := (expectPunct_suffix assign).trans (List.suffix_cons t r1)
  obtain ⟨leaf, afterValue⟩ := paramValue_sound (sound_of_suffix afterKey sound) valued
  exact ⟨t.text, value, rfl, (sound t List.mem_cons_self).1 word, leaf, afterValue.trans afterKey⟩

theorem moreParams_parts {toks rest : List Token} {acc ps : Array Node}
    (h : Reads (moreParams toks acc) ps rest) :
    (ps = acc ∧ rest = toks ∧ ∀ t ∈ toks.head?, t.isPunct .comma = false) ∨
    (∃ t more first r1, toks = t :: more ∧ t.isPunct .comma = true ∧ Reads (param more) first r1 ∧
        Reads (moreParams r1 (acc.push first)) ps rest) := by
  obtain ⟨_, h⟩ := h
  cases toks with
  | nil =>
    simp only [moreParams] at h
    obtain ⟨rfl, rfl⟩ := reads_inj h
    exact .inl ⟨rfl, rfl, by simp⟩
  | cons t more =>
    by_cases comma : t.isPunct .comma
    · simp only [moreParams, comma, ↓reduceIte] at h
      split at h
      · cases h
      · split at h
        · cases h
        · rename_i _ first r1 h1 readFirst _ others r2 h2 readMore
          obtain ⟨rfl, rfl⟩ := reads_inj h
          exact .inr ⟨t, more, first, r1, rfl, comma, ⟨h1, readFirst⟩, ⟨h2, readMore⟩⟩
    · simp only [moreParams, comma, Bool.false_eq_true, ↓reduceIte] at h
      obtain ⟨rfl, rfl⟩ := reads_inj h
      exact .inl ⟨rfl, rfl, by simpa using comma⟩

theorem moreParams_sound {toks rest : List Token} {acc ps : Array Node}
    (sound : ∀ t ∈ toks, t.Sound P) (h : Reads (moreParams toks acc) ps rest) :
    ∃ more, ps.toList = acc.toList ++ more ∧ ParamTrees P more ∧ rest <:+ toks := by
  obtain ⟨rfl, rfl, -⟩ | ⟨t, more, first, r1, rfl, -, readFirst, readMore⟩ := moreParams_parts h
  · exact ⟨[], by simp, .nil, List.suffix_refl _⟩
  · have shorter := readFirst.bound
    obtain ⟨k, v, rfl, key, leaf, afterFirst⟩ :=
      param_sound (sound_of_suffix (List.suffix_cons t more) sound) readFirst
    have afterFirst := afterFirst.trans (List.suffix_cons t more)
    obtain ⟨tail, eq, trees, afterMore⟩ := moreParams_sound (sound_of_suffix afterFirst sound) readMore
    exact ⟨_ :: tail, by simp [eq], .cons key leaf trees, afterMore.trans afterFirst⟩
termination_by toks.length
decreasing_by subst_vars; simp only [List.length_cons]; omega

theorem params_parts {toks rest : List Token} {node : Node} (h : Reads (params toks) node rest) :
    (∃ lb rb, toks = lb :: rb :: rest ∧ lb.isPunct .lbracket = true ∧ rb.isPunct .rbracket = true ∧
        node = .tree "params" [.absent]) ∨
    (∃ lb t more first r3 ps rb, toks = lb :: t :: more ∧ lb.isPunct .lbracket = true ∧
        t.isPunct .rbracket = false ∧ Reads (param (t :: more)) first r3 ∧
        Reads (moreParams r3 #[first]) ps (rb :: rest) ∧ rb.isPunct .rbracket = true ∧
        node = .tree "params" [.tree "param_list" ps.toList]) := by
  obtain ⟨_, h⟩ := h
  unfold params at h
  split at h
  · cases h
  · rename_i _ r1 h1 opened
    obtain ⟨lb, rfl, isOpen⟩ := expectPunct_taken opened
    cases r1 with
    | nil => cases h
    | cons t more =>
      simp only at h
      split at h
      · -- `[ ]`
        rename_i isClose
        obtain ⟨rfl, rfl⟩ := reads_inj h
        exact .inl ⟨lb, t, rfl, isOpen, isClose, rfl⟩
      · rename_i notClose
        split at h
        · cases h
        · rename_i _ first r3 h3 readFirst
          split at h
          · cases h
          · rename_i _ ps r4 h4 readMore
            split at h
            · cases h
            · rename_i _ r5 h5 closed
              obtain ⟨rfl, rfl⟩ := reads_inj h
              obtain ⟨rb, rfl, isClose⟩ := expectPunct_taken closed
              exact .inr ⟨lb, t, more, first, r3, ps, rb, rfl, isOpen, by simpa using notClose,
                ⟨h3, readFirst⟩, ⟨h4, readMore⟩, isClose, rfl⟩

theorem pid_parts {toks rest : List Token} {node : Node} (h : Reads (pid toks) node rest) :
    (∃ id lb more ps, Reads (ident toks) id (lb :: more) ∧ lb.isPunct .lbracket = true ∧
        Reads (params (lb :: more)) ps rest ∧ node = .tree "parameterized_id" [id, ps]) ∨
    (∃ id, Reads (ident toks) id rest ∧ (∀ t ∈ rest.head?, t.isPunct .lbracket = false) ∧
        node = .tree "parameterized_id" [id, .absent]) := by
  obtain ⟨_, h⟩ := h
  unfold pid at h
  split at h
  · cases h
  · rename_i _ id r1 h1 readId
    cases r1 with
    | nil =>
      obtain ⟨rfl, rfl⟩ := reads_inj h
      exact .inr ⟨id, ⟨h1, readId⟩, by simp, rfl⟩
    | cons lb more =>
      simp only at h
      split at h
      · rename_i bracket
        split at h
        · cases h
        · rename_i _ ps r3 h3 readParams
          obtain ⟨rfl, rfl⟩ := reads_inj h
          exact .inl ⟨id, lb, more, ps, ⟨h1, readId⟩, bracket, ⟨h3, readParams⟩, rfl⟩
      · rename_i notBracket
        obtain ⟨rfl, rfl⟩ := reads_inj h
        exact .inr ⟨id, ⟨h1, readId⟩, by simpa using notBracket, rfl⟩

theorem params_sound {toks rest : List Token} {node : Node} (sound : ∀ t ∈ toks, t.Sound P)
    (h : Reads (params toks) node rest) : ParamsTree P node ∧ rest <:+ toks := by
  rcases params_parts h with ⟨lb, rb, rfl, -, -, rfl⟩ |
    ⟨lb, t, more, first, r3, ps, rb, rfl, -, -, readFirst, readMore, -, rfl⟩
  · exact ⟨.empty, (List.suffix_cons rb rest).trans (List.suffix_cons lb _)⟩
  · have afterOpen : t :: more <:+ lb :: t :: more := List.suffix_cons lb _
    obtain ⟨k, v, rfl, key, leaf, afterFirst⟩ := param_sound (sound_of_suffix afterOpen sound) readFirst
    have afterFirst := afterFirst.trans afterOpen
    obtain ⟨more', eq, trees, afterMore⟩ := moreParams_sound (sound_of_suffix afterFirst sound) readMore
    refine ⟨?_, ((List.suffix_cons rb rest).trans afterMore).trans afterFirst⟩
    rw [eq]
    exact .list (.cons key leaf trees)

theorem pid_sound {toks rest : List Token} {node : Node} (sound : ∀ t ∈ toks, t.Sound P)
    (h : Reads (pid toks) node rest) :
    ∃ w pch, node = .tree "parameterized_id" pch ∧ PidTree P w pch ∧ rest <:+ toks := by
  rcases pid_parts h with ⟨id, lb, more, ps, readId, -, readParams, rfl⟩ | ⟨id, readId, -, rfl⟩
  · obtain ⟨t, rfl, word, rfl⟩ := ident_sound readId
    have ident : isIdent t.text = true := (sound t List.mem_cons_self).1 word
    obtain ⟨tree, afterParams⟩ := params_sound (sound_of_suffix (List.suffix_cons t _) sound) readParams
    exact ⟨t.text, _, rfl, .mk ident tree, afterParams.trans (List.suffix_cons t _)⟩
  · obtain ⟨t, rfl, word, rfl⟩ := ident_sound readId
    have ident : isIdent t.text = true := (sound t List.mem_cons_self).1 word
    exact ⟨t.text, _, rfl, .mk ident .absent, List.suffix_cons t _⟩

theorem graphIndex_parts {toks rest : List Token} {node : Node} (h : Reads (graphIndex toks) node rest) :
    ∃ t, toks = t :: rest ∧ t.kind = .number ∧ (t.text.takeWhile isAsciiDigit).length ≠ 0 ∧
      (t.text.takeWhile isAsciiDigit).length = t.text.length ∧
      node = .tree "graph_index" [.token "INT" t.text] := by
  obtain ⟨_, h⟩ := h
  cases toks with
  | nil => cases h
  | cons t more =>
    simp only [graphIndex] at h
    split at h
    · rename_i number
      split at h
      · cases h
      · rename_i digits
        split at h
        · rename_i whole
          obtain ⟨rfl, rfl⟩ := reads_inj h
          exact ⟨t, rfl, by simpa using number, by simpa using digits, by simpa using whole, rfl⟩
        · cases h
    · cases h

theorem graphIndex_sound {toks rest : List Token} {node : Node} (h : Reads (graphIndex toks) node rest) :
    IndexTree node ∧ rest <:+ toks := by
  obtain ⟨t, rfl, -, -, -, rfl⟩ := graphIndex_parts h
  exact ⟨.index, List.suffix_cons t rest⟩

def LeadsWith (lead : Option (List Nat)) (toks : List Token) : Prop :=
  ∀ w ∈ lead, ∃ t ∈ toks.head?, t.kind = .word ∧ t.text = w

theorem ne_of_isWord_false {t : Token} {w : String} (word : t.kind = .word) (h : t.isWord w = false) :
    t.text ≠ ofText w := by
  intro eq
  simp [Token.isWord, word, eq, ofText] at h

theorem lead_ne_let {toks : List Token} {lead : Option (List Nat)}
    (stop : ∀ t ∈ toks.head?, t.isWord "let" = false) (leads : LeadsWith lead toks) :
    lead ≠ some (ofText "let") := by
  rintro rfl
  obtain ⟨t, first, word, text⟩ := leads _ rfl
  exact ne_of_isWord_false word (stop t first) text

theorem binding_sound {b : Token} {bind : Node} (sound : b.Sound P)
    (h : (if b.kind == .blank then some (.tree "unbound" [])
      else if b.kind == .word then some (.tree "bound" [identNode b]) else none) = some bind) :
    BindingTree bind := by
  split at h
  · cases h
    exact .unbound
  · split at h
    · rename_i word
      cases h
      exact .bound (sound.1 (beq_iff_eq.mp word))
    · cases h

theorem spec_parts {toks rest : List Token} {node : Node} (h : Reads (spec toks) node rest) :
    (∃ t c more out, toks = t :: c :: more ∧ t.kind = .word ∧ t.isWord "resolved" = false ∧
        c.isPunct .colon = true ∧ Reads (outputRef more) out rest ∧
        node = .tree "substitution_spec" [identNode t, out]) ∨
    (∃ out, (∀ t c more, toks = t :: c :: more → t.kind = .word → t.isWord "resolved" = false →
        c.isPunct .colon = false) ∧ Reads (outputRef toks) out rest ∧
      node = .tree "substitution_spec" [.absent, out]) := by
  obtain ⟨_, h⟩ := h
  unfold spec at h
  split at h
  · rename_i t c more _
    by_cases named : (t.kind == .word && !t.isWord "resolved" && c.isPunct .colon) = true
    · -- a word other than `resolved` and a `:` name the input
      rw [if_pos named] at h
      simp only [Bool.and_eq_true, Bool.not_eq_eq_eq_not, Bool.not_true, beq_iff_eq] at named
      split at h
      · cases h
      · rename_i out r2 h2 readOut
        obtain ⟨rfl, rfl⟩ := reads_inj h
        exact .inl ⟨t, c, more, out, rfl, named.1.1, named.1.2, named.2, ⟨h2, readOut⟩, rfl⟩
    · rw [if_neg named] at h
      split at h
      · cases h
      · rename_i out r2 readOut
        obtain ⟨rfl, rfl⟩ := reads_inj h
        refine .inr ⟨out, fun t' c' more' eq word notResolved => ?_, ⟨r2.property, readOut⟩, rfl⟩
        obtain ⟨rfl, rfl, rfl⟩ := List.cons_eq_cons.mp eq
        simpa [word, notResolved] using named
  · -- fewer than two tokens: only an output can be read
    rename_i short
    split at h
    · cases h
    · rename_i out r2 readOut
      obtain ⟨rfl, rfl⟩ := reads_inj h
      exact .inr ⟨out, fun t c more eq => absurd eq (short t c more), ⟨r2.property, readOut⟩, rfl⟩

theorem outputRef_parts {toks rest : List Token} {node : Node} (h : Reads (outputRef toks) node rest) :
    (∃ sub d r id, Reads (substitution toks) sub (d :: r) ∧ d.isPunct .dot = true ∧
        Reads (ident r) id rest ∧ node = .tree "output_ref" [sub, id]) ∨
    (∃ sub, Reads (substitution toks) sub rest ∧ (∀ t ∈ rest.head?, t.isPunct .dot = false) ∧
        node = .tree "output_ref" [sub, .absent]) := by
  obtain ⟨_, h⟩ := h
  unfold outputRef at h
  split at h
  · cases h
  · rename_i _ sub r1 h1 readSub
    have subRead : Reads (substitution toks) sub r1 := ⟨h1, readSub⟩
    split at h
    · rename_i d r _
      split at h
      · rename_i dot
        split at h
        · cases h
        · rename_i _ id r3 h3 readId
          obtain ⟨rfl, rfl⟩ := reads_inj h
          exact .inl ⟨sub, d, r, id, subRead, dot, ⟨h3, readId⟩, rfl⟩
      · rename_i notDot
        obtain ⟨rfl, rfl⟩ := reads_inj h
        exact .inr ⟨sub, subRead, by simpa using notDot, rfl⟩
    · obtain ⟨rfl, rfl⟩ := reads_inj h
      exact .inr ⟨sub, subRead, by simp, rfl⟩

theorem name_parts {toks rest : List Token} {node : Node} (h : Reads (name toks) node rest) :
    ∃ decls r1 sub, Reads (declarations toks #[]) decls r1 ∧ Reads (substitution r1) sub rest ∧
      node = .tree "name" [.tree "declarations" decls.toList, sub] := by
  obtain ⟨_, h⟩ := h
  unfold name at h
  split at h
  · cases h
  · rename_i _ decls r1 h1 readDecls
    split at h
    · cases h
    · rename_i _ sub r2 h2 readSub
      obtain ⟨rfl, rfl⟩ := reads_inj h
      exact ⟨decls, r1, sub, ⟨h1, readDecls⟩, ⟨h2, readSub⟩, rfl⟩

theorem declaration_parts {toks rest : List Token} {node : Node}
    (h : Reads (declaration toks) node rest) :
    ∃ b a more bind sub c, toks = b :: a :: more ∧
      (if b.kind == .blank then some (.tree "unbound" [])
        else if b.kind == .word then some (.tree "bound" [identNode b]) else none) = some bind ∧
      a.isPunct .assign = true ∧ Reads (substitution more) sub (c :: rest) ∧
      c.isPunct .semicolon = true ∧ node = .tree "declaration" [bind, sub] := by
  obtain ⟨_, h⟩ := h
  cases toks with
  | nil => simp [declaration] at h
  | cons b more =>
    simp only [declaration] at h
    split at h
    · cases h
    · rename_i _ bind chosen
      split at h
      · cases h
      · rename_i _ r1 h1 assign
        split at h
        · cases h
        · rename_i _ sub r2 h2 readSub
          split at h
          · cases h
          · rename_i _ r3 h3 semicolon
            obtain ⟨rfl, rfl⟩ := reads_inj h
            obtain ⟨a, rfl, isAssign⟩ := expectPunct_taken assign
            obtain ⟨c, rfl, isSemicolon⟩ := expectPunct_taken semicolon
            exact ⟨b, a, r1, bind, sub, c, rfl, chosen, isAssign, ⟨h2, readSub⟩, isSemicolon, rfl⟩

theorem inputList_parts {index : Node} {toks rest : List Token} {node : Node}
    (h : Reads (inputList index toks) node rest) :
    (∃ lp rp, toks = lp :: rp :: rest ∧ lp.isPunct .lparen = true ∧ rp.isPunct .rparen = true ∧
        node = .tree "multiary" [index, .absent]) ∨
    (∃ lp t more first r3 specs rp, toks = lp :: t :: more ∧ lp.isPunct .lparen = true ∧
        t.isPunct .rparen = false ∧ Reads (spec (t :: more)) first r3 ∧
        Reads (moreSpecs r3 #[first]) specs (rp :: rest) ∧ rp.isPunct .rparen = true ∧
        node = .tree "multiary" [index, .tree "spec_list" specs.toList]) := by
  obtain ⟨_, h⟩ := h
  unfold inputList at h
  split at h
  · cases h
  · rename_i _ r1 h1 opened
    obtain ⟨lp, rfl, isOpen⟩ := expectPunct_taken opened
    cases r1 with
    | nil => cases h
    | cons t more =>
      simp only at h
      split at h
      · -- `( )`
        rename_i isClose
        obtain ⟨rfl, rfl⟩ := reads_inj h
        exact .inl ⟨lp, t, rfl, isOpen, isClose, rfl⟩
      · rename_i notClose
        split at h
        · cases h
        · rename_i _ first r3 h3 readFirst
          split at h
          · cases h
          · rename_i _ specs r4 h4 readMore
            split at h
            · cases h
            · rename_i _ r5 h5 closed
              obtain ⟨rfl, rfl⟩ := reads_inj h
              obtain ⟨rp, rfl, isClose⟩ := expectPunct_taken closed
              exact .inr ⟨lp, t, more, first, r3, specs, rp, rfl, isOpen, by simpa using notClose,
                ⟨h3, readFirst⟩, ⟨h4, readMore⟩, isClose, rfl⟩

theorem multiary_parts {toks rest : List Token} {node : Node} (h : Reads (multiary toks) node rest) :
    (∃ a more index r1, toks = a :: more ∧ a.isPunct .at = true ∧ Reads (graphIndex more) index r1 ∧
        Reads (inputList index r1) node rest) ∨
    (∃ t more, toks = t :: more ∧ t.isPunct .at = false ∧ Reads (inputList .absent toks) node rest) := by
  obtain ⟨shorter, h⟩ := h
  cases toks with
  | nil => simp [multiary] at h
  | cons t more =>
    by_cases indexed : t.isPunct .at
    · simp only [multiary, indexed, ↓reduceIte] at h
      split at h
      · cases h
      · rename_i _ index r1 h1 readIndex
        split at h
        · cases h
        · rename_i _ m r2 h2 readList
          obtain ⟨rfl, rfl⟩ := reads_inj h
          exact .inl ⟨t, more, index, r1, rfl, indexed, ⟨h1, readIndex⟩, ⟨h2, readList⟩⟩
    · simp only [multiary, indexed, Bool.false_eq_true, ↓reduceIte] at h
      exact .inr ⟨t, more, rfl, by simpa using indexed, ⟨shorter, h⟩⟩

theorem afterPid_parts {first : Node} {toks rest : List Token} {node : Node}
    (h : Reads (afterPid first toks) node rest) :
    (∃ sc more id r1 m, toks = sc :: more ∧ sc.isPunct .scope = true ∧ Reads (pid more) id r1 ∧
        Reads (multiary r1) m rest ∧
        node = .tree "substitution" [.tree "atomic_ref" [.tree "builtin_namespace" [first], id], m]) ∨
    (∃ t more m, toks = t :: more ∧ t.isPunct .scope = false ∧ startsInputs toks = true ∧
        Reads (multiary toks) m rest ∧
        node = .tree "substitution" [.tree "atomic_ref" [.absent, first], m]) := by
  obtain ⟨_, h⟩ := h
  cases toks with
  | nil => simp [afterPid] at h
  | cons t more =>
    by_cases scope : t.isPunct .scope
    · simp only [afterPid, scope, ↓reduceIte] at h
      split at h
      · cases h
      · rename_i _ id r1 h1 readId
        split at h
        · cases h
        · rename_i _ m r2 h2 readInputs
          obtain ⟨rfl, rfl⟩ := reads_inj h
          exact .inl ⟨t, more, id, r1, m, rfl, scope, ⟨h1, readId⟩, ⟨h2, readInputs⟩, rfl⟩
    by_cases inputs : startsInputs (t :: more)
    · simp only [afterPid, scope, inputs, Bool.false_eq_true, ↓reduceIte] at h
      split at h
      · cases h
      · rename_i _ m r1 h1 readInputs
        obtain ⟨rfl, rfl⟩ := reads_inj h
        exact .inr ⟨t, more, m, rfl, by simpa using scope, inputs, ⟨h1, readInputs⟩, rfl⟩
    · simp [afterPid, scope, inputs] at h

theorem atomicOrVariable_parts {w : Token} {toks rest : List Token} {node : Node}
    (h : Reads (atomicOrVariable w toks) node rest) :
    (∃ t more ps r1, toks = t :: more ∧ t.isPunct .lbracket = true ∧ Reads (params toks) ps r1 ∧
        Reads (afterPid (.tree "parameterized_id" [identNode w, ps]) r1) node rest) ∨
    (∃ t more, toks = t :: more ∧ t.isPunct .lbracket = false ∧
        (t.isPunct .scope || startsInputs toks) = true ∧
        Reads (afterPid (.tree "parameterized_id" [identNode w, .absent]) toks) node rest) ∨
    (rest = toks ∧ (∀ t more, toks = t :: more →
        t.isPunct .lbracket = false ∧ (t.isPunct .scope || startsInputs toks) = false) ∧
        node = .tree "substitution" [.tree "variable_ref" [identNode w]]) := by
  obtain ⟨_, h⟩ := h
  cases toks with
  | nil =>
    simp only [atomicOrVariable] at h
    obtain ⟨rfl, rfl⟩ := reads_inj h
    exact .inr (.inr ⟨rfl, fun t more eq => absurd eq.symm (List.cons_ne_nil t more), rfl⟩)
  | cons t more =>
    by_cases lbracket : t.isPunct .lbracket
    · simp only [atomicOrVariable, lbracket, ↓reduceIte] at h
      split at h
      · cases h
      · rename_i _ ps r1 h1 readParams
        split at h
        · cases h
        · rename_i _ sub r2 h2 readSub
          obtain ⟨rfl, rfl⟩ := reads_inj h
          exact .inl ⟨t, more, ps, r1, rfl, lbracket, ⟨h1, readParams⟩, ⟨h2, readSub⟩⟩
    have lbracket : t.isPunct .lbracket = false := by simpa using lbracket
    by_cases goesOn : (t.isPunct .scope || startsInputs (t :: more)) = true
    · simp only [atomicOrVariable, lbracket, goesOn, Bool.false_eq_true, ↓reduceIte] at h
      split at h
      · cases h
      · rename_i _ sub r1 h1 readSub
        obtain ⟨rfl, rfl⟩ := reads_inj h
        exact .inr (.inl ⟨t, more, rfl, lbracket, goesOn, ⟨h1, readSub⟩⟩)
    · simp only [atomicOrVariable, lbracket, goesOn, Bool.false_eq_true, ↓reduceIte] at h
      obtain ⟨rfl, rfl⟩ := reads_inj h
      refine .inr (.inr ⟨rfl, fun t' more' eq => ?_, rfl⟩)
      obtain ⟨rfl, rfl⟩ := List.cons_eq_cons.mp eq
      exact ⟨lbracket, by simpa using goesOn⟩

theorem declarations_parts {toks rest : List Token} {acc ds : Array Node}
    (h : Reads (declarations toks acc) ds rest) :
    (ds = acc ∧ rest = toks ∧ ∀ t ∈ toks.head?, t.isWord "let" = false) ∨
    (∃ t more d r1, toks = t :: more ∧ t.isWord "let" = true ∧ Reads (declaration more) d r1 ∧
        Reads (declarations r1 (acc.push d)) ds rest) := by
  obtain ⟨_, h⟩ := h
  cases toks with
  | nil =>
    simp only [declarations] at h
    obtain ⟨rfl, rfl⟩ := reads_inj h
    exact .inl ⟨rfl, rfl, by simp⟩
  | cons t more =>
    by_cases keyword : t.isWord "let"
    · simp only [declarations, keyword, ↓reduceIte] at h
      split at h
      · cases h
      · split at h
        · cases h
        · rename_i _ d r1 h1 readDecl _ others r2 h2 readMore
          obtain ⟨rfl, rfl⟩ := reads_inj h
          exact .inr ⟨t, more, d, r1, rfl, keyword, ⟨h1, readDecl⟩, ⟨h2, readMore⟩⟩
    · simp only [declarations, keyword, Bool.false_eq_true, ↓reduceIte] at h
      obtain ⟨rfl, rfl⟩ := reads_inj h
      exact .inl ⟨rfl, rfl, by simpa using keyword⟩

theorem moreSpecs_parts {toks rest : List Token} {acc ss : Array Node}
    (h : Reads (moreSpecs toks acc) ss rest) :
    (ss = acc ∧ rest = toks ∧ ∀ t ∈ toks.head?, t.isPunct .comma = false) ∨
    (∃ t more first r1, toks = t :: more ∧ t.isPunct .comma = true ∧ Reads (spec more) first r1 ∧
        Reads (moreSpecs r1 (acc.push first)) ss rest) := by
  obtain ⟨_, h⟩ := h
  cases toks with
  | nil =>
    simp only [moreSpecs] at h
    obtain ⟨rfl, rfl⟩ := reads_inj h
    exact .inl ⟨rfl, rfl, by simp⟩
  | cons t more =>
    by_cases comma : t.isPunct .comma
    · simp only [moreSpecs, comma, ↓reduceIte] at h
      split at h
      · cases h
      · split at h
        · cases h
        · rename_i _ first r1 h1 readFirst _ others r2 h2 readMore
          obtain ⟨rfl, rfl⟩ := reads_inj h
          exact .inr ⟨t, more, first, r1, rfl, comma, ⟨h1, readFirst⟩, ⟨h2, readMore⟩⟩
    · simp only [moreSpecs, comma, Bool.false_eq_true, ↓reduceIte] at h
      obtain ⟨rfl, rfl⟩ := reads_inj h
      exact .inl ⟨rfl, rfl, by simpa using comma⟩

theorem substitution_parts {toks rest : List Token} {node : Node}
    (h : Reads (substitution toks) node rest) :
    (∃ t lp more id rp, toks = t :: lp :: more ∧ t.isWord "resolved" = true ∧
        lp.isPunct .lparen = true ∧ Reads (ident more) id (rp :: rest) ∧ rp.isPunct .rparen = true ∧
        node = .tree "substitution" [.tree "resolved_ref" [id]]) ∨
    (∃ t more, toks = t :: more ∧ t.isWord "resolved" = false ∧ t.kind = .word ∧
        Reads (atomicOrVariable t more) node rest) ∨
    (∃ t more inner rp r2 m, toks = t :: more ∧ t.isPunct .lparen = true ∧
        Reads (name more) inner (rp :: r2) ∧ rp.isPunct .rparen = true ∧ startsInputs r2 = true ∧
        Reads (multiary r2) m rest ∧ node = .tree "substitution" [.tree "nested_ref" [inner], m]) ∨
    (∃ t more inner rp, toks = t :: more ∧ t.isPunct .lparen = true ∧
        Reads (name more) inner (rp :: rest) ∧ rp.isPunct .rparen = true ∧ startsInputs rest = false ∧
        node = .tree "substitution" [.tree "nested_ref" [inner], .absent]) ∨
    (∃ t more out rb sc r3 id r4 m, toks = t :: more ∧ t.isPunct .lbrace = true ∧
        Reads (outputRef more) out (rb :: sc :: r3) ∧ rb.isPunct .rbrace = true ∧
        sc.isPunct .scope = true ∧ Reads (pid r3) id r4 ∧ Reads (multiary r4) m rest ∧
        node = .tree "substitution" [.tree "atomic_ref" [.tree "named_namespace" [out], id], m]) := by
  obtain ⟨shorter, h⟩ := h
  cases toks with
  | nil => simp [substitution] at h
  | cons t more =>
    by_cases resolved : t.isWord "resolved"
    · -- `resolved ( id )`
      simp only [substitution, resolved, ↓reduceIte] at h
      split at h
      · cases h
      · rename_i _ r1 h1 opened
        split at h
        · cases h
        · rename_i _ id r2 h2 readId
          split at h
          · cases h
          · rename_i _ r3 h3 closed
            obtain ⟨rfl, rfl⟩ := reads_inj h
            obtain ⟨lp, rfl, isOpen⟩ := expectPunct_taken opened
            obtain ⟨rp, rfl, isClose⟩ := expectPunct_taken closed
            exact .inl ⟨t, lp, r1, id, rp, rfl, resolved, isOpen, ⟨h2, readId⟩, isClose, rfl⟩
    have resolved : t.isWord "resolved" = false := by simpa using resolved
    by_cases word : t.kind = .word
    · -- a leading word
      simp only [substitution, resolved, word, beq_self_eq_true, Bool.false_eq_true, ↓reduceIte] at h
      split at h
      · cases h
      · rename_i _ sub r1 h1 readSub
        obtain ⟨rfl, rfl⟩ := reads_inj h
        exact .inr (.inl ⟨t, more, rfl, resolved, word, ⟨h1, readSub⟩⟩)
    by_cases lparen : t.isPunct .lparen
    · -- a nested name
      simp only [substitution, resolved, word, lparen, beq_iff_eq, Bool.false_eq_true, ↓reduceIte] at h
      split at h
      · cases h
      · rename_i _ inner r1 h1 readInner
        split at h
        · cases h
        · rename_i _ r2 h2 closed
          obtain ⟨rp, rfl, isClose⟩ := expectPunct_taken closed
          split at h
          · rename_i inputs
            split at h
            · cases h
            · rename_i _ m r3 h3 readInputs
              obtain ⟨rfl, rfl⟩ := reads_inj h
              exact .inr (.inr (.inl ⟨t, more, inner, rp, r2, m, rfl, lparen, ⟨h1, readInner⟩,
                isClose, inputs, ⟨h3, readInputs⟩, rfl⟩))
          · rename_i noInputs
            obtain ⟨rfl, rfl⟩ := reads_inj h
            exact .inr (.inr (.inr (.inl ⟨t, more, inner, rp, rfl, lparen, ⟨h1, readInner⟩, isClose,
              by simpa using noInputs, rfl⟩)))
    by_cases lbrace : t.isPunct .lbrace
    · -- a computed namespace
      simp only [substitution, resolved, word, lparen, lbrace, beq_iff_eq, Bool.false_eq_true,
        ↓reduceIte] at h
      split at h
      · cases h
      · rename_i _ out r1 h1 readOut
        split at h
        · cases h
        · rename_i _ r2 h2 closed
          split at h
          · cases h
          · rename_i _ r3 h3 scopeRead
            split at h
            · cases h
            · rename_i _ id r4 h4 readId
              split at h
              · cases h
              · rename_i _ m r5 h5 readInputs
                obtain ⟨rfl, rfl⟩ := reads_inj h
                obtain ⟨rb, rfl, isClose⟩ := expectPunct_taken closed
                obtain ⟨sc, rfl, isScope⟩ := expectPunct_taken scopeRead
                exact .inr (.inr (.inr (.inr ⟨t, more, out, rb, sc, r3, id, r4, m, rfl, lbrace,
                  ⟨h1, readOut⟩, isClose, isScope, ⟨h4, readId⟩, ⟨h5, readInputs⟩, rfl⟩)))
    · simp [substitution, resolved, word, lparen, lbrace] at h

theorem suffix_of_cons {toks r : List Token} {t : Token} (h : toks = t :: r) : r <:+ toks :=
  ⟨[t], h.symm⟩

-- Each theorem follows its reader's recursion, measured as the reader is. The bounds that feed
-- the measure are stated over the tail the reading was split from, so that once the split list
-- is substituted and its length unfolded, every decreasing goal is linear arithmetic.
mutual

theorem name_sound : ∀ {toks rest : List Token} {node : Node}, (∀ t ∈ toks, t.Sound P) →
    Reads (name toks) node rest → ∃ nch, node = .tree "name" nch ∧ NameTree P nch ∧ rest <:+ toks
  | toks, rest, node, sound, h => by
    obtain ⟨decls, r1, sub, readDecls, readSub, rfl⟩ := name_parts h
    -- the substitution is read from no more tokens than the name
    have shorter : r1.length ≤ toks.length := readDecls.bound
    obtain ⟨more, eq, trees, stop, afterDecls⟩ := declarations_sound sound readDecls
    obtain ⟨lead, parts, rfl, subst, leads, afterSub⟩ :=
      substitution_sound (sound_of_suffix afterDecls sound) readSub
    refine ⟨_, rfl, ?_, afterSub.trans afterDecls⟩
    rw [eq, Array.toList_empty, List.nil_append]
    exact .mk trees subst (lead_ne_let stop leads)
termination_by toks => 5 * toks.length + 4
decreasing_by all_goals omega

theorem declarations_sound : ∀ {toks rest : List Token} {acc ds : Array Node}, (∀ t ∈ toks, t.Sound P) →
    Reads (declarations toks acc) ds rest →
    ∃ more, ds.toList = acc.toList ++ more ∧ DeclTrees P more ∧
      (∀ t ∈ rest.head?, t.isWord "let" = false) ∧ rest <:+ toks
  | toks, rest, acc, ds, sound, h => by
    obtain ⟨rfl, rfl, stop⟩ | ⟨t, more, d, r1, rfl, -, readDecl, readMore⟩ := declarations_parts h
    · exact ⟨[], by simp, .nil, stop, List.suffix_refl _⟩
    · have shorter := readDecl.bound
      obtain ⟨b, parts, lead, rfl, binding, subst, afterDecl⟩ :=
        declaration_sound (sound_of_suffix (List.suffix_cons t more) sound) readDecl
      have afterDecl := afterDecl.trans (List.suffix_cons t more)
      obtain ⟨tail, eq, trees, stop, afterMore⟩ :=
        declarations_sound (sound_of_suffix afterDecl sound) readMore
      exact ⟨_ :: tail, by simp [eq], .cons binding subst trees, stop, afterMore.trans afterDecl⟩
termination_by toks => 5 * toks.length + 3
decreasing_by all_goals subst_vars; (try simp only [List.length_cons]); omega

theorem declaration_sound : ∀ {toks rest : List Token} {node : Node}, (∀ t ∈ toks, t.Sound P) →
    Reads (declaration toks) node rest →
    ∃ b parts lead, node = .tree "declaration" [b, .tree "substitution" parts] ∧ BindingTree b ∧
      SubstTree P lead parts ∧ rest <:+ toks
  | toks, rest, node, sound, h => by
    obtain ⟨b, a, more, bind, sub, c, rfl, chosen, -, readSub, -, rfl⟩ := declaration_parts h
    have afterAssign : more <:+ b :: a :: more := (List.suffix_cons a more).trans (List.suffix_cons b _)
    obtain ⟨lead, parts, rfl, subst, -, afterSub⟩ :=
      substitution_sound (sound_of_suffix afterAssign sound) readSub
    exact ⟨bind, parts, lead, rfl, binding_sound (sound b List.mem_cons_self) chosen, subst,
      ((List.suffix_cons c rest).trans afterSub).trans afterAssign⟩
termination_by toks => 5 * toks.length
decreasing_by all_goals subst_vars; (try simp only [List.length_cons]); omega

theorem substitution_sound : ∀ {toks rest : List Token} {node : Node}, (∀ t ∈ toks, t.Sound P) →
    Reads (substitution toks) node rest →
    ∃ lead parts, node = .tree "substitution" parts ∧ SubstTree P lead parts ∧ LeadsWith lead toks ∧
      rest <:+ toks
  | toks, rest, node, sound, h => by
    rcases substitution_parts h with
      ⟨t, lp, more, id, rp, rfl, -, -, readId, -, rfl⟩ |
      ⟨t, more, rfl, resolved, word, readSub⟩ |
      ⟨t, more, inner, rp, r2, m, rfl, -, readInner, -, -, readInputs, rfl⟩ |
      ⟨t, more, inner, rp, rfl, -, readInner, -, -, rfl⟩ |
      ⟨t, more, out, rb, sc, r3, id, r4, m, rfl, -, readOut, -, -, readId, readInputs, rfl⟩
    · -- `resolved ( word )`
      obtain ⟨u, eq, word, rfl⟩ := ident_sound readId
      have afterOpen : more <:+ t :: lp :: more :=
        (List.suffix_cons lp more).trans (List.suffix_cons t _)
      have ident : isIdent u.text = true :=
        (sound u (afterOpen.subset (by rw [eq]; exact List.mem_cons_self))).1 word
      exact ⟨none, _, rfl, .resolved ident, by simp [LeadsWith],
        ((List.suffix_cons rp rest).trans (suffix_of_cons eq)).trans afterOpen⟩
    · -- a leading word: an atomic reference or a variable
      obtain ⟨parts, rfl, subst, afterSub⟩ :=
        atomicOrVariable_sound word ((sound t List.mem_cons_self).1 word) (ne_of_isWord_false word resolved)
          (sound_of_suffix (List.suffix_cons t more) sound) readSub
      refine ⟨some t.text, parts, rfl, subst, ?_, afterSub.trans (List.suffix_cons t more)⟩
      rintro w ⟨⟩
      exact ⟨t, rfl, word, rfl⟩
    · -- a nested name and inputs
      have shorter : r2.length < more.length := Nat.lt_of_succ_lt readInner.bound
      obtain ⟨nch, rfl, nameTree, afterInner⟩ :=
        name_sound (sound_of_suffix (List.suffix_cons t more) sound) readInner
      have afterClose := ((List.suffix_cons rp r2).trans afterInner).trans (List.suffix_cons t more)
      obtain ⟨inputs, afterInputs⟩ := multiary_sound (sound_of_suffix afterClose sound) readInputs
      exact ⟨none, _, rfl, .nestedInputs nameTree inputs, by simp [LeadsWith],
        afterInputs.trans afterClose⟩
    · -- a nested name alone
      obtain ⟨nch, rfl, nameTree, afterInner⟩ :=
        name_sound (sound_of_suffix (List.suffix_cons t more) sound) readInner
      exact ⟨none, _, rfl, .nested nameTree, by simp [LeadsWith],
        ((List.suffix_cons rp rest).trans afterInner).trans (List.suffix_cons t more)⟩
    · -- a computed namespace: `{ output } :: pid` and inputs
      have shorter : r4.length < more.length :=
        Nat.lt_trans readId.bound (Nat.lt_of_succ_lt (Nat.lt_of_succ_lt readOut.bound))
      obtain ⟨output, afterOut⟩ :=
        outputRef_sound (sound_of_suffix (List.suffix_cons t more) sound) readOut
      have afterScope : r3 <:+ t :: more := ((List.suffix_cons sc r3).trans (List.suffix_cons rb _)).trans
        (afterOut.trans (List.suffix_cons t more))
      obtain ⟨v, pch, rfl, pidTree, afterId⟩ := pid_sound (sound_of_suffix afterScope sound) readId
      have afterId := afterId.trans afterScope
      obtain ⟨inputs, afterInputs⟩ := multiary_sound (sound_of_suffix afterId sound) readInputs
      exact ⟨none, _, rfl, .computed output pidTree inputs, by simp [LeadsWith],
        afterInputs.trans afterId⟩
termination_by toks => 5 * toks.length
decreasing_by all_goals subst_vars; (try simp only [List.length_cons]); omega

theorem atomicOrVariable_sound : ∀ {w : Token} {toks rest : List Token} {node : Node}, w.kind = .word →
    isIdent w.text = true → w.text ≠ ofText "resolved" → (∀ t ∈ toks, t.Sound P) →
    Reads (atomicOrVariable w toks) node rest →
    ∃ parts, node = .tree "substitution" parts ∧ SubstTree P (some w.text) parts ∧ rest <:+ toks
  | w, toks, rest, node, _, ident, notResolved, sound, h => by
    rcases atomicOrVariable_parts h with ⟨t, more, ps, r1, rfl, -, readParams, readSub⟩ |
      ⟨t, more, rfl, -, -, readSub⟩ | ⟨rfl, -, rfl⟩
    · have shorter : r1.length ≤ more.length := Nat.le_of_lt_succ readParams.bound
      obtain ⟨tree, afterParams⟩ := params_sound sound readParams
      obtain ⟨parts, rfl, subst, afterSub⟩ :=
        afterPid_sound (.mk ident tree) notResolved (sound_of_suffix afterParams sound) readSub
      exact ⟨parts, rfl, subst, afterSub.trans afterParams⟩
    · exact afterPid_sound (.mk ident .absent) notResolved sound readSub
    · exact ⟨_, rfl, .var ident notResolved, List.suffix_refl _⟩
termination_by _ toks => 5 * toks.length + 4
decreasing_by all_goals subst_vars; (try simp only [List.length_cons]); omega

theorem afterPid_sound : ∀ {w : List Nat} {pch : List Node} {toks rest : List Token} {node : Node},
    PidTree P w pch → w ≠ ofText "resolved" → (∀ t ∈ toks, t.Sound P) →
    Reads (afterPid (.tree "parameterized_id" pch) toks) node rest →
    ∃ parts, node = .tree "substitution" parts ∧ SubstTree P (some w) parts ∧ rest <:+ toks
  | w, pch, toks, rest, node, pidTree, notResolved, sound, h => by
    rcases afterPid_parts h with ⟨sc, more, id, r1, m, rfl, -, readId, readInputs, rfl⟩ |
      ⟨t, more, m, rfl, -, -, readInputs, rfl⟩
    · -- the pid was a namespace: `:: pid` and inputs follow
      have shorter := readId.bound
      obtain ⟨v, vch, rfl, idTree, afterId⟩ :=
        pid_sound (sound_of_suffix (List.suffix_cons sc more) sound) readId
      have afterId := afterId.trans (List.suffix_cons sc more)
      obtain ⟨inputs, afterInputs⟩ := multiary_sound (sound_of_suffix afterId sound) readInputs
      exact ⟨_, rfl, .builtin pidTree notResolved idTree inputs, afterInputs.trans afterId⟩
    · obtain ⟨inputsTree, afterInputs⟩ := multiary_sound sound readInputs
      exact ⟨_, rfl, .atomic pidTree notResolved inputsTree, afterInputs⟩
termination_by _ _ toks => 5 * toks.length + 3
decreasing_by all_goals subst_vars; (try simp only [List.length_cons]); omega

theorem multiary_sound : ∀ {toks rest : List Token} {node : Node}, (∀ t ∈ toks, t.Sound P) →
    Reads (multiary toks) node rest → InputsTree P node ∧ rest <:+ toks
  | toks, rest, node, sound, h => by
    rcases multiary_parts h with ⟨a, more, index, r1, rfl, -, readIndex, readList⟩ |
      ⟨t, more, rfl, -, readList⟩
    · have shorter := readIndex.bound
      obtain ⟨indexTree, afterIndex⟩ := graphIndex_sound readIndex
      have afterIndex := afterIndex.trans (List.suffix_cons a more)
      obtain ⟨inputs, afterList⟩ := inputList_sound indexTree (sound_of_suffix afterIndex sound) readList
      exact ⟨inputs, afterList.trans afterIndex⟩
    · exact inputList_sound .absent sound readList
termination_by toks => 5 * toks.length + 2
decreasing_by all_goals subst_vars; (try simp only [List.length_cons]); omega

theorem inputList_sound : ∀ {index : Node} {toks rest : List Token} {node : Node}, IndexTree index →
    (∀ t ∈ toks, t.Sound P) → Reads (inputList index toks) node rest → InputsTree P node ∧ rest <:+ toks
  | index, toks, rest, node, indexTree, sound, h => by
    rcases inputList_parts h with ⟨lp, rp, rfl, -, -, rfl⟩ |
      ⟨lp, t, more, first, r3, specs, rp, rfl, -, -, readFirst, readMore, -, rfl⟩
    · exact ⟨.none indexTree, (List.suffix_cons rp rest).trans (List.suffix_cons lp _)⟩
    · have shorter : r3.length ≤ more.length := Nat.le_of_lt_succ readFirst.bound
      have afterOpen : t :: more <:+ lp :: t :: more := List.suffix_cons lp _
      obtain ⟨spec, afterFirst⟩ := spec_sound (sound_of_suffix afterOpen sound) readFirst
      have afterFirst := afterFirst.trans afterOpen
      obtain ⟨more', eq, trees, afterMore⟩ := moreSpecs_sound (sound_of_suffix afterFirst sound) readMore
      refine ⟨?_, ((List.suffix_cons rp rest).trans afterMore).trans afterFirst⟩
      rw [eq]
      exact .specs indexTree (.cons spec trees)
termination_by _ toks => 5 * toks.length + 1
decreasing_by all_goals subst_vars; (try simp only [List.length_cons]); omega

theorem moreSpecs_sound : ∀ {toks rest : List Token} {acc ss : Array Node}, (∀ t ∈ toks, t.Sound P) →
    Reads (moreSpecs toks acc) ss rest →
    ∃ more, ss.toList = acc.toList ++ more ∧ SpecTrees P more ∧ rest <:+ toks
  | toks, rest, acc, ss, sound, h => by
    obtain ⟨rfl, rfl, -⟩ | ⟨t, more, first, r1, rfl, -, readFirst, readMore⟩ := moreSpecs_parts h
    · exact ⟨[], by simp, .nil, List.suffix_refl _⟩
    · have shorter := readFirst.bound
      obtain ⟨spec, afterFirst⟩ := spec_sound (sound_of_suffix (List.suffix_cons t more) sound) readFirst
      have afterFirst := afterFirst.trans (List.suffix_cons t more)
      obtain ⟨tail, eq, trees, afterMore⟩ := moreSpecs_sound (sound_of_suffix afterFirst sound) readMore
      exact ⟨_ :: tail, by simp [eq], .cons spec trees, afterMore.trans afterFirst⟩
termination_by toks => 5 * toks.length + 3
decreasing_by all_goals subst_vars; (try simp only [List.length_cons]); omega

theorem spec_sound : ∀ {toks rest : List Token} {node : Node}, (∀ t ∈ toks, t.Sound P) →
    Reads (spec toks) node rest → SpecTree P node ∧ rest <:+ toks
  | toks, rest, node, sound, h => by
    rcases spec_parts h with ⟨t, c, more, out, rfl, word, notResolved, -, readOut, rfl⟩ |
      ⟨out, -, readOut, rfl⟩
    · have afterName : more <:+ t :: c :: more := (List.suffix_cons c more).trans (List.suffix_cons t _)
      obtain ⟨output, afterOut⟩ := outputRef_sound (sound_of_suffix afterName sound) readOut
      exact ⟨.named ((sound t List.mem_cons_self).1 word) (ne_of_isWord_false word notResolved) output,
        afterOut.trans afterName⟩
    · obtain ⟨output, afterOut⟩ := outputRef_sound sound readOut
      exact ⟨.positional output, afterOut⟩
termination_by toks => 5 * toks.length + 2
decreasing_by all_goals subst_vars; (try simp only [List.length_cons]); omega

theorem outputRef_sound : ∀ {toks rest : List Token} {node : Node}, (∀ t ∈ toks, t.Sound P) →
    Reads (outputRef toks) node rest → OutputTree P node ∧ rest <:+ toks
  | toks, rest, node, sound, h => by
    rcases outputRef_parts h with ⟨sub, d, r, id, readSub, -, readId, rfl⟩ | ⟨sub, readSub, -, rfl⟩
    · obtain ⟨lead, parts, rfl, subst, -, afterSub⟩ := substitution_sound sound readSub
      obtain ⟨u, eq, word, rfl⟩ := ident_sound readId
      have afterDot : r <:+ toks := (List.suffix_cons d r).trans afterSub
      have ident : isIdent u.text = true :=
        (sound u (afterDot.subset (by rw [eq]; exact List.mem_cons_self))).1 word
      exact ⟨.mk subst (.ident ident), (suffix_of_cons eq).trans afterDot⟩
    · obtain ⟨lead, parts, rfl, subst, -, afterSub⟩ := substitution_sound sound readSub
      exact ⟨.mk subst .absent, afterSub⟩
termination_by toks => 5 * toks.length + 1
decreasing_by all_goals omega

end

theorem readName_sound {toks : List Token} {node : Node} (sound : ∀ t ∈ toks, t.Sound P)
    (h : readName toks = .ok node) : ∃ nch, node = .tree "name" nch ∧ NameTree P nch := by
  unfold readName at h
  split at h
  · cases h
  · rename_i _ whole ended read
    cases h
    obtain ⟨nch, rfl, tree, -⟩ := name_sound sound ⟨ended, read⟩
    exact ⟨nch, rfl, tree⟩
  · cases h

end Sound

end ArtifactNames
