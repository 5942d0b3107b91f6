import ArtifactNames.Proofs.Syntax.Stall

/-! Where reading a name stops: each reader stalls where it fails, lifted over what was read before
(`name_stall` and its siblings), and so does `readName` (`readName_stall`). -/

namespace ArtifactNames

open Syntax Text

section Readers

variable {α : Type} {R : List Token → List Token → Prop}
  {run : (toks : List Token) → Except Rejection (α × {rest : List Token // R toks rest})}
  {ext : TokenKind × List Nat → Bool}

theorem Stall.of_step (extP : TokenKind × List Nat → Bool) {β : List Token → Type}
    (step : (K : List Token) → Except Rejection (β K)) {P X : List Token} {r : Rejection}
    (error : X = [] ∧ r = .atEnd ∨
      ∃ u U, X = u :: U ∧ r = .at u.start ∧ ∀ s K, ∃ e, step (u.at s :: K) = .error e)
    (refused : ∀ K e, Follows extP X K → step K = .error e → ∃ e', run (P ++ K) = .error e')
    (scanned : Scanned P) (complete : Completes run ext P) : Stall run ext (P ++ X) r := by
  refine Stall.at_rest ?_ scanned complete
  rcases error with ⟨rfl, rfl⟩ | ⟨u, U, rfl, rfl, stops⟩
  · exact .inl ⟨rfl, rfl⟩
  · refine .inr ⟨u, U, rfl, rfl, fun s K => ?_⟩
    obtain ⟨e, fails⟩ := stops s K
    exact refused _ e (.cons s K) fails

end Readers

theorem expectPunct_stops {p : Punct} {X : List Token} {r : Rejection}
    (h : expectPunct p X = .error r) : X = [] ∧ r = .atEnd ∨
      ∃ u U, X = u :: U ∧ r = .at u.start ∧ ∀ s K, ∃ e, expectPunct p (u.at s :: K) = .error e := by
  rcases expectPunct_error h with ⟨rfl, rfl⟩ | ⟨u, U, rfl, other, rfl⟩
  · exact .inl ⟨rfl, rfl⟩
  · exact .inr ⟨u, U, rfl, rfl, fun s K => ⟨.at s, expectPunct_at other s K⟩⟩

namespace Follows

variable {ext : TokenKind × List Nat → Bool}

theorem same_head {X T : List Token} (h : Follows (fun _ => true) X T) (taken : T ≠ []) :
    ∃ x X' s T', X = x :: X' ∧ T = x.at s :: T' := by
  obtain ⟨k, T', rfl⟩ := List.exists_cons_of_ne_nil taken
  rcases h k rfl with ⟨x, mem, same⟩ | never
  · cases X with
    | nil => simp at mem
    | cons x X' =>
      simp only [List.head?_cons, Option.mem_def, Option.some.injEq] at mem
      subst mem
      exact ⟨x, X', k.start, T', rfl, by rw [← Token.eq_at_of_lexeme same.symm]⟩
  · simp at never

theorem cons_head {x : Token} {X T : List Token} (h : Follows (fun _ => true) (x :: X) T)
    (taken : T ≠ []) : ∃ s T', T = x.at s :: T' := by
  obtain ⟨x', X', s, T', eq, rfl⟩ := h.same_head taken
  obtain ⟨rfl, -⟩ := List.cons.inj eq
  exact ⟨s, T', rfl⟩

theorem of_nil {e1 : TokenKind × List Nat → Bool} {X K : List Token} (h : Follows ext [] K)
    (le : ∀ l, e1 l = true → ext l = true) : Follows e1 X K := by
  intro k mem
  refine .inr ?_
  cases extended : e1 k.lexeme
  · rfl
  · have refused := h.nil_refuses k mem
    rw [le _ extended] at refused
    simp at refused

end Follows

/-! ## Completions

The tokens that finish each part: a word for a substitution, `( )` for inputs, and a whole
`let x = x ;` for a declaration. -/

section Completions

variable {K : List Token}

theorem substitution_variable {w : Token} (word : w.kind = .word)
    (notKeyword : w.isWord "resolved" = false) (after : Follows extendsSubstitution [] K) :
    Reads (substitution (w :: K)) (.tree "substitution" [.tree "variable_ref" [identNode w]]) K := by
  obtain ⟨_, plain⟩ := atomicOrVariable_var w K fun k mem =>
    extendsSubstitution_eq_false (after.nil_refuses k mem)
  have isWord : (w.kind == .word) = true := by simpa using word
  refine ⟨Nat.lt_succ_self _, ?_⟩
  simp only [substitution, notKeyword, isWord, Bool.false_eq_true, ↓reduceIte, plain]

theorem outputRef_variable {w : Token} (word : w.kind = .word)
    (notKeyword : w.isWord "resolved" = false) (after : Follows extendsOutput [] K) :
    ∃ a, Reads (outputRef (w :: K)) a K :=
  ⟨_, outputRef_plain (substitution_variable word notKeyword (after.mono extendsSubstitution_le_output))
    fun k mem => (extendsOutput_eq_false (after.nil_refuses k mem)).2⟩

theorem inputList_fill (index : Node) (K : List Token) :
    Reads (inputList index (Filler.mark .lparen :: Filler.mark .rparen :: K))
      (.tree "multiary" [index, .absent]) K := by
  refine ⟨by simp only [List.length_cons]; omega, ?_⟩
  simp [inputList, expectPunct_cons (Filler.isPunct_mark .lparen)]

theorem multiary_fill (K : List Token) :
    Reads (multiary (Filler.mark .lparen :: Filler.mark .rparen :: K))
      (.tree "multiary" [.absent, .absent]) K :=
  multiary_reads rfl (inputList_fill .absent K)

theorem afterPid_fill (first : Node) (K : List Token) :
    ∃ a, Reads (afterPid first (Filler.mark .lparen :: Filler.mark .rparen :: K)) a K :=
  ⟨_, afterPid_inputs first rfl (multiary_fill K)⟩

theorem declaration_fill (K : List Token) : Reads (declaration ([Filler.word, Filler.mark .assign,
    Filler.word, Filler.mark .semicolon] ++ K)) (.tree "declaration" [.tree "bound" [identNode Filler.word],
      .tree "substitution" [.tree "variable_ref" [identNode Filler.word]]]) K := by
  obtain ⟨_, read⟩ := substitution_variable (w := Filler.word) (K := Filler.mark .semicolon :: K) rfl rfl
    (.of_head rfl _)
  refine ⟨by simp only [List.cons_append, List.nil_append, List.length_cons]; omega, ?_⟩
  simp [declaration, show (Filler.word.kind == .blank) = false from rfl,
    show (Filler.word.kind == .word) = true from rfl, expectPunct_cons (Filler.isPunct_mark .assign),
    read, expectPunct_cons (Filler.isPunct_mark .semicolon)]

end Completions

/-! ## Specs read as their output -/

/-- No `:` stands second after a word that could name an input: a spec of these tokens is its output
alone. -/
def Positional (L : List Token) : Prop :=
  ∀ t c R, L = t :: c :: R → t.kind = .word → t.isWord "resolved" = false → c.isPunct .colon = false

theorem positional_cons {t : Token} {L : List Token}
    (h : t.kind = .word → t.isWord "resolved" = false → ∀ c ∈ L.head?, c.isPunct .colon = false) :
    Positional (t :: L) := by
  intro t' c R eq word notKeyword
  simp only [List.cons.injEq] at eq
  obtain ⟨rfl, rfl⟩ := eq
  exact h word notKeyword c rfl

theorem spec_error {L : List Token} {e : Rejection} (positional : Positional L)
    (h : outputRef L = .error e) : spec L = .error e := by
  unfold spec
  split
  · rename_i t c R
    rw [if_neg]
    · simp only [h]
    · intro named
      simp only [Bool.and_eq_true, beq_iff_eq, Bool.not_eq_true'] at named
      rw [positional t c R rfl named.1.1 named.1.2] at named
      exact absurd named.2 (by simp)
  · simp only [h]

theorem Syntax.Token.fills_colon {c : Token} (h : c.fills = true) : c.isPunct .colon = false := by
  obtain ⟨kind, start, text⟩ := c
  cases kind <;> simp_all [Token.fills, Token.isPunct]

theorem noColon_completion {C K : List Token} (fills : C.all Token.fills = true)
    (after : Follows extendsSpec [] K) : ∀ c ∈ (C ++ K).head?, c.isPunct .colon = false := by
  cases C with
  | nil => exact fun c mem => (extendsSpec_eq_false (after.nil_refuses c mem)).2
  | cons c0 C' =>
    intro c mem
    simp only [List.cons_append, List.head?_cons, Option.mem_def, Option.some.injEq] at mem
    subst mem
    simp only [List.all_cons, Bool.and_eq_true] at fills
    exact Syntax.Token.fills_colon fills.1

theorem noColon_stop {r : Rejection} {X Y : List Token} {refuse : Token → Prop}
    (stop : Stop r X Y refuse) {P M : List Token}
    (taken : ∀ c ∈ (P ++ X).head?, c.isPunct .colon = false)
    (next : P = [] → Y = [] → ∀ c ∈ M.head?, c.isPunct .colon = false) :
    ∀ c ∈ (P ++ Y ++ M).head?, c.isPunct .colon = false := by
  cases P with
  | cons p P => simpa using taken
  | nil =>
    cases stop with
    | atEnd => exact next rfl rfl
    | token => exact next rfl rfl
    | index t R number => simp [Token.isPunct]

theorem Stall.spec_of_outputRef {toks : List Token} {r : Rejection}
    (h : Stall outputRef extendsOutput toks r) (positional : Positional toks) :
    Stall spec extendsSpec toks r := by
  obtain ⟨P, X, Y, refuse, rfl, scanned, stop, inside, refuses, C, fills, completes⟩ := h
  refine ⟨P, X, Y, refuse, rfl, scanned, stop, inside, fun k K refused => ?_, C, fills,
    fun K after => ?_⟩
  · obtain ⟨e, fails⟩ := refuses k K refused
    refine ⟨e, spec_error ?_ fails⟩
    cases P with
    | nil =>
      -- a word alone is an output, so the output never stops at a word it could name
      obtain rfl := inside rfl
      refine positional_cons fun word notKeyword => absurd (refuses k [] refused) ?_
      obtain ⟨a, read⟩ := outputRef_variable (K := []) word notKeyword fun _ mem => by simp at mem
      obtain ⟨_, read⟩ := read
      simp [read]
    | cons p P =>
      have taken : p.kind = .word → p.isWord "resolved" = false →
          ∀ c ∈ (P ++ X).head?, c.isPunct .colon = false := fun word notKeyword c mem => by
        obtain ⟨tail, eq⟩ := List.head?_eq_some_iff.mp mem
        exact positional p c tail (by rw [List.cons_append, eq]) word notKeyword
      refine positional_cons fun word notKeyword =>
        noColon_stop stop (taken word notKeyword) fun empty noDigits c mem => ?_
      subst empty
      simp only [List.head?_cons, Option.mem_def, Option.some.injEq] at mem
      subst mem
      -- the refused token has the kind of the one the output stopped at
      cases stop with
      | atEnd => exact refused.elim
      | token x R =>
        rw [Token.eq_at_of_lexeme refused, Token.isPunct_at]
        exact taken word notKeyword x rfl
      | index => cases noDigits
  · have follows : Follows extendsOutput [] K := after.mono extendsOutput_le_spec
    obtain ⟨a, reads⟩ := completes K follows
    refine ⟨_, spec_positional ?_ reads⟩
    cases P with
    | nil =>
      obtain rfl := inside rfl
      cases C with
      | nil =>
        obtain ⟨shorter, _⟩ := reads
        simp at shorter
      | cons c C =>
        simp only [List.all_cons, Bool.and_eq_true] at fills
        exact positional_cons fun _ _ => noColon_completion fills.2 after
    | cons p P =>
      rw [List.cons_append, List.cons_append, List.cons_append]
      refine positional_cons fun word notKeyword => ?_
      rw [List.append_assoc]
      refine noColon_stop stop (fun c mem => ?_) fun _ _ => noColon_completion fills after
      obtain ⟨tail, eq⟩ := List.head?_eq_some_iff.mp mem
      exact positional p c tail (by rw [List.cons_append, eq]) word notKeyword

/-! The filler tokens as the readers see them, so that a completion reads by `simp`. -/

namespace Filler

@[simp] theorem expectPunct_mark (p : Punct) (K : List Token) :
    expectPunct p (mark p :: K) = .ok ⟨K, Nat.lt_succ_self _⟩ :=
  expectPunct_cons (isPunct_mark p) K

@[simp] theorem ident_word (K : List Token) :
    ident (word :: K) = .ok (identNode word, ⟨K, Nat.lt_succ_self _⟩) := rfl

@[simp] theorem kind_word : word.kind = .word := rfl

@[simp] theorem isWord_word_resolved : word.isWord "resolved" = false := rfl

@[simp] theorem isPunct_word (p : Punct) : word.isPunct p = false := rfl

@[simp] theorem isPunct_mark_ne {p q : Punct} (h : p ≠ q) : (mark p).isPunct q = false := by
  simp [mark, Token.isPunct, h]

end Filler

/-! ## The rules of a substitution -/

theorem substitution_resolved_stall {t : Token} {more : List Token} {r : Rejection}
    (resolved : t.isWord "resolved" = true) (h : substitution (t :: more) = .error r) :
    Stall substitution extendsSubstitution (t :: more) r := by
  simp only [substitution, resolved, ↓reduceIte] at h
  have scannedT : t.kind ≠ .unscannable := ne_unscannable_of_isWord resolved
  split at h
  · rename_i e fails
    cases h
    refine Stall.of_step (P := [t]) (closed) (expectPunct .lparen)
      (expectPunct_stops fails) (fun K e _ fails => ⟨e, by simp [substitution, resolved, fails]⟩)
      (by simp [scannedT]) (.of_reads (C := [Filler.mark .lparen, Filler.word, Filler.mark .rparen])
        rfl fun K _ => ?_)
    simp [Reads, substitution, resolved]
    omega
  rename_i _ r1 h1 opened
  obtain ⟨lp, rfl, isOpen⟩ := expectPunct_taken opened
  split at h
  · rename_i e fails
    cases h
    refine Stall.of_step (P := [t, lp]) (closed) (ident) (ident_error fails)
      (fun K e _ fails => ⟨e, by simp [substitution, resolved, expectPunct_cons isOpen, fails]⟩)
      (by simp [scannedT, ne_unscannable_of_isPunct isOpen])
      (.of_reads (C := [Filler.word, Filler.mark .rparen]) rfl fun K _ => ?_)
    simp [Reads, substitution, resolved, expectPunct_cons isOpen]
    omega
  rename_i _ id r2 h2 readId
  obtain ⟨w, rfl, word, rfl⟩ := ident_sound ⟨h2, readId⟩
  split at h
  · rename_i e fails
    cases h
    refine Stall.of_step (P := [t, lp, w]) (closed) (expectPunct .rparen)
      (expectPunct_stops fails)
      (fun K e _ fails => ⟨e, by simp [substitution, resolved, expectPunct_cons isOpen, ident, word, fails]⟩)
      (by simp [scannedT, ne_unscannable_of_isPunct isOpen, word])
      (.of_reads (C := [Filler.mark .rparen]) rfl fun K _ => ?_)
    simp [Reads, substitution, resolved, expectPunct_cons isOpen, ident, word]
    omega
  · cases h

theorem substitution_nested_stall {t : Token} {more : List Token} {r : Rejection}
    (lparen : t.isPunct .lparen = true) (h : substitution (t :: more) = .error r)
    (innerStall : ∀ {r'}, name more = .error r' → Stall name extendsSubstitution more r')
    (inputsStall : ∀ {X r'}, X.length < more.length → multiary X = .error r' →
      Stall multiary closed X r') :
    Stall substitution extendsSubstitution (t :: more) r := by
  have kind : t.kind = .punct .lparen := by simpa [Token.isPunct] using lparen
  have word : t.kind ≠ .word := by simp [kind]
  have resolved : t.isWord "resolved" = false := by simp [Token.isWord, kind]
  simp only [substitution, resolved, word, lparen, beq_iff_eq, Bool.false_eq_true, ↓reduceIte] at h
  have scannedT := ne_unscannable_of_isPunct lparen
  split at h
  · rename_i e fails
    cases h
    refine Stall.lift (Q := [t]) (D := [Filler.mark .rparen]) (innerStall fails) (by simp [scannedT])
      rfl (fun K _ => .of_head rfl K)
      (fun T e fails => ⟨e, by simp [substitution, resolved, word, lparen, fails]⟩)
      fun T a K after reads => ?_
    obtain ⟨shorter, read⟩ := reads
    have noInputs : startsInputs K = false := startsInputs_follows after rfl
    simp at shorter
    simp [Reads, substitution, resolved, word, lparen, read, noInputs]
    omega
  rename_i _ inner r1 h1 readInner
  obtain ⟨Pn, rfl, scannedN, innerAgain⟩ := name_frame ⟨h1, readInner⟩
  have reread : ∀ K, Follows extendsSubstitution r1 K → Reads (name (Pn ++ K)) inner K :=
    fun K follows => innerAgain Pn K (.refl _) follows
  split at h
  · -- no `)` after the nested name
    rename_i e fails
    cases h
    refine Stall.of_step (P := t :: Pn) (extendsSubstitution) (expectPunct .rparen)
      (expectPunct_stops fails) (fun K e follows fails => ?_) (by simp [scannedT, scannedN])
      (.of_reads (C := [Filler.mark .rparen]) rfl fun K after => ?_)
    · obtain ⟨_, readK⟩ := reread K follows
      exact ⟨e, by simp [substitution, resolved, word, lparen, readK, fails]⟩
    · obtain ⟨_, readK⟩ := reread (Filler.mark .rparen :: K) (.of_head rfl K)
      have noInputs : startsInputs K = false := startsInputs_follows after rfl
      rw [List.append_assoc, List.cons_append, List.singleton_append]
      simp [Reads, substitution, resolved, word, lparen, readK, noInputs]
      omega
  rename_i _ r2 h2 closedBy
  obtain ⟨rp, rfl, isClose⟩ := expectPunct_taken closedBy
  have rereadClosed : ∀ K, Reads (name (Pn ++ rp :: K)) inner (rp :: K) :=
    fun K => reread (rp :: K) (.cons rp.start K)
  have scannedQ : Scanned (t :: Pn ++ [rp]) := by
    simp [scannedT, scannedN, ne_unscannable_of_isPunct isClose]
  split at h
  · rename_i inputs
    split at h
    · -- the inputs after the nested name fail
      rename_i e fails
      cases h
      -- only a token spelled as the one that opened the inputs goes on to them
      have opens : ∀ T, T ≠ [] → Follows (fun _ => true) r2 T → startsInputs T = true := by
        intro T taken follows
        obtain ⟨x, X', s, T', rfl, rfl⟩ := follows.same_head taken
        simpa [startsInputs_cons] using inputs
      have shape : ∀ L, (t :: Pn ++ [rp]) ++ L = t :: (Pn ++ rp :: L) := by simp
      rw [← shape]
      refine Stall.lift_follows (fun _ => true) (Q := t :: Pn ++ [rp]) (D := [])
        (inputsStall (by simp; omega) fails) scannedQ rfl (fun K _ => .of_closed _ _)
        (fun T taken follows e fails => ?_) (fun T taken follows a K after reads => ?_)
        (.of_reads (C := []) rfl fun K after => ?_)
      · obtain ⟨_, readN⟩ := rereadClosed T
        refine ⟨e, ?_⟩
        rw [shape]
        simp [substitution, resolved, word, lparen, readN, expectPunct_cons isClose,
          opens T taken follows, fails]
      · obtain ⟨_, readN⟩ := rereadClosed T
        obtain ⟨shorter, read⟩ := reads
        simp at shorter
        rw [shape]
        simp [Reads, substitution, resolved, word, lparen, readN, expectPunct_cons isClose,
          opens T taken follows, read]
        omega
      · obtain ⟨_, readN⟩ := rereadClosed K
        have noInputs : startsInputs K = false := startsInputs_follows after rfl
        rw [List.append_nil, shape]
        simp [Reads, substitution, resolved, word, lparen, readN, expectPunct_cons isClose, noInputs]
        omega
    · cases h
  · cases h

theorem substitution_computed_stall {t : Token} {more : List Token} {r : Rejection}
    (lbrace : t.isPunct .lbrace = true) (h : substitution (t :: more) = .error r)
    (outputStall : ∀ {r'}, outputRef more = .error r' → Stall outputRef extendsOutput more r')
    (inputsStall : ∀ {X r'}, X.length < more.length → multiary X = .error r' →
      Stall multiary closed X r') :
    Stall substitution extendsSubstitution (t :: more) r := by
  have kind : t.kind = .punct .lbrace := by simpa [Token.isPunct] using lbrace
  have word : t.kind ≠ .word := by simp [kind]
  have resolved : t.isWord "resolved" = false := by simp [Token.isWord, kind]
  have lparen : t.isPunct .lparen = false := by simp [Token.isPunct, kind]
  simp only [substitution, resolved, word, lparen, lbrace, beq_iff_eq, Bool.false_eq_true,
    ↓reduceIte] at h
  have scannedT := ne_unscannable_of_isPunct lbrace
  -- what completes a computed namespace once its output is read
  have closing : ∀ K, ∃ a, Reads (multiary (Filler.mark .lparen :: Filler.mark .rparen :: K)) a K :=
    fun K => ⟨_, multiary_fill K⟩
  have named : ∀ K, ∃ a, Reads (pid (Filler.word :: Filler.mark .lparen :: Filler.mark .rparen :: K)) a
      (Filler.mark .lparen :: Filler.mark .rparen :: K) :=
    fun K => ⟨_, pid_fill (K := Filler.mark .lparen :: Filler.mark .rparen :: K) (.of_head rfl _)⟩
  split at h
  · -- the output in braces fails
    rename_i e fails
    cases h
    refine Stall.lift (Q := [t]) (D := [Filler.mark .rbrace, Filler.mark .scope, Filler.word,
      Filler.mark .lparen, Filler.mark .rparen]) (outputStall fails) (by simp [scannedT]) rfl
      (fun K _ => .of_head rfl _)
      (fun T e fails => ⟨e, by simp [substitution, resolved, word, lparen, lbrace, fails]⟩)
      fun T a K _ reads => ?_
    obtain ⟨shorter, read⟩ := reads
    obtain ⟨_, _, readP⟩ := named K
    obtain ⟨_, _, readM⟩ := closing K
    simp at shorter
    simp [Reads, substitution, resolved, word, lparen, lbrace, read, readP, readM]
    omega
  rename_i _ out r1 h1 readOut
  obtain ⟨Po, rfl, scannedO, outAgain⟩ := outputRef_frame ⟨h1, readOut⟩
  have reread : ∀ K, Follows extendsOutput r1 K → Reads (outputRef (Po ++ K)) out K :=
    fun K follows => outAgain Po K (.refl _) follows
  split at h
  · -- no `}` after the output
    rename_i e fails
    cases h
    refine Stall.of_step (P := t :: Po) (extendsOutput) (expectPunct .rbrace)
      (expectPunct_stops fails) (fun K e follows fails => ?_) (by simp [scannedT, scannedO])
      (.of_reads (C := [Filler.mark .rbrace, Filler.mark .scope, Filler.word, Filler.mark .lparen,
        Filler.mark .rparen]) rfl fun K _ => ?_)
    · obtain ⟨_, readK⟩ := reread K follows
      exact ⟨e, by simp [substitution, resolved, word, lparen, lbrace, readK, fails]⟩
    · obtain ⟨_, readK⟩ := reread (Filler.mark .rbrace :: Filler.mark .scope :: Filler.word ::
        Filler.mark .lparen :: Filler.mark .rparen :: K) (.of_head rfl _)
      obtain ⟨_, _, readP⟩ := named K
      obtain ⟨_, _, readM⟩ := closing K
      rw [List.append_assoc]
      simp [Reads, substitution, resolved, word, lparen, lbrace, readK, readP, readM]
      omega
  rename_i _ r2 h2 closedBy
  obtain ⟨rb, rfl, isClose⟩ := expectPunct_taken closedBy
  have rereadClosed : ∀ K, Reads (outputRef (Po ++ rb :: K)) out (rb :: K) :=
    fun K => reread (rb :: K) (.cons rb.start K)
  split at h
  · -- no `::` after the braces
    rename_i e fails
    cases h
    have shape : ∀ L, (t :: Po ++ [rb]) ++ L = t :: (Po ++ rb :: L) := by simp
    rw [← shape]
    refine Stall.of_step (P := t :: Po ++ [rb]) (closed) (expectPunct .scope)
      (expectPunct_stops fails) (fun K e _ fails => ?_)
      (by simp [scannedT, scannedO, ne_unscannable_of_isPunct isClose])
      (.of_reads (C := [Filler.mark .scope, Filler.word, Filler.mark .lparen, Filler.mark .rparen]) rfl
        fun K _ => ?_)
    · obtain ⟨_, readK⟩ := rereadClosed K
      rw [shape]
      exact ⟨e, by simp [substitution, resolved, word, lparen, lbrace, readK, expectPunct_cons isClose, fails]⟩
    · obtain ⟨_, readK⟩ := rereadClosed (Filler.mark .scope :: Filler.word :: Filler.mark .lparen ::
        Filler.mark .rparen :: K)
      obtain ⟨_, _, readP⟩ := named K
      obtain ⟨_, _, readM⟩ := closing K
      rw [List.append_assoc, shape]
      simp [Reads, substitution, resolved, word, lparen, lbrace, readK, expectPunct_cons isClose, readP, readM]
      omega
  rename_i _ r3 h3 scopeRead
  obtain ⟨sc, rfl, isScope⟩ := expectPunct_taken scopeRead
  have scannedQ : Scanned (t :: Po ++ [rb, sc]) := by
    simp [scannedT, scannedO, ne_unscannable_of_isPunct isClose, ne_unscannable_of_isPunct isScope]
  split at h
  · -- the id after `::` fails
    rename_i e fails
    cases h
    have shape : ∀ L, (t :: Po ++ [rb, sc]) ++ L = t :: (Po ++ rb :: sc :: L) := by simp
    rw [← shape]
    refine Stall.lift (Q := t :: Po ++ [rb, sc]) (D := [Filler.mark .lparen, Filler.mark .rparen])
      (pid_stall fails) scannedQ rfl (fun K _ => .of_head rfl _) (fun T e fails => ?_)
      fun T a K _ reads => ?_
    · obtain ⟨_, readK⟩ := rereadClosed (sc :: T)
      rw [shape]
      exact ⟨e, by simp [substitution, resolved, word, lparen, lbrace, readK, expectPunct_cons isClose, expectPunct_cons isScope,
        fails]⟩
    · obtain ⟨_, readK⟩ := rereadClosed (sc :: T)
      obtain ⟨shorter, read⟩ := reads
      obtain ⟨_, _, readM⟩ := closing K
      simp at shorter
      rw [shape]
      simp [Reads, substitution, resolved, word, lparen, lbrace, readK, expectPunct_cons isClose, expectPunct_cons isScope,
        read, readM]
      omega
  rename_i _ id r4 h4 readId
  obtain ⟨Pp, rfl, scannedP, idAgain⟩ := pid_frame ⟨h4, readId⟩
  have rereadId : ∀ K, Follows extendsByBracket r4 K → Reads (pid (Pp ++ K)) id K :=
    fun K follows => idAgain Pp K (.refl _) follows
  split at h
  · -- the inputs fail
    rename_i e fails
    cases h
    have shape : ∀ L, (t :: Po ++ rb :: sc :: Pp) ++ L = t :: (Po ++ rb :: sc :: (Pp ++ L)) := by
      simp
    have scannedI : Scanned (t :: Po ++ rb :: sc :: Pp) := by
      simp [scannedT, scannedO, ne_unscannable_of_isPunct isClose, ne_unscannable_of_isPunct isScope,
        scannedP]
    rw [← shape]
    refine Stall.lift_follows (extendsByBracket) (Q := t :: Po ++ rb :: sc :: Pp) (D := [])
      (inputsStall (by simp; omega) fails) scannedI rfl (fun K _ => .of_closed _ _)
      (fun T _ follows e fails => ?_) (fun T _ follows a K _ reads => ?_)
      (.of_reads (C := [Filler.mark .lparen, Filler.mark .rparen]) rfl fun K _ => ?_)
    · obtain ⟨_, readK⟩ := rereadClosed (sc :: (Pp ++ T))
      obtain ⟨_, readP⟩ := rereadId T follows
      rw [shape]
      exact ⟨e, by simp [substitution, resolved, word, lparen, lbrace, readK, expectPunct_cons isClose, expectPunct_cons isScope,
        readP, fails]⟩
    · obtain ⟨_, readK⟩ := rereadClosed (sc :: (Pp ++ T))
      obtain ⟨_, readP⟩ := rereadId T follows
      obtain ⟨shorter, read⟩ := reads
      simp at shorter
      rw [shape]
      simp [Reads, substitution, resolved, word, lparen, lbrace, readK, expectPunct_cons isClose, expectPunct_cons isScope,
        readP, read]
      omega
    · obtain ⟨_, readK⟩ := rereadClosed (sc :: (Pp ++ Filler.mark .lparen :: Filler.mark .rparen :: K))
      obtain ⟨_, readP⟩ := rereadId (Filler.mark .lparen :: Filler.mark .rparen :: K) (.of_head rfl _)
      obtain ⟨_, _, readM⟩ := closing K
      rw [List.append_assoc, shape]
      simp [Reads, substitution, resolved, word, lparen, lbrace, readK, expectPunct_cons isClose, expectPunct_cons isScope,
        readP, readM]
      omega
  · cases h

mutual

theorem name_stall : ∀ {toks : List Token} {r : Rejection}, name toks = .error r →
    Stall name extendsSubstitution toks r
  | toks, r, h => by
    unfold name at h
    split at h
    · -- the declarations fail
      rename_i e fails
      cases h
      rw [← List.nil_append toks]
      refine Stall.lift (Q := []) (D := [Filler.word]) (declarations_stall fails) scanned_nil rfl
        (fun K _ => .of_head rfl K) (fun T e fails => ⟨e, by simp [name, fails]⟩)
        fun T a K after reads => ⟨_, name_reads reads (substitution_variable rfl rfl after)⟩
    · rename_i _ decls r1 h1 readDecls
      split at h
      · -- the substitution after them fails
        rename_i e fails
        cases h
        obtain ⟨Pd, rfl, scannedD, declsAgain⟩ := declarations_frame ⟨h1, readDecls⟩
        have reread : ∀ T, Follows extendsByLet r1 T → Reads (declarations (Pd ++ T) #[]) decls T :=
          fun T follows => declsAgain Pd T (.refl _) follows
        refine Stall.lift_follows _ (Q := Pd) (D := []) (substitution_stall fails) scannedD rfl
          (fun K after => after) (fun T _ follows e fails => ?_)
          (fun T _ follows a K _ reads => ⟨_, name_reads (reread T follows) reads⟩)
          (.of_reads (C := [Filler.word]) rfl fun K after => by
            rw [List.append_assoc]
            exact ⟨_, name_reads (reread _ (.of_head rfl K)) (substitution_variable rfl rfl after)⟩)
        obtain ⟨_, readD⟩ := reread T follows
        exact ⟨e, by simp [name, readD, fails]⟩
      · cases h
termination_by toks => 5 * toks.length + 4

theorem declarations_stall : ∀ {toks : List Token} {acc : Array Node} {r : Rejection},
    declarations toks acc = .error r → Stall (fun ts => declarations ts acc) extendsByLet toks r
  | [], acc, r, h => by simp [declarations] at h
  | t :: more, acc, r, h => by
    by_cases keyword : t.isWord "let"
    · simp only [declarations, keyword, ↓reduceIte] at h
      split at h
      · -- the declaration after `let` fails
        rename_i e fails
        cases h
        refine Stall.lift (Q := [t]) (D := []) (declaration_stall fails)
          (by simp [ne_unscannable_of_isWord keyword]) rfl (fun K _ => .of_closed _ _)
          (fun T e fails => ⟨e, by simp [declarations, keyword, fails]⟩) fun T a K after reads => ?_
        obtain ⟨_, stop⟩ :=
          declarations_stop (fun k mem => extendsByLet_eq_false (after.nil_refuses k mem)) (acc.push a)
        obtain ⟨shorter, read⟩ := reads
        refine ⟨acc.push a, by simp at shorter ⊢; omega, ?_⟩
        simp [declarations, keyword, read, stop]
      · rename_i _ d r1 h1 readDecl
        split at h
        · -- a later declaration fails
          rename_i e fails
          cases h
          obtain ⟨Pd, rfl, scannedD, declAgain⟩ := declaration_frame ⟨h1, readDecl⟩
          have reread : ∀ T, Reads (declaration (Pd ++ T)) d T := fun T =>
            declAgain Pd T (.refl _) (.of_closed _ _)
          refine Stall.lift (Q := t :: Pd) (D := []) (declarations_stall fails)
            (by simp [ne_unscannable_of_isWord keyword, scannedD]) rfl (fun K after => after)
            (fun T e fails => ?_) fun T a K after reads => ?_
          · obtain ⟨_, readT⟩ := reread T
            exact ⟨e, by simp [declarations, keyword, readT, fails]⟩
          · obtain ⟨_, readT⟩ := reread T
            obtain ⟨shorter, readMore⟩ := reads
            refine ⟨a, by simp at shorter ⊢; omega, ?_⟩
            simp [declarations, keyword, readT, readMore]
        · cases h
    · simp [declarations, keyword] at h
termination_by toks => 5 * toks.length + 3

theorem declaration_stall : ∀ {toks : List Token} {r : Rejection},
    declaration toks = .error r → Stall declaration closed toks r
  | [], r, h => by
    simp only [declaration, Except.error.injEq] at h
    subst h
    exact Stall.at_rest (P := []) (.inl ⟨rfl, rfl⟩) scanned_nil
      (.of_reads rfl fun K _ => ⟨_, declaration_fill K⟩)
  | b :: more, r, h => by
    simp only [declaration] at h
    split at h
    · -- neither `_` nor a word after `let`: the binder is chosen by the kind of its token alone
      rename_i unbound
      cases h
      refine Stall.at_rest (P := []) (.inr ⟨b, more, rfl, rfl, fun s K => ⟨.at s, ?_⟩⟩) scanned_nil
        (.of_reads rfl fun K _ => ⟨_, declaration_fill K⟩)
      simp only [beq_iff_eq] at unbound
      simp only [List.nil_append, declaration, Token.kind_at, beq_iff_eq, identNode_at, unbound]
      rfl
    rename_i _ bind chosen
    simp only [beq_iff_eq] at chosen
    have binder : b.kind ≠ .unscannable := by
      intro unscannable
      simp [unscannable] at chosen
    split at h
    · -- no `=` after the binder
      rename_i e fails
      cases h
      refine Stall.of_step (P := [b]) (closed) (expectPunct .assign) (expectPunct_stops fails)
        (fun K e _ fails => ⟨e, by simp [declaration, chosen, fails]⟩) (by simp [binder])
        (.of_reads (C := [Filler.mark .assign, Filler.word, Filler.mark .semicolon]) rfl fun K _ => ?_)
      obtain ⟨_, read⟩ := substitution_variable (w := Filler.word) (K := Filler.mark .semicolon :: K)
        rfl rfl (.of_head rfl _)
      simp [Reads, declaration, chosen, read]
      omega
    rename_i _ r1 h1 assign
    obtain ⟨e, rfl, isAssign⟩ := expectPunct_taken assign
    split at h
    · -- the substitution fails
      rename_i e' fails
      cases h
      refine Stall.lift (Q := [b, e]) (D := [Filler.mark .semicolon]) (substitution_stall fails)
        (by simp [binder, ne_unscannable_of_isPunct isAssign]) rfl (fun K _ => .of_head rfl K)
        (fun T e fails => ⟨e, by simp [declaration, chosen, expectPunct_cons isAssign, fails]⟩)
        fun T a K _ reads => ?_
      obtain ⟨shorter, read⟩ := reads
      simp at shorter
      simp [Reads, declaration, chosen, expectPunct_cons isAssign, read]
      omega
    rename_i _ sub r2 h2 readSub
    obtain ⟨Ps, rfl, scannedS, subAgain⟩ := substitution_frame ⟨h2, readSub⟩
    have reread : ∀ K, Follows extendsSubstitution r2 K → Reads (substitution (Ps ++ K)) sub K :=
      fun K follows => subAgain Ps K (.refl _) follows
    split at h
    · -- no `;` after the substitution
      rename_i e' fails
      cases h
      refine Stall.of_step (P := b :: e :: Ps) (extendsSubstitution)
        (expectPunct .semicolon) (expectPunct_stops fails)
        (fun K e' follows fails => ?_) (by simp [binder, ne_unscannable_of_isPunct isAssign, scannedS])
        (.of_reads (C := [Filler.mark .semicolon]) rfl fun K _ => ?_)
      · obtain ⟨_, readK⟩ := reread K follows
        exact ⟨e', by simp [declaration, chosen, expectPunct_cons isAssign, readK, fails]⟩
      · obtain ⟨_, readK⟩ := reread (Filler.mark .semicolon :: K) (.of_head rfl K)
        simp [Reads, declaration, chosen, expectPunct_cons isAssign, readK]
        omega
    · cases h
termination_by toks => 5 * toks.length

theorem substitution_stall : ∀ {toks : List Token} {r : Rejection},
    substitution toks = .error r → Stall substitution extendsSubstitution toks r
  | [], r, h => by
    simp only [substitution, Except.error.injEq] at h
    subst h
    exact Stall.at_rest (P := []) (.inl ⟨rfl, rfl⟩) scanned_nil
      (.of_reads (C := [Filler.word]) rfl fun K after =>
        ⟨_, substitution_variable (w := Filler.word) rfl rfl after⟩)
  | t :: more, r, h => by
    by_cases resolved : t.isWord "resolved"
    · exact substitution_resolved_stall resolved h
    by_cases word : t.kind = .word
    · -- a leading word: the rest is read after it alone
      simp only [substitution, resolved, word, beq_self_eq_true, Bool.false_eq_true, ↓reduceIte] at h
      split at h
      · rename_i e fails
        cases h
        refine Stall.lift (Q := [t]) (D := []) (atomicOrVariable_stall fails) (by simp [word]) rfl
          (fun K after => after) (fun T e fails => ⟨e, by simp [substitution, resolved, word, fails]⟩)
          fun T a K _ reads => ?_
        obtain ⟨shorter, read⟩ := reads
        simp at shorter
        simp [Reads, substitution, resolved, word, read]
        omega
      · cases h
    by_cases lparen : t.isPunct .lparen
    · exact substitution_nested_stall lparen h (fun fails => name_stall fails)
        fun _ fails => multiary_stall fails
    by_cases lbrace : t.isPunct .lbrace
    · exact substitution_computed_stall lbrace h (fun fails => outputRef_stall fails)
        fun _ fails => multiary_stall fails
    · -- no rule starts with this token
      simp only [substitution, resolved, word, lparen, lbrace, beq_iff_eq, Bool.false_eq_true,
        ↓reduceIte, Except.error.injEq] at h
      subst h
      refine Stall.at_rest (P := []) (.inr ⟨t, more, rfl, rfl, fun s K => ⟨.at s, ?_⟩⟩) scanned_nil
        (.of_reads (C := [Filler.word]) rfl fun K after =>
          ⟨_, substitution_variable (w := Filler.word) rfl rfl after⟩)
      simp [substitution, resolved, word, lparen, lbrace]
      rfl
termination_by toks => 5 * toks.length

theorem atomicOrVariable_stall : ∀ {w : Token} {toks : List Token} {r : Rejection},
    atomicOrVariable w toks = .error r → Stall (atomicOrVariable w) extendsSubstitution toks r
  | w, [], r, h => by simp [atomicOrVariable] at h
  | w, t :: more, r, h => by
    -- a word that nothing takes further is a variable
    have fresh : Completes (atomicOrVariable w) extendsSubstitution [] :=
      .of_reads (C := []) rfl fun K after => ⟨_, atomicOrVariable_var w K fun k mem =>
        extendsSubstitution_eq_false (after.nil_refuses k mem)⟩
    by_cases lbracket : t.isPunct .lbracket
    · simp only [atomicOrVariable, lbracket, ↓reduceIte] at h
      split at h
      · -- the parameters fail
        rename_i e fails
        cases h
        rw [← List.nil_append (t :: more)]
        -- only a token spelled as the `[` goes on to parameters
        refine Stall.lift_follows (fun _ => true) (Q := []) (D := [Filler.mark .lparen,
          Filler.mark .rparen]) (params_stall fails) scanned_nil rfl (fun K _ => .of_closed _ _)
          (fun T taken follows e fails => ?_) (fun T taken follows a K _ reads => ?_) fresh
        · obtain ⟨s, T', rfl⟩ := follows.cons_head taken
          exact ⟨e, by simp [atomicOrVariable, lbracket, fails]⟩
        · obtain ⟨s, T', rfl⟩ := follows.cons_head taken
          obtain ⟨shorter, read⟩ := reads
          obtain ⟨_, _, readA⟩ := afterPid_fill (.tree "parameterized_id" [identNode w, a]) K
          simp at shorter
          simp [Reads, atomicOrVariable, lbracket, read, readA]
          omega
      rename_i _ ps r1 h1 readParams
      obtain ⟨Pps, eq, scannedP, paramsAgain⟩ := params_frame ⟨h1, readParams⟩
      obtain ⟨Pps0, rfl, rfl⟩ := eq_cons_of_append eq h1
      have reread : ∀ T, Reads (params (t :: Pps0 ++ T)) ps T := fun T =>
        paramsAgain (t :: Pps0) T (.refl _) (.of_closed _ _)
      split at h
      · -- what follows the parameters fails
        rename_i e fails
        cases h
        refine Stall.lift (Q := t :: Pps0) (D := []) (afterPid_stall fails) scannedP rfl
          (fun K _ => .of_closed _ _) (fun T e fails => ?_) fun T a K _ reads => ?_
        · obtain ⟨_, readT⟩ := reread T
          simp only [List.cons_append] at readT
          exact ⟨e, by simp [atomicOrVariable, lbracket, readT, fails]⟩
        · obtain ⟨_, readT⟩ := reread T
          simp only [List.cons_append] at readT
          obtain ⟨shorter, read⟩ := reads
          simp at shorter
          simp [Reads, atomicOrVariable, lbracket, readT, read]
          omega
      · cases h
    by_cases goesOn : (t.isPunct .scope || startsInputs (t :: more)) = true
    · -- a namespace or inputs follow the word
      simp only [atomicOrVariable, lbracket, goesOn, Bool.false_eq_true, ↓reduceIte] at h
      split at h
      · rename_i e fails
        cases h
        rw [← List.nil_append (t :: more)]
        simp only [startsInputs_cons] at goesOn
        refine Stall.lift_follows (fun _ => true) (Q := []) (D := []) (afterPid_stall fails)
          scanned_nil rfl (fun K _ => .of_closed _ _) (fun T taken follows e fails => ?_)
          (fun T taken follows a K _ reads => ?_) fresh
        · obtain ⟨s, T', rfl⟩ := follows.cons_head taken
          refine ⟨e, ?_⟩
          simp only [List.nil_append, atomicOrVariable, Token.isPunct_at, lbracket, startsInputs_cons,
            goesOn, Bool.false_eq_true, ↓reduceIte] at fails ⊢
          simp [fails]
        · obtain ⟨s, T', rfl⟩ := follows.cons_head taken
          obtain ⟨shorter, read⟩ := reads
          refine ⟨a, by simp at shorter ⊢; omega, ?_⟩
          simp only [List.nil_append, atomicOrVariable, Token.isPunct_at, lbracket, startsInputs_cons,
            goesOn, Bool.false_eq_true, ↓reduceIte] at read ⊢
          simp [read]
      · cases h
    · simp [atomicOrVariable, lbracket, goesOn] at h
termination_by _ toks => 5 * toks.length + 4

theorem afterPid_stall : ∀ {first : Node} {toks : List Token} {r : Rejection},
    afterPid first toks = .error r → Stall (afterPid first) closed toks r
  | first, [], r, h => by
    simp only [afterPid, Except.error.injEq] at h
    subst h
    exact Stall.at_rest (P := []) (.inl ⟨rfl, rfl⟩) scanned_nil
      (.of_reads (C := [Filler.mark .lparen, Filler.mark .rparen]) rfl fun K _ => afterPid_fill first K)
  | first, t :: more, r, h => by
    have fresh : Completes (afterPid first) closed [] :=
      .of_reads (C := [Filler.mark .lparen, Filler.mark .rparen]) rfl fun K _ => afterPid_fill first K
    by_cases scope : t.isPunct .scope
    · simp only [afterPid, scope, ↓reduceIte] at h
      have scannedT := ne_unscannable_of_isPunct scope
      split at h
      · -- the id after `::` fails
        rename_i e fails
        cases h
        refine Stall.lift (Q := [t]) (D := [Filler.mark .lparen, Filler.mark .rparen]) (pid_stall fails)
          (by simp [scannedT]) rfl (fun K _ => .of_head rfl _)
          (fun T e fails => ⟨e, by simp [afterPid, scope, fails]⟩) fun T a K _ reads => ?_
        obtain ⟨shorter, read⟩ := reads
        obtain ⟨_, readM⟩ := multiary_fill K
        simp at shorter
        simp [Reads, afterPid, scope, read, readM]
        omega
      rename_i _ id r1 h1 readId
      obtain ⟨Pp, rfl, scannedP, idAgain⟩ := pid_frame ⟨h1, readId⟩
      have rereadId : ∀ K, Follows extendsByBracket r1 K → Reads (pid (Pp ++ K)) id K :=
        fun K follows => idAgain Pp K (.refl _) follows
      split at h
      · -- the inputs fail
        rename_i e fails
        cases h
        refine Stall.lift_follows (extendsByBracket) (Q := t :: Pp) (D := [])
          (multiary_stall fails) (by simp [scannedT, scannedP]) rfl (fun K _ => .of_closed _ _)
          (fun T _ follows e fails => ?_) (fun T _ follows a K _ reads => ?_)
          (.of_reads (C := [Filler.mark .lparen, Filler.mark .rparen]) rfl fun K _ => ?_)
        · obtain ⟨_, readP⟩ := rereadId T follows
          exact ⟨e, by simp [afterPid, scope, readP, fails]⟩
        · obtain ⟨_, readP⟩ := rereadId T follows
          obtain ⟨shorter, read⟩ := reads
          simp at shorter
          simp [Reads, afterPid, scope, readP, read]
          omega
        · obtain ⟨_, readP⟩ := rereadId (Filler.mark .lparen :: Filler.mark .rparen :: K) (.of_head rfl _)
          obtain ⟨_, readM⟩ := multiary_fill K
          rw [List.append_assoc]
          simp [Reads, afterPid, scope, readP, readM]
          omega
      · cases h
    by_cases inputs : startsInputs (t :: more)
    · simp only [afterPid, scope, inputs, Bool.false_eq_true, ↓reduceIte] at h
      split at h
      · -- the inputs fail
        rename_i e fails
        cases h
        rw [← List.nil_append (t :: more)]
        simp only [startsInputs_cons] at inputs
        refine Stall.lift_follows (fun _ => true) (Q := []) (D := []) (multiary_stall fails)
          scanned_nil rfl (fun K _ => .of_closed _ _) (fun T taken follows e fails => ?_)
          (fun T taken follows a K _ reads => ?_) fresh
        · obtain ⟨s, T', rfl⟩ := follows.cons_head taken
          exact ⟨e, by simp [afterPid, scope, startsInputs_cons, inputs, fails]⟩
        · obtain ⟨s, T', rfl⟩ := follows.cons_head taken
          obtain ⟨shorter, read⟩ := reads
          simp at shorter
          simp [Reads, afterPid, scope, startsInputs_cons, inputs, read]
          omega
      · cases h
    · -- neither `::` nor inputs
      simp only [afterPid, scope, inputs, Bool.false_eq_true, ↓reduceIte, Except.error.injEq] at h
      subst h
      simp only [startsInputs_cons, Bool.or_eq_true, not_or] at inputs
      refine Stall.at_rest (P := []) (.inr ⟨t, more, rfl, rfl, fun s K => ⟨.at s, ?_⟩⟩) scanned_nil fresh
      simp [afterPid, scope, startsInputs_cons, inputs]
      rfl
termination_by _ toks => 5 * toks.length + 3

theorem multiary_stall : ∀ {toks : List Token} {r : Rejection},
    multiary toks = .error r → Stall multiary closed toks r
  | [], r, h => by
    simp only [multiary, Except.error.injEq] at h
    subst h
    exact Stall.at_rest (P := []) (.inl ⟨rfl, rfl⟩) scanned_nil
      (.of_reads (C := [Filler.mark .lparen, Filler.mark .rparen]) rfl fun K _ => ⟨_, multiary_fill K⟩)
  | t :: more, r, h => by
    have fresh : Completes multiary closed [] :=
      .of_reads (C := [Filler.mark .lparen, Filler.mark .rparen]) rfl fun K _ => ⟨_, multiary_fill K⟩
    by_cases indexed : t.isPunct .at
    · simp only [multiary, indexed, ↓reduceIte] at h
      have scannedT : Scanned [t] := by simp [ne_unscannable_of_isPunct indexed]
      -- after `@`, an index and `( )` complete the inputs
      have indexes : Completes multiary closed [t] :=
        .of_reads (C := [Filler.zero, Filler.mark .lparen, Filler.mark .rparen]) rfl fun K _ => by
          obtain ⟨_, readI⟩ := graphIndex_fill (Filler.mark .lparen :: Filler.mark .rparen :: K)
          obtain ⟨_, readL⟩ := inputList_fill (.tree "graph_index" [.token "INT" [0x30]]) K
          simp [Reads, multiary, indexed, readI, readL]
          omega
      split at h
      · -- the index fails
        rename_i e fails
        cases h
        rcases graphIndex_error fails with ⟨rfl, rfl⟩ | ⟨u, U, rfl, rfl, refused⟩ |
            ⟨u, U, rfl, number, digits, short, rfl⟩
        · exact Stall.at_rest (P := [t]) (.inl ⟨rfl, rfl⟩) scannedT indexes
        · refine Stall.at_rest (P := [t]) (.inr ⟨u, U, rfl, rfl, fun s K => ?_⟩) scannedT indexes
          obtain ⟨e, fails⟩ := refused s K
          exact ⟨e, by simp [multiary, indexed, fails]⟩
        · -- a number that goes on after its ASCII digits is cut where they end
          refine ⟨[t], u :: U, [⟨.number, u.start, u.text.take u.indexDigits⟩], _, rfl, scannedT,
            .index u U number digits short, fun empty => absurd empty (by simp),
            fun k K notOpen => ?_, [Filler.mark .lparen, Filler.mark .rparen], rfl, fun K _ => ?_⟩
          · obtain ⟨_, readI⟩ := graphIndex_digits digits u.start (k :: K)
            exact ⟨.at k.start, by simp [multiary, indexed, readI, inputList, expectPunct, notOpen]⟩
          · obtain ⟨_, readI⟩ := graphIndex_digits digits u.start
              (Filler.mark .lparen :: Filler.mark .rparen :: K)
            obtain ⟨_, readL⟩ := inputList_fill (.tree "graph_index" [.token "INT" (u.text.take u.indexDigits)]) K
            simp [Reads, multiary, indexed, readI, readL]
            omega
      rename_i _ index r1 h1 readIndex
      obtain ⟨Pg, rfl, scannedG, indexAgain⟩ := graphIndex_frame ⟨h1, readIndex⟩
      have reread : ∀ T, Reads (graphIndex (Pg ++ T)) index T := fun T =>
        indexAgain Pg T (.refl _) (.of_closed _ _)
      split at h
      · -- the list fails
        rename_i e fails
        cases h
        refine Stall.lift (Q := t :: Pg) (D := []) (inputList_stall fails)
          (scanned_cons.mpr ⟨ne_unscannable_of_isPunct indexed, scannedG⟩) rfl
          (fun K _ => .of_closed _ _) (fun T e fails => ?_) fun T a K _ reads => ?_
        · obtain ⟨_, readT⟩ := reread T
          exact ⟨e, by simp [multiary, indexed, readT, fails]⟩
        · obtain ⟨_, readT⟩ := reread T
          obtain ⟨shorter, read⟩ := reads
          simp at shorter
          simp [Reads, multiary, indexed, readT, read]
          omega
      · cases h
    · simp only [multiary, indexed, Bool.false_eq_true, ↓reduceIte] at h
      rw [← List.nil_append (t :: more)]
      refine Stall.lift_follows (fun _ => true) (Q := []) (D := []) (inputList_stall h)
        scanned_nil rfl (fun K _ => .of_closed _ _) (fun T taken follows e fails => ?_)
        (fun T taken follows a K _ reads => ?_) fresh
      · obtain ⟨s, T', rfl⟩ := follows.cons_head taken
        exact ⟨e, by simp [multiary, indexed, fails]⟩
      · obtain ⟨s, T', rfl⟩ := follows.cons_head taken
        exact ⟨a, multiary_reads (by simpa using indexed) reads⟩
termination_by toks => 5 * toks.length + 2

theorem inputList_stall : ∀ {index : Node} {toks : List Token} {r : Rejection},
    inputList index toks = .error r → Stall (inputList index) closed toks r
  | index, toks, r, h => by
    have fresh : Completes (inputList index) closed [] :=
      .of_reads (C := [Filler.mark .lparen, Filler.mark .rparen]) rfl fun K _ =>
        ⟨_, inputList_fill index K⟩
    unfold inputList at h
    split at h
    · -- no `(`
      rename_i e fails
      cases h
      rw [← List.nil_append toks]
      exact Stall.of_step (P := []) (closed) (expectPunct .lparen)
        (expectPunct_stops fails) (fun K e _ fails => ⟨e, by simp [inputList, fails]⟩) scanned_nil fresh
    rename_i _ r1 h1 opened
    -- the tokens stay named, so that each part read below is seen to be shorter
    obtain ⟨lp, opening, isOpen⟩ := expectPunct_ok opened
    simp only at opening
    rw [opening]
    have scannedL : Scanned [lp] := by simp [ne_unscannable_of_isPunct isOpen]
    have closes : Completes (inputList index) closed [lp] :=
      .of_reads (C := [Filler.mark .rparen]) rfl fun K _ => by
        refine ⟨.tree "multiary" [index, .absent], ?_, ?_⟩
        · simp only [List.cons_append, List.nil_append, List.length_cons]
          omega
        · simp [inputList, expectPunct_cons isOpen]
    cases r1 with
    | nil =>
      cases h
      exact Stall.at_rest (P := [lp]) (.inl ⟨rfl, rfl⟩) scannedL closes
    | cons t r2 =>
    simp only at h
    split at h
    · cases h
    rename_i notClose
    split at h
    · -- the first spec fails
      rename_i e fails
      cases h
      have notClose' : ∀ k K, Follows (fun l => l.1 == .punct .rparen) (t :: r2) (k :: K) →
          k.isPunct .rparen = false := fun k K follows =>
        follows.not_punct (fun _ => by simp) (fun x mem => by simp_all) k rfl
      refine Stall.lift_follows (fun l => l.1 == .punct .rparen) (Q := [lp])
        (D := [Filler.mark .rparen]) (spec_stall fails) scannedL rfl
        (fun K _ => .of_head rfl K) (fun T taken follows e fails => ?_)
        (fun T taken follows a K' _ reads => ?_) closes
      · obtain ⟨k, K, rfl⟩ := List.exists_cons_of_ne_nil taken
        exact ⟨e, by simp [inputList, expectPunct_cons isOpen, notClose' k K follows, fails]⟩
      · obtain ⟨k, K, rfl⟩ := List.exists_cons_of_ne_nil taken
        obtain ⟨shorter, read⟩ := reads
        obtain ⟨_, stop⟩ := @moreSpecs_stop (Filler.mark .rparen :: K')
          (fun _ mem => by simp at mem; subst mem; rfl) #[a]
        simp at shorter
        simp [Reads, inputList, expectPunct_cons isOpen, notClose' k K follows, read, stop]
        omega
    rename_i _ first r3 h3 readFirst
    obtain ⟨Ps, eq, scannedS, specAgain⟩ := spec_frame ⟨h3, readFirst⟩
    obtain ⟨Ps0, rfl, rfl⟩ := eq_cons_of_append eq h3
    have reread : ∀ T, Follows extendsSpec r3 T → Reads (spec (t :: (Ps0 ++ T))) first T :=
      fun T follows => specAgain (t :: Ps0) T (.refl _) follows
    have scannedQ : Scanned (lp :: t :: Ps0) := scanned_cons.mpr ⟨ne_unscannable_of_isPunct isOpen, scannedS⟩
    split at h
    · -- a later spec fails
      rename_i e fails
      cases h
      refine Stall.lift_follows (extendsSpec) (Q := lp :: t :: Ps0) (D := [Filler.mark .rparen])
        (moreSpecs_stall fails) scannedQ rfl (fun K _ => .of_head rfl K)
        (fun T _ follows e fails => ?_) (fun T _ follows a K _ reads => ?_)
        (.of_reads (C := [Filler.mark .rparen]) rfl fun K _ => ?_)
      · obtain ⟨_, readT⟩ := reread T follows
        exact ⟨e, by simp [inputList, expectPunct_cons isOpen, notClose, readT, fails]⟩
      · obtain ⟨_, readT⟩ := reread T follows
        obtain ⟨shorter, read⟩ := reads
        simp at shorter
        simp [Reads, inputList, expectPunct_cons isOpen, notClose, readT, read]
        omega
      · obtain ⟨_, readT⟩ := reread (Filler.mark .rparen :: K) (.of_head rfl K)
        obtain ⟨_, stop⟩ := @moreSpecs_stop (Filler.mark .rparen :: K)
          (fun _ mem => by simp at mem; subst mem; rfl) #[first]
        rw [List.append_assoc]
        simp [Reads, inputList, expectPunct_cons isOpen, notClose, readT, stop]
        omega
    rename_i _ specs r4 h4 readMore
    obtain ⟨Pm, rfl, scannedM, moreAgain⟩ := moreSpecs_frame ⟨h4, readMore⟩
    -- after the specs, only the token that stands where `r4` starts decides
    have rereadAll : ∀ K, Follows extendsSpecs r4 K →
        Reads (spec (t :: (Ps0 ++ (Pm ++ K)))) first (Pm ++ K) ∧
          Reads (moreSpecs (Pm ++ K) #[first]) specs K := fun K follows =>
      ⟨reread (Pm ++ K) (.append (.refl Pm) fun empty => by
          subst empty
          exact follows.mono extendsSpec_le_specs),
        moreAgain Pm K (.refl _) follows⟩
    split at h
    · -- no `)` after the specs
      rename_i e fails
      cases h
      have shape : ∀ L, (lp :: t :: Ps0 ++ Pm) ++ L = lp :: t :: (Ps0 ++ (Pm ++ L)) := by simp
      rw [← shape]
      refine Stall.of_step (P := lp :: t :: Ps0 ++ Pm) (extendsSpecs)
        (expectPunct .rparen) (expectPunct_stops fails) (fun K e follows fails => ?_)
        (scanned_append.mpr ⟨scannedQ, scannedM⟩) (.of_reads (C := [Filler.mark .rparen]) rfl fun K _ => ?_)
      · obtain ⟨⟨_, readT⟩, ⟨_, readM⟩⟩ := rereadAll K follows
        rw [shape]
        exact ⟨e, by simp [inputList, expectPunct_cons isOpen, notClose, readT, readM, fails]⟩
      · obtain ⟨⟨_, readT⟩, ⟨_, readM⟩⟩ := rereadAll (Filler.mark .rparen :: K) (.of_head rfl K)
        rw [List.append_assoc, shape]
        simp [Reads, inputList, expectPunct_cons isOpen, notClose, readT, readM]
        omega
    · cases h
termination_by _ toks => 5 * toks.length + 1

theorem moreSpecs_stall : ∀ {toks : List Token} {acc : Array Node} {r : Rejection},
    moreSpecs toks acc = .error r → Stall (fun ts => moreSpecs ts acc) extendsSpecs toks r
  | [], acc, r, h => by simp [moreSpecs] at h
  | t :: more, acc, r, h => by
    by_cases comma : t.isPunct .comma
    · simp only [moreSpecs, comma, ↓reduceIte] at h
      have scannedT := ne_unscannable_of_isPunct comma
      split at h
      · -- the spec after the comma fails
        rename_i e fails
        cases h
        refine Stall.lift (Q := [t]) (D := []) (spec_stall fails) (by simp [scannedT]) rfl
          (fun K after => .weaken extendsSpec_le_specs K after)
          (fun T e fails => ⟨e, by simp [moreSpecs, comma, fails]⟩) fun T a K after reads => ?_
        obtain ⟨shorter, read⟩ := reads
        obtain ⟨_, stop⟩ :=
          moreSpecs_stop (fun k mem => (extendsSpecs_eq_false (after.nil_refuses k mem)).2) (acc.push a)
        simp at shorter
        simp [Reads, moreSpecs, comma, read, stop]
        omega
      rename_i _ first r1 h1 readFirst
      obtain ⟨Ps, rfl, scannedS, specAgain⟩ := spec_frame ⟨h1, readFirst⟩
      have reread : ∀ T, Follows extendsSpec r1 T → Reads (spec (Ps ++ T)) first T :=
        fun T follows => specAgain Ps T (.refl _) follows
      split at h
      · -- a later spec fails
        rename_i e fails
        cases h
        refine Stall.lift_follows (extendsSpec) (Q := t :: Ps) (D := []) (moreSpecs_stall fails)
          (by simp [scannedT, scannedS]) rfl (fun K after => after) (fun T _ follows e fails => ?_)
          (fun T _ follows a K _ reads => ?_) (.of_reads (C := []) rfl fun K after => ?_)
        · obtain ⟨_, readT⟩ := reread T follows
          exact ⟨e, by simp [moreSpecs, comma, readT, fails]⟩
        · obtain ⟨_, readT⟩ := reread T follows
          obtain ⟨shorter, read⟩ := reads
          simp at shorter
          simp [Reads, moreSpecs, comma, readT, read]
          omega
        · obtain ⟨_, readT⟩ := reread K (after.of_nil extendsSpec_le_specs)
          obtain ⟨_, stop⟩ := moreSpecs_stop
            (fun k mem => (extendsSpecs_eq_false (after.nil_refuses k mem)).2) (acc.push first)
          rw [List.append_nil]
          simp [Reads, moreSpecs, comma, readT, stop]
          omega
      · cases h
    · simp [moreSpecs, comma] at h
termination_by toks => 5 * toks.length + 3

theorem spec_stall : ∀ {toks : List Token} {r : Rejection}, spec toks = .error r →
    Stall spec extendsSpec toks r
  | t :: c :: more, r, h => by
    by_cases named : (t.kind == .word && !t.isWord "resolved" && c.isPunct .colon) = true
    · -- an input id and `:` before the output
      simp only [spec, named, ↓reduceIte] at h
      split at h
      · rename_i e fails
        cases h
        have scanned : Scanned [t, c] := by
          simp only [Bool.and_eq_true, beq_iff_eq] at named
          simp [named.1.1, ne_unscannable_of_isPunct named.2]
        refine Stall.lift (Q := [t, c]) (D := []) (outputRef_stall fails) scanned rfl
          (fun K after => .weaken extendsOutput_le_spec K after)
          (fun T e fails => ⟨e, by simp [spec, named, fails]⟩) fun T a K _ reads => ?_
        obtain ⟨shorter, read⟩ := reads
        simp at shorter
        simp [Reads, spec, named, read]
        omega
      · cases h
    · -- the output alone
      simp only [spec, named, Bool.false_eq_true, ↓reduceIte] at h
      split at h
      · rename_i e fails
        cases h
        refine Stall.spec_of_outputRef (outputRef_stall fails) fun t' c' R eq word notResolved => ?_
        simp only [List.cons.injEq] at eq
        obtain ⟨rfl, rfl, rfl⟩ := eq
        exact colon_false_of_not_named named word notResolved
      · cases h
  | [t], r, h => by
    simp only [spec] at h
    split at h
    · rename_i e fails
      cases h
      exact Stall.spec_of_outputRef (outputRef_stall fails) fun t' c' R eq => by simp at eq
    · cases h
  | [], r, h => by
    simp only [spec] at h
    split at h
    · rename_i e fails
      cases h
      exact Stall.spec_of_outputRef (outputRef_stall fails) fun t' c' R eq => by simp at eq
    · cases h
termination_by toks => 5 * toks.length + 2

theorem outputRef_stall : ∀ {toks : List Token} {r : Rejection},
    outputRef toks = .error r → Stall outputRef extendsOutput toks r
  | toks, r, h => by
    unfold outputRef at h
    split at h
    · -- the substitution fails
      rename_i e fails
      cases h
      rw [← List.nil_append toks]
      exact Stall.lift (Q := []) (D := []) (substitution_stall fails) scanned_nil rfl
        (fun K after => .weaken extendsSubstitution_le_output K after)
        (fun T e fails => ⟨e, by simp [outputRef, fails]⟩) fun T a K after reads =>
          ⟨_, outputRef_plain reads fun k mem => (extendsOutput_eq_false (after.nil_refuses k mem)).2⟩
    rename_i _ sub r1 h1 readSub
    obtain ⟨Ps, rfl, scannedS, subAgain⟩ := substitution_frame ⟨h1, readSub⟩
    cases r1 with
    | nil => cases h
    | cons d r2 =>
      simp only at h
      split at h
      · rename_i dot
        split at h
        · -- no id after `.`
          rename_i e fails
          cases h
          have reread : ∀ K, Reads (substitution (Ps ++ d :: K)) sub (d :: K) :=
            fun K => subAgain Ps (d :: K) (.refl _) (.cons d.start K)
          have shape : ∀ L, (Ps ++ [d]) ++ L = Ps ++ d :: L := by simp
          rw [← shape]
          refine Stall.of_step (P := Ps ++ [d]) (closed) (ident) (ident_error fails)
            (fun K e _ fails => ?_) (by simp [scannedS, ne_unscannable_of_isPunct dot])
            (.of_reads (C := [Filler.word]) rfl fun K _ => ?_)
          · obtain ⟨_, readK⟩ := reread K
            rw [shape]
            exact ⟨e, by simp [outputRef, readK, dot, fails]⟩
          · obtain ⟨_, readK⟩ := reread (Filler.word :: K)
            rw [List.append_assoc, shape]
            simp [Reads, outputRef, readK, dot]
            omega
        · cases h
      · cases h
termination_by toks => 5 * toks.length + 1

end

theorem readName_stall {toks : List Token} {r : Rejection} (h : readName toks = .error r) :
    ∃ P X Y refuse, toks = P ++ X ∧ Scanned P ∧ Stop r X Y refuse ∧ (P = [] → Y = []) ∧
      (∀ k K, refuse k → ∃ e, readName (P ++ Y ++ k :: K) = .error e) ∧
      ∃ C, C.all Token.fills = true ∧ ∃ root, readName (P ++ Y ++ C) = .ok root := by
  unfold readName at h
  split at h
  · -- the name itself stops
    rename_i e fails
    cases h
    obtain ⟨P, X, Y, refuse, rfl, scanned, stop, inside, refuses, C, fills, completes⟩ :=
      name_stall fails
    refine ⟨P, X, Y, refuse, rfl, scanned, stop, inside, fun k K refused => ?_, C, fills, ?_⟩
    · obtain ⟨e, fails⟩ := refuses k K refused
      exact ⟨e, by simp [readName, fails]⟩
    · obtain ⟨root, _, read⟩ := completes [] fun _ mem => by simp at mem
      rw [← List.append_nil (P ++ Y ++ C)]
      exact ⟨root, by simp only [readName, read]⟩
  · cases h
  · -- a whole name is followed by tokens it cannot take
    rename_i _ node t rest h1 read
    cases h
    obtain ⟨P, split, scanned, again⟩ := name_frame ⟨h1, read⟩
    refine ⟨P, t :: rest, [], _, split, scanned, .token t rest, fun _ => rfl, fun k K same => ?_, [],
      rfl, ?_⟩
    · have follows : Follows extendsSubstitution (t :: rest) (k :: K) := by
        rw [Token.eq_at_of_lexeme same]
        exact .cons _ _
      obtain ⟨_, readK⟩ := again P (k :: K) (.refl _) follows
      rw [List.append_nil]
      exact ⟨.at k.start, by simp only [readName, readK]⟩
    · obtain ⟨_, readAll⟩ := again P [] (.refl _) fun _ mem => by simp at mem
      rw [List.append_nil]
      exact ⟨node, by simp only [readName, readAll]⟩

end ArtifactNames
