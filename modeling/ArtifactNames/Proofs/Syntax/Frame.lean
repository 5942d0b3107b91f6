import ArtifactNames.Proofs.Syntax.ReadSound

/-! Reading depends on the kinds and texts of tokens, never on where they stand (`Frame`, `name_frame`):
a reader takes the same prefix again from tokens that spell it and go on as before. -/

namespace ArtifactNames

open Syntax Text

def Syntax.Token.at (t : Token) (s : Nat) : Token := ⟨t.kind, s, t.text⟩

namespace Syntax.Token

variable (t : Token) (s : Nat)

@[simp] theorem kind_at : (t.at s).kind = t.kind := rfl
@[simp] theorem text_at : (t.at s).text = t.text := rfl
@[simp] theorem lexeme_at : (t.at s).lexeme = t.lexeme := rfl
@[simp] theorem isPunct_at (p : Punct) : (t.at s).isPunct p = t.isPunct p := rfl
@[simp] theorem isWord_at (w : String) : (t.at s).isWord w = t.isWord w := rfl

end Syntax.Token

@[simp] theorem identNode_at (t : Token) (s : Nat) : identNode (t.at s) = identNode t := rfl

def Agree (xs ys : List Token) : Prop := xs.map Token.lexeme = ys.map Token.lexeme

namespace Agree

theorem refl (xs : List Token) : Agree xs xs := rfl

theorem nil_left {ys : List Token} (h : Agree [] ys) : ys = [] := by
  simpa [Agree] using h.symm

theorem cons_left {x : Token} {xs ys : List Token} (h : Agree (x :: xs) ys) :
    ∃ s ys', ys = x.at s :: ys' ∧ Agree xs ys' := by
  match ys, h with
  | ⟨kind, s, text⟩ :: ys', h =>
    simp only [Agree, List.map_cons, List.cons.injEq, Token.lexeme, Prod.mk.injEq] at h
    obtain ⟨⟨rfl, rfl⟩, rest⟩ := h
    exact ⟨s, ys', rfl, rest⟩

theorem append_left {A B ys : List Token} (h : Agree (A ++ B) ys) :
    ∃ A' B', ys = A' ++ B' ∧ Agree A A' ∧ Agree B B' := by
  simp only [Agree, List.map_append] at h
  obtain ⟨A', B', rfl, hA, hB⟩ := List.map_eq_append_iff.mp h.symm
  exact ⟨A', B', rfl, hA.symm, hB.symm⟩

theorem append {A A' B B' : List Token} (hA : Agree A A') (hB : Agree B B') :
    Agree (A ++ B) (A' ++ B') := by
  simp only [Agree, List.map_append] at *
  rw [hA, hB]

theorem cons {x : Token} {xs ys : List Token} (s : Nat) (h : Agree xs ys) :
    Agree (x :: xs) (x.at s :: ys) := by
  simp only [Agree, List.map_cons] at *
  rw [h]
  rfl

end Agree

/-- `K` can stand where `X` stood after a part that tokens of the kinds and texts `ext` accepts
could extend: it is empty, or starts with a token of the kind and text `X` starts with, or with
one `ext` refuses. -/
def Follows (ext : TokenKind × List Nat → Bool) (X K : List Token) : Prop :=
  ∀ k ∈ K.head?, (∃ x ∈ X.head?, x.lexeme = k.lexeme) ∨ ext k.lexeme = false

def closed (_ : TokenKind × List Nat) : Bool := false

namespace Follows

variable {ext : TokenKind × List Nat → Bool}

theorem of_closed (X K : List Token) : Follows closed X K :=
  fun _ _ => .inr rfl

theorem refl (X : List Token) : Follows ext X X :=
  fun k mem => .inl ⟨k, mem, rfl⟩

theorem mono {e1 : TokenKind × List Nat → Bool} {X K : List Token} (h : Follows ext X K)
    (le : ∀ l, e1 l = true → ext l = true) : Follows e1 X K := by
  intro k mem
  rcases h k mem with same | refused
  · exact .inl same
  · exact .inr (by cases h1 : e1 k.lexeme <;> simp_all)

theorem append {M M' X K : List Token} (agree : Agree M M')
    (h : M = [] → Follows ext X K) : Follows ext (M ++ X) (M' ++ K) := by
  cases M with
  | nil =>
    rw [Agree.nil_left agree]
    exact h rfl
  | cons m ms =>
    obtain ⟨s, ms', rfl, -⟩ := agree.cons_left
    intro k mem
    simp only [List.cons_append, List.head?_cons, Option.mem_def, Option.some.injEq] at mem
    subst mem
    exact .inl ⟨m, rfl, rfl⟩

theorem cons {x : Token} {X : List Token} (s : Nat) (K : List Token) :
    Follows ext (x :: X) (x.at s :: K) := by
  intro k mem
  simp only [List.head?_cons, Option.mem_def, Option.some.injEq] at mem
  subst mem
  exact .inl ⟨x, rfl, rfl⟩

theorem avoids (q : TokenKind × List Nat → Bool) {X K : List Token} (h : Follows ext X K)
    (le : ∀ l, q l = true → ext l = true) (stop : ∀ x ∈ X.head?, q x.lexeme = false) :
    ∀ k ∈ K.head?, q k.lexeme = false := by
  intro k mem
  rcases h k mem with ⟨x, memX, same⟩ | refused
  · rw [← same]
    exact stop x memX
  · cases hq : q k.lexeme
    · rfl
    · simp [le _ hq] at refused

theorem refuses {X K : List Token} (h : Follows ext X K) (stop : ∀ x ∈ X.head?, ext x.lexeme = false) :
    ∀ k ∈ K.head?, ext k.lexeme = false :=
  h.avoids ext (fun _ accepted => accepted) stop

theorem not_punct {p : Punct} {X K : List Token} (h : Follows ext X K)
    (le : ∀ text, ext (.punct p, text) = true) (stop : ∀ x ∈ X.head?, x.isPunct p = false) :
    ∀ k ∈ K.head?, k.isPunct p = false := by
  refine h.avoids (fun l => l.1 == .punct p) (fun ⟨kind, text⟩ hl => ?_) stop
  obtain rfl : kind = .punct p := by simpa using hl
  exact le text

end Follows

def Scanned (P : List Token) : Prop := ∀ t ∈ P, t.kind ≠ .unscannable

@[simp] theorem scanned_nil : Scanned [] := fun _ mem => absurd mem List.not_mem_nil

@[simp] theorem scanned_cons {t : Token} {P : List Token} :
    Scanned (t :: P) ↔ t.kind ≠ .unscannable ∧ Scanned P := List.forall_mem_cons

@[simp] theorem scanned_append {A B : List Token} : Scanned (A ++ B) ↔ Scanned A ∧ Scanned B :=
  List.forall_mem_append

theorem ne_unscannable_of_isPunct {t : Token} {p : Punct} (h : t.isPunct p = true) :
    t.kind ≠ .unscannable := by
  simp only [Token.isPunct, beq_iff_eq] at h
  simp [h]

theorem ne_unscannable_of_isWord {t : Token} {w : String} (h : t.isWord w = true) :
    t.kind ≠ .unscannable := by
  simp only [Token.isWord, Bool.and_eq_true, beq_iff_eq] at h
  simp [h.1]

/-- Reading `toks` gave `a` and left `X`: it took a prefix `P` of the tokens, none unscannable,
and it gives `a` again, leaving `K`, on every token list that has the kinds and texts of `P` and
goes on with a `K` that follows as `X` did. -/
def Frame {α : Type} {R : List Token → List Token → Prop}
    (run : (toks : List Token) → Except Rejection (α × {rest : List Token // R toks rest}))
    (ext : TokenKind × List Nat → Bool) (toks : List Token) (a : α) (X : List Token) : Prop :=
  ∃ P, toks = P ++ X ∧ Scanned P ∧ ∀ P' K, Agree P P' → Follows ext X K → Reads (run (P' ++ K)) a K

theorem Frame.empty {α : Type} {R : List Token → List Token → Prop}
    {run : (toks : List Token) → Except Rejection (α × {rest : List Token // R toks rest})}
    {ext : TokenKind × List Nat → Bool} {X : List Token} {a : α}
    (stop : ∀ K, Follows ext X K → Reads (run K) a K) : Frame run ext X a X := by
  refine ⟨[], rfl, by simp [Scanned], fun P' K agree follows => ?_⟩
  rw [Agree.nil_left agree]
  exact stop K follows

theorem expectPunct_cons {p : Punct} {t : Token} (h : t.isPunct p = true) (K : List Token) :
    expectPunct p (t :: K) = .ok ⟨K, Nat.lt_succ_self _⟩ := by
  simp [expectPunct, h]

theorem ident_frame {toks X : List Token} {n : Node} (h : Reads (ident toks) n X) :
    Frame ident closed toks n X := by
  obtain ⟨t, rfl, word, rfl⟩ := ident_sound h
  refine ⟨[t], rfl, by simp [word], fun P' K agree _ => ?_⟩
  obtain ⟨s, _, rfl, rest⟩ := agree.cons_left
  rw [Agree.nil_left rest]
  exact ⟨Nat.lt_succ_self _, by simp [ident, word, identNode]⟩

theorem paramValue_frame {toks X : List Token} {n : Node} (h : Reads (paramValue toks) n X) :
    Frame paramValue closed toks n X := by
  obtain ⟨_, h⟩ := h
  cases toks with
  | nil => cases h
  | cons t more =>
    have same : ∀ s K, paramValue (t.at s :: K) = .ok (n, ⟨K, Nat.lt_succ_self _⟩) ∧ X = more := by
      intro s K
      obtain ⟨kind, start, text⟩ := t
      cases kind <;> simp_all [paramValue, Token.at]
    have scanned : t.kind ≠ .unscannable := by
      intro unscannable
      simp [paramValue, unscannable] at h
    refine ⟨[t], (same 0 []).2 ▸ rfl, by simp [scanned], fun P' K agree _ => ?_⟩
    obtain ⟨s, _, rfl, rest⟩ := agree.cons_left
    rw [Agree.nil_left rest]
    exact ⟨_, (same s K).1⟩

theorem param_frame {toks X : List Token} {n : Node} (h : Reads (param toks) n X) :
    Frame param closed toks n X := by
  obtain ⟨key, r1, ⟨r2, h2⟩, value, keyed, assign, valued, rfl⟩ := param_parts h
  obtain ⟨Pk, rfl, Pk_scanned, keyAgain⟩ := ident_frame keyed
  obtain ⟨e, rfl, isAssign⟩ := expectPunct_taken assign
  obtain ⟨Pv, rfl, Pv_scanned, valueAgain⟩ := paramValue_frame valued
  refine ⟨Pk ++ e :: Pv, by simp, by simp [Pk_scanned, Pv_scanned, ne_unscannable_of_isPunct isAssign], fun P' K agree _ => ?_⟩
  obtain ⟨Pk', rest, rfl, agreeKey, agreeRest⟩ := agree.append_left
  obtain ⟨s, Pv', rfl, agreeValue⟩ := agreeRest.cons_left
  obtain ⟨_, readKey⟩ := keyAgain Pk' (e.at s :: (Pv' ++ K)) agreeKey (.of_closed _ _)
  obtain ⟨_, readValue⟩ := valueAgain Pv' K agreeValue (.of_closed _ _)
  rw [List.append_assoc, List.cons_append]
  refine ⟨by simp; omega, ?_⟩
  simp only [param, readKey, bind, Except.bind,
    expectPunct_cons (show (e.at s).isPunct .assign = true from isAssign), readValue, pure, Except.pure]

def extendsByComma (l : TokenKind × List Nat) : Bool := l.1 == .punct .comma

theorem moreParams_stop {K : List Token} (acc : Array Node)
    (stop : ∀ k ∈ K.head?, extendsByComma k.lexeme = false) : Reads (moreParams K acc) acc K := by
  cases K with
  | nil => exact ⟨Nat.le_refl _, by simp [moreParams]⟩
  | cons k K =>
    have notComma : k.isPunct .comma = false := stop k rfl
    exact ⟨Nat.le_refl _, by simp [moreParams, notComma]⟩

theorem moreParams_frame {toks X : List Token} {acc ps : Array Node}
    (h : Reads (moreParams toks acc) ps X) : Frame (fun ts => moreParams ts acc) extendsByComma toks ps X := by
  obtain ⟨rfl, rfl, stop⟩ | ⟨t, more, first, r1, rfl, comma, readFirst, readMore⟩ := moreParams_parts h
  · refine .empty fun K follows => moreParams_stop _ (follows.refuses fun x mem => ?_)
    simpa [extendsByComma, Token.lexeme, Token.isPunct] using stop x mem
  · have shorter := readFirst.bound
    obtain ⟨Pp, rfl, Pp_scanned, paramAgain⟩ := param_frame readFirst
    obtain ⟨Pm, rfl, Pm_scanned, moreAgain⟩ := moreParams_frame readMore
    refine ⟨t :: (Pp ++ Pm), by simp, by simp [Pp_scanned, Pm_scanned, ne_unscannable_of_isPunct comma], fun P' K agree follows => ?_⟩
    obtain ⟨s, rest, rfl, agreeRest⟩ := agree.cons_left
    obtain ⟨Pp', Pm', rfl, agreeP, agreeM⟩ := agreeRest.append_left
    obtain ⟨_, firstK⟩ := paramAgain Pp' (Pm' ++ K) agreeP (.of_closed _ _)
    obtain ⟨_, moreK⟩ := moreAgain Pm' K agreeM follows
    rw [List.cons_append, List.append_assoc]
    refine ⟨by simp; omega, ?_⟩
    simp only [moreParams, Token.isPunct_at, comma, ↓reduceIte, firstK, moreK]
termination_by toks.length
decreasing_by subst_vars; simp only [List.length_cons]; omega

theorem eq_cons_of_append {t : Token} {r P X : List Token} (h : t :: r = P ++ X) (shorter : X.length < (t :: r).length) :
    ∃ P0, P = t :: P0 ∧ r = P0 ++ X := by
  cases P with
  | nil => simp_all
  | cons p P0 =>
    simp only [List.cons_append, List.cons.injEq] at h
    obtain ⟨rfl, rfl⟩ := h
    exact ⟨P0, rfl, rfl⟩

theorem params_frame {toks X : List Token} {n : Node} (h : Reads (params toks) n X) :
    Frame params closed toks n X := by
  rcases params_parts h with ⟨lb, t, rfl, isOpen, isClose, rfl⟩ |
    ⟨lb, t, more, first, r3, ps, rb, rfl, isOpen, notClose, readFirst, readMore, isClose, rfl⟩
  · -- `[ ]`
    refine ⟨[lb, t], rfl, by simp [ne_unscannable_of_isPunct isOpen, ne_unscannable_of_isPunct isClose],
      fun P' K agree _ => ?_⟩
    obtain ⟨s1, rest, rfl, agreeRest⟩ := agree.cons_left
    obtain ⟨s2, rest', rfl, agreeNil⟩ := agreeRest.cons_left
    rw [Agree.nil_left agreeNil]
    refine ⟨by simp only [List.length_cons, List.cons_append, List.nil_append]; omega, ?_⟩
    simp [params, expectPunct_cons (show (lb.at s1).isPunct .lbracket = true from isOpen), isClose]
  · obtain ⟨Pp, eq, Pp_scanned, paramAgain⟩ := param_frame readFirst
    obtain ⟨Pp0, rfl, rfl⟩ := eq_cons_of_append eq readFirst.bound
    obtain ⟨Pm, rfl, Pm_scanned, moreAgain⟩ := moreParams_frame readMore
    refine ⟨lb :: t :: (Pp0 ++ Pm ++ [rb]), by simp, by simp [scanned_cons.mp Pp_scanned, Pm_scanned,
      ne_unscannable_of_isPunct isOpen, ne_unscannable_of_isPunct isClose], fun P' K agree _ => ?_⟩
    obtain ⟨s1, rest, rfl, agreeRest⟩ := agree.cons_left
    obtain ⟨s2, rest', rfl, agreeRest'⟩ := agreeRest.cons_left
    obtain ⟨PpM', R', rfl, agreePM, agreeR⟩ := agreeRest'.append_left
    obtain ⟨s3, rest'', rfl, agreeNil⟩ := agreeR.cons_left
    rw [Agree.nil_left agreeNil]
    obtain ⟨Pp0', Pm', rfl, agreeP, agreeM⟩ := agreePM.append_left
    obtain ⟨_, readFirst⟩ :=
      paramAgain (t.at s2 :: Pp0') (Pm' ++ rb.at s3 :: K) (agreeP.cons s2) (.of_closed _ _)
    obtain ⟨_, readRest⟩ := moreAgain Pm' (rb.at s3 :: K) agreeM (.cons _ _)
    have shape : (lb.at s1 :: t.at s2 :: (Pp0' ++ Pm' ++ [rb.at s3])) ++ K =
        lb.at s1 :: t.at s2 :: (Pp0' ++ (Pm' ++ rb.at s3 :: K)) := by simp
    rw [shape]
    refine ⟨by simp only [List.length_cons, List.length_append]; omega, ?_⟩
    simp only [List.cons_append] at readFirst
    simp only [params, expectPunct_cons (show (lb.at s1).isPunct .lbracket = true from isOpen),
      Token.isPunct_at, notClose, Bool.false_eq_true, ↓reduceIte, readFirst, readRest,
      expectPunct_cons (show (rb.at s3).isPunct .rbracket = true from isClose)]

def extendsByBracket (l : TokenKind × List Nat) : Bool := l.1 == .punct .lbracket

theorem pid_absent {P K : List Token} {id : Node} (read : Reads (ident (P ++ K)) id K)
    (stop : ∀ k ∈ K.head?, extendsByBracket k.lexeme = false) :
    Reads (pid (P ++ K)) (.tree "parameterized_id" [id, .absent]) K := by
  obtain ⟨shorter, read⟩ := read
  refine ⟨shorter, ?_⟩
  cases K with
  | nil => simp [pid, read]
  | cons k K =>
    have notBracket : k.isPunct .lbracket = false := stop k rfl
    simp [pid, read, notBracket]

theorem pid_frame {toks X : List Token} {n : Node} (h : Reads (pid toks) n X) :
    Frame pid extendsByBracket toks n X := by
  rcases pid_parts h with ⟨id, t, more, ps, readId, bracket, readParams, rfl⟩ |
    ⟨id, readId, stop, rfl⟩
  · obtain ⟨Pi, rfl, Pi_scanned, idAgain⟩ := ident_frame readId
    obtain ⟨Pps, eq, Pps_scanned, paramsAgain⟩ := params_frame readParams
    obtain ⟨Pps0, rfl, rfl⟩ := eq_cons_of_append eq readParams.bound
    refine ⟨Pi ++ t :: Pps0, by simp, by simp [Pi_scanned, Pps_scanned], fun P' K agree _ => ?_⟩
    obtain ⟨Pi', R', rfl, agreeI, agreeR⟩ := agree.append_left
    obtain ⟨s, Pps0', rfl, agreeP⟩ := agreeR.cons_left
    obtain ⟨_, readId⟩ := idAgain Pi' (t.at s :: (Pps0' ++ K)) agreeI (.of_closed _ _)
    obtain ⟨_, readRest⟩ := paramsAgain (t.at s :: Pps0') K (agreeP.cons s) (.of_closed _ _)
    rw [List.append_assoc, List.cons_append]
    refine ⟨by simp only [List.length_append, List.length_cons]; omega, ?_⟩
    simp only [List.cons_append] at readRest
    simp only [pid, readId, Token.isPunct_at, bracket, ↓reduceIte, readRest]
  · obtain ⟨Pi, rfl, Pi_scanned, idAgain⟩ := ident_frame readId
    refine ⟨Pi, rfl, Pi_scanned, fun P' K agree follows => ?_⟩
    refine pid_absent (idAgain P' K agree (.of_closed _ _)) (follows.refuses fun x mem => ?_)
    simpa [extendsByBracket, Token.lexeme, Token.isPunct] using stop x mem

theorem graphIndex_frame {toks X : List Token} {n : Node} (h : Reads (graphIndex toks) n X) :
    Frame graphIndex closed toks n X := by
  obtain ⟨t, rfl, number, digits, whole, rfl⟩ := graphIndex_parts h
  have nonempty : t.text ≠ [] := by simpa [whole] using digits
  -- an index reads the kind and the text of its number, never where the number starts
  have again : ∀ s K, Reads (graphIndex (t.at s :: K)) (.tree "graph_index" [.token "INT" t.text]) K :=
    fun s K => ⟨Nat.lt_succ_self _, by simp [graphIndex, number, whole, nonempty]⟩
  have scanned : t.kind ≠ .unscannable := by simp [number]
  refine ⟨[t], rfl, by simp [scanned], fun P' K agree _ => ?_⟩
  obtain ⟨s, _, rfl, rest⟩ := agree.cons_left
  rw [Agree.nil_left rest]
  exact again s K

/-! ## The name grammar -/

def extendsSubstitution (l : TokenKind × List Nat) : Bool :=
  l.1 == .punct .lbracket || l.1 == .punct .scope || l.1 == .punct .lparen || l.1 == .punct .at

def extendsOutput (l : TokenKind × List Nat) : Bool := extendsSubstitution l || l.1 == .punct .dot

def extendsSpec (l : TokenKind × List Nat) : Bool := extendsOutput l || l.1 == .punct .colon

def extendsSpecs (l : TokenKind × List Nat) : Bool := extendsSpec l || l.1 == .punct .comma

def extendsByLet (l : TokenKind × List Nat) : Bool := l.1 == .word && l.2 == ofText "let"

theorem extendsSubstitution_eq_false {k : Token} (h : extendsSubstitution k.lexeme = false) :
    k.isPunct .lbracket = false ∧ k.isPunct .scope = false ∧ startsInputs [k] = false := by
  simpa [extendsSubstitution, Token.lexeme, Token.isPunct, startsInputs, and_assoc] using h

theorem extendsOutput_eq_false {k : Token} (h : extendsOutput k.lexeme = false) :
    extendsSubstitution k.lexeme = false ∧ k.isPunct .dot = false := by
  simpa [extendsOutput, Token.lexeme, Token.isPunct] using h

theorem extendsSpec_eq_false {k : Token} (h : extendsSpec k.lexeme = false) :
    extendsOutput k.lexeme = false ∧ k.isPunct .colon = false := by
  simpa [extendsSpec, Token.lexeme, Token.isPunct] using h

theorem extendsSpecs_eq_false {k : Token} (h : extendsSpecs k.lexeme = false) :
    extendsSpec k.lexeme = false ∧ k.isPunct .comma = false := by
  simpa [extendsSpecs, Token.lexeme, Token.isPunct] using h

theorem extendsByLet_eq_false {k : Token} (h : extendsByLet k.lexeme = false) : k.isWord "let" = false := by
  simpa [extendsByLet, Token.lexeme, Token.isWord, ofText] using h

theorem extendsSubstitution_le_output (l : TokenKind × List Nat) (h : extendsSubstitution l = true) :
    extendsOutput l = true := by
  simp [extendsOutput, h]

theorem extendsOutput_le_spec (l : TokenKind × List Nat) (h : extendsOutput l = true) :
    extendsSpec l = true := by
  simp [extendsSpec, h]

theorem extendsSpec_le_specs (l : TokenKind × List Nat) (h : extendsSpec l = true) :
    extendsSpecs l = true := by
  simp [extendsSpecs, h]

theorem ne_nil_of_shorter {P X : List Token} (h : X.length < (P ++ X).length) : P ≠ [] := by
  rintro rfl
  simp at h

theorem startsInputs_cons (t : Token) (r : List Token) :
    startsInputs (t :: r) = (t.isPunct .lparen || t.isPunct .at) := rfl

theorem startsInputs_agree {M M' X K : List Token} (agree : Agree M M') (taken : M ≠ []) :
    startsInputs (M' ++ K) = startsInputs (M ++ X) := by
  cases M with
  | nil => exact absurd rfl taken
  | cons m ms =>
    obtain ⟨s, ms', rfl, -⟩ := agree.cons_left
    simp only [List.cons_append, startsInputs_cons, Token.isPunct_at]

theorem startsInputs_follows {X K : List Token} (h : Follows extendsSubstitution X K)
    (stop : startsInputs X = false) : startsInputs K = false := by
  cases K with
  | nil => rfl
  | cons k K =>
    have stopX : ∀ x ∈ X.head?, x.isPunct .lparen = false ∧ x.isPunct .at = false := by
      intro x mem
      cases X with
      | nil => simp at mem
      | cons x' X =>
        simp only [List.head?_cons, Option.mem_def, Option.some.injEq] at mem
        subst mem
        simpa [startsInputs_cons] using stop
    have paren := h.not_punct (fun _ => by simp [extendsSubstitution]) (fun x mem => (stopX x mem).1) k rfl
    have indexed := h.not_punct (fun _ => by simp [extendsSubstitution]) (fun x mem => (stopX x mem).2) k rfl
    rw [startsInputs_cons, paren, indexed]
    rfl

theorem colon_false_of_not_named {t c : Token}
    (named : ¬(t.kind == .word && !t.isWord "resolved" && c.isPunct .colon) = true)
    (word : t.kind = .word) (notResolved : t.isWord "resolved" = false) : c.isPunct .colon = false := by
  simpa [word, notResolved] using named

theorem spec_stays_positional {t : Token} {X K : List Token} (s : Nat)
    (follows : Follows extendsSpec X K)
    (stop : ∀ x ∈ X.head?, t.kind = .word → t.isWord "resolved" = false → x.isPunct .colon = false) :
    ∀ t' c' r, t.at s :: K = t' :: c' :: r → t'.kind = .word → t'.isWord "resolved" = false →
      c'.isPunct .colon = false := by
  rintro t' c' r eq word notResolved
  simp only [List.cons.injEq] at eq
  obtain ⟨rfl, rfl⟩ := eq
  simp only [Token.kind_at, Token.isWord_at] at word notResolved
  exact follows.not_punct (fun _ => by simp [extendsSpec]) (fun x mem => stop x mem word notResolved) c' rfl

theorem atomicOrVariable_at (w : Token) (s : Nat) (toks : List Token) :
    atomicOrVariable (w.at s) toks = atomicOrVariable w toks := by
  rw [atomicOrVariable.eq_def, atomicOrVariable.eq_def]
  rfl

/-! ## The rules of a substitution -/

theorem substitution_resolved_frame {t lp rp : Token} {more X : List Token} {id : Node}
    (resolved : t.isWord "resolved" = true) (isOpen : lp.isPunct .lparen = true)
    (idFrame : Frame ident closed more id (rp :: X)) (isClose : rp.isPunct .rparen = true) :
    Frame substitution extendsSubstitution (t :: lp :: more)
      (.tree "substitution" [.tree "resolved_ref" [id]]) X := by
  obtain ⟨Pi, rfl, Pi_scanned, idAgain⟩ := idFrame
  refine ⟨t :: lp :: (Pi ++ [rp]), by simp, by simp [ne_unscannable_of_isWord resolved,
    ne_unscannable_of_isPunct isOpen, Pi_scanned, ne_unscannable_of_isPunct isClose],
    fun P' K agree _ => ?_⟩
  obtain ⟨s0, r, rfl, agree1⟩ := agree.cons_left
  obtain ⟨s1, r', rfl, agree2⟩ := agree1.cons_left
  obtain ⟨Pi', R', rfl, agreeI, agreeR⟩ := agree2.append_left
  obtain ⟨s2, r'', rfl, agreeNil⟩ := agreeR.cons_left
  rw [Agree.nil_left agreeNil]
  obtain ⟨_, readI⟩ := idAgain Pi' (rp.at s2 :: K) agreeI (.of_closed _ _)
  have shape : (t.at s0 :: lp.at s1 :: (Pi' ++ [rp.at s2])) ++ K =
      t.at s0 :: lp.at s1 :: (Pi' ++ rp.at s2 :: K) := by simp
  rw [shape]
  refine ⟨by simp only [List.length_cons, List.length_append]; omega, ?_⟩
  simp only [substitution, Token.isWord_at, resolved, ↓reduceIte,
    expectPunct_cons (show (lp.at s1).isPunct .lparen = true from isOpen), readI,
    expectPunct_cons (show (rp.at s2).isPunct .rparen = true from isClose)]

theorem substitution_nestedInputs_frame {t rp : Token} {more r2 X : List Token} {inner m : Node}
    (lparen : t.isPunct .lparen = true) (innerFrame : Frame name extendsSubstitution more inner (rp :: r2))
    (isClose : rp.isPunct .rparen = true) (inputs : startsInputs r2 = true)
    (inputsFrame : Frame multiary closed r2 m X) (taken : X.length < r2.length) :
    Frame substitution extendsSubstitution (t :: more)
      (.tree "substitution" [.tree "nested_ref" [inner], m]) X := by
  have kind : t.kind = .punct .lparen := by simpa [Token.isPunct] using lparen
  have word : t.kind ≠ .word := by simp [kind]
  have resolved : t.isWord "resolved" = false := by simp [Token.isWord, kind]
  obtain ⟨Pn, rfl, Pn_scanned, innerAgain⟩ := innerFrame
  obtain ⟨Pm, rfl, Pm_scanned, inputsAgain⟩ := inputsFrame
  refine ⟨t :: (Pn ++ rp :: Pm), by simp, by simp [ne_unscannable_of_isPunct lparen, Pn_scanned,
    ne_unscannable_of_isPunct isClose, Pm_scanned], fun P' K agree _ => ?_⟩
  obtain ⟨s0, r, rfl, agree1⟩ := agree.cons_left
  obtain ⟨Pn', R', rfl, agreeN, agreeR⟩ := agree1.append_left
  obtain ⟨s1, Pm', rfl, agreeM⟩ := agreeR.cons_left
  obtain ⟨_, readN⟩ := innerAgain Pn' (rp.at s1 :: (Pm' ++ K)) agreeN (.cons _ _)
  obtain ⟨_, readM⟩ := inputsAgain Pm' K agreeM (.of_closed _ _)
  have inputs' : startsInputs (Pm' ++ K) = true := by
    rw [startsInputs_agree agreeM (ne_nil_of_shorter taken)]
    exact inputs
  rw [List.cons_append, List.append_assoc, List.cons_append]
  refine ⟨by simp only [List.length_cons, List.length_append] at *; omega, ?_⟩
  simp only [substitution, Token.isWord_at, resolved, Token.kind_at, word, Token.isPunct_at,
    lparen, beq_iff_eq, Bool.false_eq_true, ↓reduceIte, readN,
    expectPunct_cons (show (rp.at s1).isPunct .rparen = true from isClose), inputs', readM]

theorem substitution_nested_frame {t rp : Token} {more X : List Token} {inner : Node}
    (lparen : t.isPunct .lparen = true) (innerFrame : Frame name extendsSubstitution more inner (rp :: X))
    (isClose : rp.isPunct .rparen = true) (noInputs : startsInputs X = false) :
    Frame substitution extendsSubstitution (t :: more)
      (.tree "substitution" [.tree "nested_ref" [inner], .absent]) X := by
  have kind : t.kind = .punct .lparen := by simpa [Token.isPunct] using lparen
  have word : t.kind ≠ .word := by simp [kind]
  have resolved : t.isWord "resolved" = false := by simp [Token.isWord, kind]
  obtain ⟨Pn, rfl, Pn_scanned, innerAgain⟩ := innerFrame
  refine ⟨t :: (Pn ++ [rp]), by simp, by simp [ne_unscannable_of_isPunct lparen, Pn_scanned,
    ne_unscannable_of_isPunct isClose], fun P' K agree follows => ?_⟩
  obtain ⟨s0, r, rfl, agree1⟩ := agree.cons_left
  obtain ⟨Pn', R', rfl, agreeN, agreeR⟩ := agree1.append_left
  obtain ⟨s1, r', rfl, agreeNil⟩ := agreeR.cons_left
  rw [Agree.nil_left agreeNil]
  obtain ⟨_, readN⟩ := innerAgain Pn' (rp.at s1 :: K) agreeN (.cons _ _)
  have noInputs' : startsInputs K = false := startsInputs_follows follows noInputs
  rw [List.cons_append, List.append_assoc, List.singleton_append]
  refine ⟨by simp only [List.length_cons, List.length_append]; omega, ?_⟩
  simp only [substitution, Token.isWord_at, resolved, Token.kind_at, word, Token.isPunct_at,
    lparen, beq_iff_eq, Bool.false_eq_true, ↓reduceIte, readN,
    expectPunct_cons (show (rp.at s1).isPunct .rparen = true from isClose), noInputs']

theorem substitution_computed_frame {t rb sc : Token} {more r3 r4 X : List Token} {out id m : Node}
    (lbrace : t.isPunct .lbrace = true)
    (outputFrame : Frame outputRef extendsOutput more out (rb :: sc :: r3))
    (isClose : rb.isPunct .rbrace = true) (isScope : sc.isPunct .scope = true)
    (idFrame : Frame pid extendsByBracket r3 id r4) (inputsFrame : Frame multiary closed r4 m X)
    (taken : X.length < r4.length) :
    Frame substitution extendsSubstitution (t :: more)
      (.tree "substitution" [.tree "atomic_ref" [.tree "named_namespace" [out], id], m]) X := by
  have kind : t.kind = .punct .lbrace := by simpa [Token.isPunct] using lbrace
  have word : t.kind ≠ .word := by simp [kind]
  have resolved : t.isWord "resolved" = false := by simp [Token.isWord, kind]
  have lparen : t.isPunct .lparen = false := by simp [Token.isPunct, kind]
  obtain ⟨Po, rfl, Po_scanned, outAgain⟩ := outputFrame
  obtain ⟨Pp, rfl, Pp_scanned, idAgain⟩ := idFrame
  obtain ⟨Pm, rfl, Pm_scanned, inputsAgain⟩ := inputsFrame
  refine ⟨t :: (Po ++ rb :: sc :: (Pp ++ Pm)), by simp, by simp [ne_unscannable_of_isPunct lbrace,
    Po_scanned, ne_unscannable_of_isPunct isClose, ne_unscannable_of_isPunct isScope, Pp_scanned,
    Pm_scanned], fun P' K agree _ => ?_⟩
  obtain ⟨s0, r, rfl, agree1⟩ := agree.cons_left
  obtain ⟨Po', R1, rfl, agreeO, agreeR⟩ := agree1.append_left
  obtain ⟨s1, R2, rfl, agreeR2⟩ := agreeR.cons_left
  obtain ⟨s2, R3, rfl, agreePM⟩ := agreeR2.cons_left
  obtain ⟨Pp', Pm', rfl, agreeP, agreeM⟩ := agreePM.append_left
  obtain ⟨_, readO⟩ :=
    outAgain Po' (rb.at s1 :: sc.at s2 :: (Pp' ++ (Pm' ++ K))) agreeO (.cons _ _)
  obtain ⟨_, readP⟩ := idAgain Pp' (Pm' ++ K) agreeP
    (.append agreeM fun empty => absurd empty (ne_nil_of_shorter taken))
  obtain ⟨_, readM⟩ := inputsAgain Pm' K agreeM (.of_closed _ _)
  have shape : (t.at s0 :: (Po' ++ rb.at s1 :: sc.at s2 :: (Pp' ++ Pm'))) ++ K =
      t.at s0 :: (Po' ++ rb.at s1 :: sc.at s2 :: (Pp' ++ (Pm' ++ K))) := by simp
  rw [shape]
  refine ⟨by simp only [List.length_cons, List.length_append] at *; omega, ?_⟩
  simp only [substitution, Token.isWord_at, resolved, Token.kind_at, word, Token.isPunct_at,
    lparen, lbrace, beq_iff_eq, Bool.false_eq_true, ↓reduceIte, readO,
    expectPunct_cons (show (rb.at s1).isPunct .rbrace = true from isClose),
    expectPunct_cons (show (sc.at s2).isPunct .scope = true from isScope), readP, readM]

mutual

theorem name_frame : ∀ {toks X : List Token} {n : Node}, Reads (name toks) n X →
    Frame name extendsSubstitution toks n X
  | toks, X, n, h => by
    obtain ⟨decls, r1, sub, readDecls, readSub, rfl⟩ := name_parts h
    obtain ⟨Pd, rfl, Pd_scanned, declsAgain⟩ := declarations_frame readDecls
    obtain ⟨Ps, rfl, Ps_scanned, subAgain⟩ := substitution_frame readSub
    have taken : Ps ≠ [] := by
      rintro rfl
      simpa using readSub.bound
    refine ⟨Pd ++ Ps, by simp, by simp [Pd_scanned, Ps_scanned], fun P' K agree follows => ?_⟩
    obtain ⟨Pd', Ps', rfl, agreeD, agreeS⟩ := agree.append_left
    obtain ⟨lenD, readD⟩ := declsAgain Pd' (Ps' ++ K) agreeD (.append agreeS fun empty => absurd empty taken)
    obtain ⟨lenS, readS⟩ := subAgain Ps' K agreeS follows
    rw [List.append_assoc]
    exact ⟨Nat.lt_of_lt_of_le lenS lenD, by simp only [name, readD, readS]⟩
termination_by toks => 5 * toks.length + 4

theorem declarations_frame : ∀ {toks X : List Token} {acc ds : Array Node},
    Reads (declarations toks acc) ds X → Frame (fun ts => declarations ts acc) extendsByLet toks ds X
  | toks, X, acc, ds, h => by
    obtain ⟨rfl, rfl, stop⟩ | ⟨t, more, d, r1, rfl, keyword, readDecl, readMore⟩ := declarations_parts h
    · refine .empty fun K follows => declarations_stop (fun k mem => ?_) _
      refine extendsByLet_eq_false (follows.refuses (fun x mem => ?_) k mem)
      simpa [extendsByLet, Token.lexeme, Token.isWord, ofText] using stop x mem
    · have shorter := readDecl.bound
      obtain ⟨Pd, rfl, Pd_scanned, declAgain⟩ := declaration_frame readDecl
      obtain ⟨Pm, rfl, Pm_scanned, moreAgain⟩ := declarations_frame readMore
      refine ⟨t :: (Pd ++ Pm), by simp, by simp [Pd_scanned, Pm_scanned, ne_unscannable_of_isWord keyword], fun P' K agree follows => ?_⟩
      obtain ⟨s, rest, rfl, agreeRest⟩ := agree.cons_left
      obtain ⟨Pd', Pm', rfl, agreeD, agreeM⟩ := agreeRest.append_left
      obtain ⟨lenD, declK⟩ := declAgain Pd' (Pm' ++ K) agreeD (.of_closed _ _)
      obtain ⟨lenM, moreK⟩ := moreAgain Pm' K agreeM follows
      rw [List.cons_append, List.append_assoc]
      refine ⟨by simp only [List.length_cons, List.length_append] at lenD lenM ⊢; omega, ?_⟩
      simp only [declarations, Token.isWord_at, keyword, ↓reduceIte, declK, moreK]
termination_by toks => 5 * toks.length + 3
decreasing_by all_goals subst_vars; simp only [List.length_cons]; omega

theorem declaration_frame : ∀ {toks X : List Token} {n : Node}, Reads (declaration toks) n X →
    Frame declaration closed toks n X
  | toks, X, n, h => by
    obtain ⟨b, e, more, bind, sub, sc, rfl, chosen, isAssign, readSub, isSemi, rfl⟩ := declaration_parts h
    obtain ⟨Ps, rfl, Ps_scanned, subAgain⟩ := substitution_frame readSub
    have binder : b.kind ≠ .unscannable := by
      intro unscannable
      simp [unscannable] at chosen
    refine ⟨b :: e :: (Ps ++ [sc]), by simp, by simp [binder, ne_unscannable_of_isPunct isAssign,
      Ps_scanned, ne_unscannable_of_isPunct isSemi], fun P' K agree _ => ?_⟩
    obtain ⟨s0, r, rfl, agree1⟩ := agree.cons_left
    obtain ⟨s1, r', rfl, agree2⟩ := agree1.cons_left
    obtain ⟨Ps', R', rfl, agreeS, agreeR⟩ := agree2.append_left
    obtain ⟨s2, r'', rfl, agreeNil⟩ := agreeR.cons_left
    rw [Agree.nil_left agreeNil]
    obtain ⟨lenS, readS⟩ := subAgain Ps' (sc.at s2 :: K) agreeS (.cons _ _)
    have shape : (b.at s0 :: e.at s1 :: (Ps' ++ [sc.at s2])) ++ K =
        b.at s0 :: e.at s1 :: (Ps' ++ sc.at s2 :: K) := by simp
    rw [shape]
    refine ⟨by simp only [List.length_cons, List.length_append] at *; omega, ?_⟩
    -- the binder is chosen by the kind of its token alone
    have chosenAt : (if ((b.at s0).kind == .blank) = true then some (.tree "unbound" [])
        else if ((b.at s0).kind == .word) = true then some (.tree "bound" [identNode (b.at s0)])
        else none) = some bind := chosen
    simp only [declaration, chosenAt,
      expectPunct_cons (show (e.at s1).isPunct .assign = true from isAssign), readS,
      expectPunct_cons (show (sc.at s2).isPunct .semicolon = true from isSemi)]
termination_by toks => 5 * toks.length

theorem substitution_frame : ∀ {toks X : List Token} {n : Node}, Reads (substitution toks) n X →
    Frame substitution extendsSubstitution toks n X
  | toks, X, n, h => by
    rcases substitution_parts h with
      ⟨t, lp, more, id, rp, rfl, resolved, isOpen, readId, isClose, rfl⟩ |
      ⟨t, more, rfl, resolved, word, readSub⟩ |
      ⟨t, more, inner, rp, r2, m, rfl, lparen, readInner, isClose, inputs, readInputs, rfl⟩ |
      ⟨t, more, inner, rp, rfl, lparen, readInner, isClose, noInputs, rfl⟩ |
      ⟨t, more, out, rb, sc, r3, id, r4, m, rfl, lbrace, readOut, isClose, isScope, readId, readInputs, rfl⟩
    · exact substitution_resolved_frame resolved isOpen (ident_frame readId) isClose
    · -- a leading word: the rest is read after it alone
      obtain ⟨Pa, rfl, Pa_scanned, subAgain⟩ := atomicOrVariable_frame readSub
      refine ⟨t :: Pa, by simp, by simp [word, Pa_scanned], fun P' K agree follows => ?_⟩
      obtain ⟨s0, Pa', rfl, agreeA⟩ := agree.cons_left
      obtain ⟨lenA, readA⟩ := subAgain Pa' K agreeA follows
      rw [List.cons_append]
      refine ⟨Nat.lt_succ_of_le lenA, ?_⟩
      simp only [substitution, Token.isWord_at, resolved, Token.kind_at, word, beq_self_eq_true,
        Bool.false_eq_true, ↓reduceIte, atomicOrVariable_at, readA]
    · -- the inputs are read from fewer tokens than the whole list
      have shorter : r2.length < (t :: more).length := by
        have := readInner.bound
        simp only [List.length_cons] at this ⊢
        omega
      exact substitution_nestedInputs_frame lparen (name_frame readInner) isClose inputs
        (multiary_frame readInputs) readInputs.bound
    · exact substitution_nested_frame lparen (name_frame readInner) isClose noInputs
    · -- the inputs are read from fewer tokens than the whole list
      have shorter : r4.length < (t :: more).length := by
        have := readOut.bound
        have := readId.bound
        simp only [List.length_cons] at *
        omega
      exact substitution_computed_frame lbrace (outputRef_frame readOut) isClose isScope
        (pid_frame readId) (multiary_frame readInputs) readInputs.bound
termination_by toks => 5 * toks.length

theorem atomicOrVariable_frame : ∀ {w : Token} {toks X : List Token} {n : Node},
    Reads (atomicOrVariable w toks) n X → Frame (atomicOrVariable w) extendsSubstitution toks n X
  | w, toks, X, n, h => by
    rcases atomicOrVariable_parts h with ⟨t, more, ps, r1, rfl, lbracket, readParams, readSub⟩ |
      ⟨t, more, rfl, lbracket, goesOn, readSub⟩ | ⟨rfl, plain, rfl⟩
    · -- parameters, then what follows a parameterized id
      obtain ⟨Pps, eq, Pps_scanned, paramsAgain⟩ := params_frame readParams
      obtain ⟨Pps0, rfl, rfl⟩ := eq_cons_of_append eq readParams.bound
      obtain ⟨Pa, rfl, Pa_scanned, subAgain⟩ := afterPid_frame readSub
      refine ⟨t :: (Pps0 ++ Pa), by simp, by simp [scanned_cons.mp Pps_scanned, Pa_scanned],
        fun P' K agree _ => ?_⟩
      obtain ⟨s0, rest, rfl, agreeRest⟩ := agree.cons_left
      obtain ⟨Pps0', Pa', rfl, agreeP, agreeA⟩ := agreeRest.append_left
      obtain ⟨_, readP⟩ := paramsAgain (t.at s0 :: Pps0') (Pa' ++ K) (agreeP.cons s0) (.of_closed _ _)
      obtain ⟨_, readA⟩ := subAgain Pa' K agreeA (.of_closed _ _)
      rw [List.cons_append, List.append_assoc]
      refine ⟨by simp only [List.length_cons, List.length_append] at *; omega, ?_⟩
      simp only [List.cons_append] at readP
      simp only [atomicOrVariable, Token.isPunct_at, lbracket, ↓reduceIte, readP, readA]
    · -- a namespace or inputs follow the word
      obtain ⟨Pa, eq, Pa_scanned, subAgain⟩ := afterPid_frame readSub
      obtain ⟨Pa0, rfl, rfl⟩ := eq_cons_of_append eq readSub.bound
      refine ⟨t :: Pa0, by simp, Pa_scanned, fun P' K agree _ => ?_⟩
      obtain ⟨s0, Pa0', rfl, agreeA⟩ := agree.cons_left
      obtain ⟨lenA, readA⟩ := subAgain (t.at s0 :: Pa0') K (agreeA.cons s0) (.of_closed _ _)
      simp only [List.cons_append] at readA lenA ⊢
      refine ⟨Nat.le_of_lt lenA, ?_⟩
      simp only [startsInputs_cons] at goesOn
      simp only [atomicOrVariable, Token.isPunct_at, lbracket, startsInputs_cons, goesOn,
        Bool.false_eq_true, ↓reduceIte, readA]
    · -- a variable: nothing that could take the word further follows it
      refine .empty fun K follows => ?_
      refine atomicOrVariable_var w K fun k mem => extendsSubstitution_eq_false (follows.refuses ?_ k mem)
      cases X with
      | nil => simp
      | cons t more =>
        obtain ⟨lbracket, goesOn⟩ := plain t more rfl
        simpa [extendsSubstitution, Token.lexeme, Token.isPunct, startsInputs, and_assoc] using
          And.intro lbracket goesOn
termination_by _ toks => 5 * toks.length + 4

theorem afterPid_frame : ∀ {first : Node} {toks X : List Token} {n : Node},
    Reads (afterPid first toks) n X → Frame (afterPid first) closed toks n X
  | first, toks, X, n, h => by
    rcases afterPid_parts h with ⟨sc, more, id, r1, m, rfl, scope, readId, readInputs, rfl⟩ |
      ⟨t, more, m, rfl, scope, inputs, readInputs, rfl⟩
    · -- `::`, the id under the namespace, and inputs
      obtain ⟨Pp, rfl, Pp_scanned, idAgain⟩ := pid_frame readId
      obtain ⟨Pm, rfl, Pm_scanned, inputsAgain⟩ := multiary_frame readInputs
      refine ⟨sc :: (Pp ++ Pm), by simp, by simp [ne_unscannable_of_isPunct scope, Pp_scanned, Pm_scanned],
        fun P' K agree _ => ?_⟩
      obtain ⟨s0, rest, rfl, agreeRest⟩ := agree.cons_left
      obtain ⟨Pp', Pm', rfl, agreeP, agreeM⟩ := agreeRest.append_left
      obtain ⟨_, readP⟩ := idAgain Pp' (Pm' ++ K) agreeP
        (.append agreeM fun empty => absurd empty (ne_nil_of_shorter readInputs.bound))
      obtain ⟨_, readM⟩ := inputsAgain Pm' K agreeM (.of_closed _ _)
      rw [List.cons_append, List.append_assoc]
      refine ⟨by simp only [List.length_cons, List.length_append] at *; omega, ?_⟩
      simp only [afterPid, Token.isPunct_at, scope, ↓reduceIte, readP, readM]
    · obtain ⟨Pm, eq, Pm_scanned, inputsAgain⟩ := multiary_frame readInputs
      obtain ⟨Pm0, rfl, rfl⟩ := eq_cons_of_append eq readInputs.bound
      refine ⟨t :: Pm0, by simp, Pm_scanned, fun P' K agree _ => ?_⟩
      obtain ⟨s0, Pm0', rfl, agreeM⟩ := agree.cons_left
      obtain ⟨lenM, readM⟩ := inputsAgain (t.at s0 :: Pm0') K (agreeM.cons s0) (.of_closed _ _)
      simp only [List.cons_append] at readM lenM ⊢
      refine ⟨lenM, ?_⟩
      simp only [startsInputs_cons] at inputs
      simp only [afterPid, Token.isPunct_at, scope, startsInputs_cons, inputs, Bool.false_eq_true,
        ↓reduceIte, readM]
termination_by _ toks => 5 * toks.length + 3

theorem multiary_frame : ∀ {toks X : List Token} {n : Node}, Reads (multiary toks) n X →
    Frame multiary closed toks n X
  | toks, X, n, h => by
    rcases multiary_parts h with ⟨a, more, index, r1, rfl, indexed, readIndex, readList⟩ |
      ⟨t, more, rfl, indexed, readList⟩
    · -- `@` and an index, then the list
      obtain ⟨Pg, rfl, Pg_scanned, indexAgain⟩ := graphIndex_frame readIndex
      obtain ⟨Pl, rfl, Pl_scanned, listAgain⟩ := inputList_frame readList
      refine ⟨a :: (Pg ++ Pl), by simp, by simp [ne_unscannable_of_isPunct indexed, Pg_scanned, Pl_scanned],
        fun P' K agree _ => ?_⟩
      obtain ⟨s0, rest, rfl, agreeRest⟩ := agree.cons_left
      obtain ⟨Pg', Pl', rfl, agreeG, agreeL⟩ := agreeRest.append_left
      obtain ⟨_, readG⟩ := indexAgain Pg' (Pl' ++ K) agreeG (.of_closed _ _)
      obtain ⟨_, readL⟩ := listAgain Pl' K agreeL (.of_closed _ _)
      rw [List.cons_append, List.append_assoc]
      refine ⟨by simp only [List.length_cons, List.length_append] at *; omega, ?_⟩
      simp only [multiary, Token.isPunct_at, indexed, ↓reduceIte, readG, readL]
    · obtain ⟨Pl, eq, Pl_scanned, listAgain⟩ := inputList_frame readList
      obtain ⟨Pl0, rfl, rfl⟩ := eq_cons_of_append eq readList.bound
      refine ⟨t :: Pl0, by simp, Pl_scanned, fun P' K agree _ => ?_⟩
      obtain ⟨s0, Pl0', rfl, agreeL⟩ := agree.cons_left
      have readL := listAgain (t.at s0 :: Pl0') K (agreeL.cons s0) (.of_closed _ _)
      simp only [List.cons_append] at readL ⊢
      exact multiary_reads (by simpa using indexed) readL
termination_by toks => 5 * toks.length + 2

theorem inputList_frame : ∀ {index : Node} {toks X : List Token} {n : Node},
    Reads (inputList index toks) n X → Frame (inputList index) closed toks n X
  | index, toks, X, n, h => by
    rcases inputList_parts h with ⟨lp, t, rfl, isOpen, isClose, rfl⟩ |
      ⟨lp, t, more, first, r3, specs, rp, rfl, isOpen, notClose, readFirst, readMore, isClose, rfl⟩
    · -- `( )`
      refine ⟨[lp, t], rfl, by simp [ne_unscannable_of_isPunct isOpen, ne_unscannable_of_isPunct isClose],
        fun P' K agree _ => ?_⟩
      obtain ⟨s1, rest, rfl, agreeRest⟩ := agree.cons_left
      obtain ⟨s2, rest', rfl, agreeNil⟩ := agreeRest.cons_left
      rw [Agree.nil_left agreeNil]
      refine ⟨by simp only [List.length_cons, List.cons_append, List.nil_append]; omega, ?_⟩
      simp [inputList, expectPunct_cons (show (lp.at s1).isPunct .lparen = true from isOpen), isClose]
    · have shorter := readFirst.bound
      obtain ⟨Ps, eq, Ps_scanned, specAgain⟩ := spec_frame readFirst
      obtain ⟨Ps0, rfl, rfl⟩ := eq_cons_of_append eq shorter
      obtain ⟨Pm, rfl, Pm_scanned, moreAgain⟩ := moreSpecs_frame readMore
      refine ⟨lp :: t :: (Ps0 ++ Pm ++ [rp]), by simp, by simp [ne_unscannable_of_isPunct isOpen,
        scanned_cons.mp Ps_scanned, Pm_scanned, ne_unscannable_of_isPunct isClose], fun P' K agree _ => ?_⟩
      obtain ⟨s1, rest, rfl, agreeRest⟩ := agree.cons_left
      obtain ⟨s2, rest', rfl, agreeRest'⟩ := agreeRest.cons_left
      obtain ⟨PsM', R', rfl, agreeSM, agreeR⟩ := agreeRest'.append_left
      obtain ⟨s3, rest'', rfl, agreeNil⟩ := agreeR.cons_left
      rw [Agree.nil_left agreeNil]
      obtain ⟨Ps0', Pm', rfl, agreeS, agreeM⟩ := agreeSM.append_left
      obtain ⟨_, readFirst⟩ := specAgain (t.at s2 :: Ps0') (Pm' ++ rp.at s3 :: K)
        (agreeS.cons s2) (.append agreeM fun _ => .cons _ _)
      obtain ⟨_, readRest⟩ := moreAgain Pm' (rp.at s3 :: K) agreeM (.cons _ _)
      have shape : (lp.at s1 :: t.at s2 :: (Ps0' ++ Pm' ++ [rp.at s3])) ++ K =
          lp.at s1 :: t.at s2 :: (Ps0' ++ (Pm' ++ rp.at s3 :: K)) := by simp
      rw [shape]
      refine ⟨by simp only [List.length_cons, List.length_append]; omega, ?_⟩
      simp only [List.cons_append] at readFirst
      simp only [inputList, expectPunct_cons (show (lp.at s1).isPunct .lparen = true from isOpen),
        Token.isPunct_at, notClose, Bool.false_eq_true, ↓reduceIte, readFirst, readRest,
        expectPunct_cons (show (rp.at s3).isPunct .rparen = true from isClose)]
termination_by _ toks => 5 * toks.length + 1

theorem moreSpecs_frame : ∀ {toks X : List Token} {acc ss : Array Node},
    Reads (moreSpecs toks acc) ss X → Frame (fun ts => moreSpecs ts acc) extendsSpecs toks ss X
  | toks, X, acc, ss, h => by
    obtain ⟨rfl, rfl, stop⟩ | ⟨t, more, first, r1, rfl, comma, readFirst, readMore⟩ := moreSpecs_parts h
    · refine .empty fun K follows => ?_
      exact moreSpecs_stop (follows.not_punct (fun _ => by simp [extendsSpecs]) stop) _
    · have shorter := readFirst.bound
      obtain ⟨Ps, rfl, Ps_scanned, specAgain⟩ := spec_frame readFirst
      obtain ⟨Pm, rfl, Pm_scanned, moreAgain⟩ := moreSpecs_frame readMore
      refine ⟨t :: (Ps ++ Pm), by simp, by simp [ne_unscannable_of_isPunct comma, Ps_scanned, Pm_scanned], fun P' K agree follows => ?_⟩
      obtain ⟨s, rest, rfl, agreeRest⟩ := agree.cons_left
      obtain ⟨Ps', Pm', rfl, agreeS, agreeM⟩ := agreeRest.append_left
      -- with no more specs, what follows the last one follows the list
      obtain ⟨_, firstK⟩ := specAgain Ps' (Pm' ++ K) agreeS
        (.append agreeM fun _ => follows.mono extendsSpec_le_specs)
      obtain ⟨_, moreK⟩ := moreAgain Pm' K agreeM follows
      rw [List.cons_append, List.append_assoc]
      refine ⟨by simp; omega, ?_⟩
      simp only [moreSpecs, Token.isPunct_at, comma, ↓reduceIte, firstK, moreK]
termination_by toks => 5 * toks.length + 3
decreasing_by all_goals subst_vars; simp only [List.length_cons]; omega

theorem spec_frame : ∀ {toks X : List Token} {n : Node}, Reads (spec toks) n X →
    Frame spec extendsSpec toks n X
  | toks, X, n, h => by
    rcases spec_parts h with ⟨t, c, more, out, rfl, word, notResolved, isColon, readOut, rfl⟩ |
      ⟨out, notNamed, readOut, rfl⟩
    · -- an input id and `:` before the output
      obtain ⟨Po, rfl, Po_scanned, outAgain⟩ := outputRef_frame readOut
      have named : (t.kind == .word && !t.isWord "resolved" && c.isPunct .colon) = true := by
        simp [word, notResolved, isColon]
      refine ⟨t :: c :: Po, by simp, by simp [word, ne_unscannable_of_isPunct isColon, Po_scanned],
        fun P' K agree follows => ?_⟩
      obtain ⟨s0, rest, rfl, agreeRest⟩ := agree.cons_left
      obtain ⟨s1, Po', rfl, agreeO⟩ := agreeRest.cons_left
      obtain ⟨lenO, readO⟩ := outAgain Po' K agreeO (follows.mono extendsOutput_le_spec)
      simp only [List.cons_append]
      refine ⟨by simp only [List.length_cons] at *; omega, ?_⟩
      simp only [spec, Token.kind_at, Token.isWord_at, Token.isPunct_at, named, ↓reduceIte, readO,
        identNode_at]
    · -- the output alone: it took the first token, and no `:` comes second
      obtain ⟨Po, split, Po_scanned, outAgain⟩ := outputRef_frame readOut
      obtain ⟨shorter, -⟩ := readOut
      cases toks with
      | nil => exact absurd shorter (Nat.not_lt_zero _)
      | cons t r =>
        obtain ⟨Po1, rfl, rfl⟩ := eq_cons_of_append split shorter
        cases Po1 with
        | nil =>
          -- the output is the first token alone: what follows it keeps the second from being `:`
          refine ⟨[t], rfl, Po_scanned, fun P' K agree follows => ?_⟩
          obtain ⟨s0, rest, rfl, agreeNil⟩ := agree.cons_left
          rw [Agree.nil_left agreeNil]
          have readO := outAgain [t.at s0] K (Agree.cons s0 (.refl [])) (follows.mono extendsOutput_le_spec)
          rw [List.singleton_append] at readO ⊢
          refine spec_positional (spec_stays_positional s0 follows fun x mem => ?_) readO
          cases X with
          | nil => cases mem
          | cons x' X' =>
            simp only [List.head?_cons, Option.mem_def, Option.some.injEq] at mem
            subst mem
            exact notNamed t x' X' rfl
        | cons c Po0 =>
          refine ⟨t :: c :: Po0, by simp, Po_scanned, fun P' K agree follows => ?_⟩
          obtain ⟨s0, rest, rfl, agreeRest⟩ := agree.cons_left
          obtain ⟨s1, Po0', rfl, agreeO⟩ := agreeRest.cons_left
          have readO := outAgain (t.at s0 :: c.at s1 :: Po0') K ((agreeO.cons s1).cons s0)
            (follows.mono extendsOutput_le_spec)
          simp only [List.cons_append] at readO ⊢
          refine spec_positional (fun t' c' r eq word notResolved => ?_) readO
          simp only [List.cons.injEq] at eq
          obtain ⟨rfl, rfl, -⟩ := eq
          simp only [Token.kind_at, Token.isWord_at, Token.isPunct_at] at word notResolved ⊢
          exact notNamed t c _ rfl word notResolved
termination_by toks => 5 * toks.length + 2

theorem outputRef_frame : ∀ {toks X : List Token} {n : Node}, Reads (outputRef toks) n X →
    Frame outputRef extendsOutput toks n X
  | toks, X, n, h => by
    rcases outputRef_parts h with ⟨sub, d, r, id, readSub, dot, readId, rfl⟩ | ⟨sub, readSub, stop, rfl⟩
    · -- `.` and the id of an output
      obtain ⟨Ps, rfl, Ps_scanned, subAgain⟩ := substitution_frame readSub
      obtain ⟨Pi, rfl, Pi_scanned, idAgain⟩ := ident_frame readId
      refine ⟨Ps ++ d :: Pi, by simp, by simp [Ps_scanned, ne_unscannable_of_isPunct dot, Pi_scanned],
        fun P' K agree _ => ?_⟩
      obtain ⟨Ps', R', rfl, agreeS, agreeR⟩ := agree.append_left
      obtain ⟨s, Pi', rfl, agreeI⟩ := agreeR.cons_left
      obtain ⟨_, readS⟩ := subAgain Ps' (d.at s :: (Pi' ++ K)) agreeS (.cons _ _)
      obtain ⟨_, readI⟩ := idAgain Pi' K agreeI (.of_closed _ _)
      rw [List.append_assoc, List.cons_append]
      refine ⟨by simp only [List.length_append, List.length_cons] at *; omega, ?_⟩
      simp only [outputRef, readS, Token.isPunct_at, dot, ↓reduceIte, readI]
    · obtain ⟨Ps, rfl, Ps_scanned, subAgain⟩ := substitution_frame readSub
      refine ⟨Ps, rfl, Ps_scanned, fun P' K agree follows => ?_⟩
      refine outputRef_plain (subAgain P' K agree (follows.mono extendsSubstitution_le_output)) ?_
      exact follows.not_punct (fun _ => by simp [extendsOutput]) stop
termination_by toks => 5 * toks.length + 1

end

theorem readName_agree {xs ys : List Token} {node : Node} (agree : Agree xs ys)
    (read : readName xs = .ok node) : readName ys = .ok node := by
  unfold readName at read
  split at read
  · cases read
  · rename_i _ whole ended reads
    cases read
    obtain ⟨P, split, -, again⟩ := name_frame ⟨ended, reads⟩
    rw [List.append_nil] at split
    subst split
    obtain ⟨_, readAgain⟩ :=
      (again ys [] agree (fun _ mem => by simp at mem)).of_toks_eq name (List.append_nil ys)
    simp [readName, readAgain]
  · cases read

end ArtifactNames
