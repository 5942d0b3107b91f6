import Mathlib.Data.List.TakeWhile
import ArtifactNames.Proofs.Syntax.Frame

/-! Where reading stops, and why it is the place to report (`Stall`): reading fails again wherever
the same token follows the same prefix, and some tokens after the prefix complete it. -/

namespace ArtifactNames

open Syntax Text

def Syntax.Token.indexDigits (t : Token) : Nat := (t.text.takeWhile isAsciiDigit).length

theorem Syntax.Token.take_indexDigits (t : Token) :
    t.text.take t.indexDigits = t.text.takeWhile isAsciiDigit := by
  conv => lhs; rw [← List.takeWhile_append_dropWhile (p := isAsciiDigit) (l := t.text)]
  exact List.take_left' rfl

theorem Syntax.Token.indexDigits_le (t : Token) : t.indexDigits ≤ t.text.length :=
  (List.takeWhile_prefix isAsciiDigit).length_le

/-- A token that a completion writes: the word `x`, the number `0` or a punctuation mark other
than `:`, each spelled as the scanner reads it back. A completion never needs a `:`, and without
one a word it writes is never taken for the input id of a spec. -/
def Syntax.Token.fills (c : Token) : Bool :=
  match c.kind with
  | .word => c.text == [0x78]
  | .number => c.text == [0x30]
  | .punct p => c.text == p.spelling && p != .colon
  | _ => false

namespace Filler

def word : Token := ⟨.word, 0, [0x78]⟩

def zero : Token := ⟨.number, 0, [0x30]⟩

def mark (p : Punct) : Token := ⟨.punct p, 0, p.spelling⟩

@[simp] theorem kind_mark (p : Punct) : (mark p).kind = .punct p := rfl

@[simp] theorem isPunct_mark (p : Punct) : (mark p).isPunct p = true := by
  simp [mark, Token.isPunct]

end Filler

/-- Where reading stopped in the tokens `X` it did not take: at their end, at their first token,
or inside it after the ASCII digits of a number that stands where an index must. `Y` is what the
text up to the stop spells past the tokens taken, and `refuse` holds of each token that reading
refuses there. -/
inductive Stop : Rejection → List Token → List Token → (Token → Prop) → Prop
  | atEnd : Stop .atEnd [] [] fun _ => False
  | token (t : Token) (R : List Token) : Stop (.at t.start) (t :: R) [] fun k => k.lexeme = t.lexeme
  | index (t : Token) (R : List Token) (number : t.kind = .number) (digits : 0 < t.indexDigits)
      (short : t.indexDigits < t.text.length) :
      Stop (.at (t.start + t.indexDigits)) (t :: R) [⟨.number, t.start, t.text.take t.indexDigits⟩]
        fun k => k.isPunct .lparen = false

section Readers

variable {α : Type} {R : List Token → List Token → Prop}

def Refuses (run : (toks : List Token) → Except Rejection (α × {rest : List Token // R toks rest}))
    (Q : List Token) (refuse : Token → Prop) : Prop :=
  ∀ k K, refuse k → ∃ e, run (Q ++ k :: K) = .error e

/-- Some tokens of a completion, written after `Q`, make a part that the reader takes whole,
leaving any tokens that `ext` does not take further. -/
def Completes (run : (toks : List Token) → Except Rejection (α × {rest : List Token // R toks rest}))
    (ext : TokenKind × List Nat → Bool) (Q : List Token) : Prop :=
  ∃ C, C.all Token.fills = true ∧ ∀ K, Follows ext [] K → ∃ a, Reads (run (Q ++ C ++ K)) a K

/-- Reading `toks` failed with `r`: it took a prefix `P`, none of it unscannable, and stopped in the
rest `X` as `Stop` says; there it refuses what it stopped at, and what it took can be completed. -/
def Stall (run : (toks : List Token) → Except Rejection (α × {rest : List Token // R toks rest}))
    (ext : TokenKind × List Nat → Bool) (toks : List Token) (r : Rejection) : Prop :=
  ∃ P X Y refuse, toks = P ++ X ∧ Scanned P ∧ Stop r X Y refuse ∧ (P = [] → Y = []) ∧
    Refuses run (P ++ Y) refuse ∧ Completes run ext (P ++ Y)

variable {run : (toks : List Token) → Except Rejection (α × {rest : List Token // R toks rest})}
  {ext : TokenKind × List Nat → Bool}

theorem Syntax.Token.eq_at_of_lexeme {k t : Token} (h : k.lexeme = t.lexeme) : k = t.at k.start := by
  obtain ⟨kind, start, text⟩ := k
  simp only [Token.lexeme, Prod.mk.injEq] at h
  obtain ⟨rfl, rfl⟩ := h
  rfl

theorem Stall.at_rest {P X : List Token} {r : Rejection}
    (stop : X = [] ∧ r = .atEnd ∨
      ∃ t T, X = t :: T ∧ r = .at t.start ∧ ∀ s K, ∃ e, run (P ++ t.at s :: K) = .error e)
    (scanned : Scanned P) (complete : Completes run ext P) : Stall run ext (P ++ X) r := by
  have complete' : Completes run ext (P ++ []) := by rwa [List.append_nil]
  rcases stop with ⟨rfl, rfl⟩ | ⟨t, T, rfl, rfl, refused⟩
  · exact ⟨P, [], [], _, rfl, scanned, .atEnd, fun _ => rfl, fun _ _ none => none.elim, complete'⟩
  · refine ⟨P, t :: T, [], _, rfl, scanned, .token t T, fun _ => rfl, fun k K same => ?_, complete'⟩
    rw [List.append_nil, Token.eq_at_of_lexeme same]
    exact refused k.start K

theorem Completes.of_reads {Q C : List Token} (fills : C.all Token.fills = true)
    (reads : ∀ K, Follows ext [] K → ∃ a, Reads (run (Q ++ C ++ K)) a K) : Completes run ext Q :=
  ⟨C, fills, reads⟩

variable {β : Type} {R' : List Token → List Token → Prop}
  {cont : (toks : List Token) → Except Rejection (β × {rest : List Token // R' toks rest})}
  {extC : TokenKind × List Nat → Bool}

theorem Stall.lift {Q D toks : List Token} {r : Rejection} (h : Stall cont extC toks r)
    (scannedQ : Scanned Q) (fillsD : D.all Token.fills = true)
    (ends : ∀ K, Follows ext [] K → Follows extC [] (D ++ K))
    (errs : ∀ T e, cont T = .error e → ∃ e', run (Q ++ T) = .error e')
    (oks : ∀ T a K, Follows ext [] K → Reads (cont T) a (D ++ K) → ∃ b, Reads (run (Q ++ T)) b K) :
    Stall run ext (Q ++ toks) r := by
  obtain ⟨P, X, Y, refuse, rfl, scanned, stop, inside, refuses, C, fills, completes⟩ := h
  refine ⟨Q ++ P, X, Y, refuse, by rw [List.append_assoc], by simp [scannedQ, scanned], stop,
    fun taken => inside (List.append_eq_nil_iff.mp taken).2, fun k K refused => ?_, C ++ D,
    by simp [fills, fillsD], fun K after => ?_⟩
  · obtain ⟨e, fails⟩ := refuses k K refused
    rw [show Q ++ P ++ Y ++ k :: K = Q ++ (P ++ Y ++ k :: K) by simp]
    exact errs _ e fails
  · obtain ⟨a, reads⟩ := completes (D ++ K) (ends K after)
    rw [show Q ++ P ++ Y ++ (C ++ D) ++ K = Q ++ (P ++ Y ++ C ++ (D ++ K)) by simp]
    exact oks _ a K after reads

theorem Stall.lift_follows (extQ : TokenKind × List Nat → Bool) {Q D toks : List Token}
    {r : Rejection} (h : Stall cont extC toks r) (scannedQ : Scanned Q)
    (fillsD : D.all Token.fills = true) (ends : ∀ K, Follows ext [] K → Follows extC [] (D ++ K))
    (errs : ∀ T, T ≠ [] → Follows extQ toks T → ∀ e, cont T = .error e →
      ∃ e', run (Q ++ T) = .error e')
    (oks : ∀ T, T ≠ [] → Follows extQ toks T → ∀ a K, Follows ext [] K → Reads (cont T) a (D ++ K) →
      ∃ b, Reads (run (Q ++ T)) b K)
    (fresh : Completes run ext Q) : Stall run ext (Q ++ toks) r := by
  obtain ⟨P, X, Y, refuse, rfl, scanned, stop, inside, refuses, C, fills, completes⟩ := h
  by_cases taken : P = []
  · subst taken
    obtain rfl := inside rfl
    refine ⟨Q, X, [], refuse, by simp, scannedQ, stop, fun _ => rfl, fun k K refused => ?_,
      by simpa using fresh⟩
    obtain ⟨e, fails⟩ := refuses k K refused
    -- what `cont` refuses at its start is a token of the kind and text it stopped at
    have follows : Follows extQ X (k :: K) := by
      cases stop with
      | atEnd => exact refused.elim
      | token t T =>
        rw [Token.eq_at_of_lexeme refused]
        exact .cons _ _
    rw [show Q ++ [] ++ k :: K = Q ++ ([] ++ [] ++ k :: K) by simp]
    exact errs _ (by simp) follows e fails
  · have follows : ∀ T, Follows extQ (P ++ X) (P ++ T) := fun T =>
      .append (.refl P) fun empty => absurd empty taken
    refine ⟨Q ++ P, X, Y, refuse, by rw [List.append_assoc], by simp [scannedQ, scanned], stop,
      fun empty => absurd (List.append_eq_nil_iff.mp empty).2 taken, fun k K refused => ?_, C ++ D,
      by simp [fills, fillsD], fun K after => ?_⟩
    · obtain ⟨e, fails⟩ := refuses k K refused
      rw [show Q ++ P ++ Y ++ k :: K = Q ++ (P ++ Y ++ k :: K) by simp]
      exact errs _ (by simp [taken]) (by rw [List.append_assoc]; exact follows _) e fails
    · obtain ⟨a, reads⟩ := completes (D ++ K) (ends K after)
      rw [show Q ++ P ++ Y ++ (C ++ D) ++ K = Q ++ (P ++ Y ++ C ++ (D ++ K)) by simp]
      exact oks _ (by simp [taken]) (by rw [List.append_assoc, List.append_assoc]; exact follows _) a K
        after reads

end Readers

namespace Follows

variable {ext : TokenKind × List Nat → Bool}

theorem of_head {X : List Token} {d : Token} (h : ext d.lexeme = false) (K : List Token) :
    Follows ext X (d :: K) := by
  intro k mem
  simp only [List.head?_cons, Option.mem_def, Option.some.injEq] at mem
  subst mem
  exact .inr h

theorem nil_refuses {K : List Token} (h : Follows ext [] K) : ∀ k ∈ K.head?, ext k.lexeme = false :=
  h.refuses (by simp)

theorem weaken {e1 : TokenKind × List Nat → Bool} (le : ∀ l, e1 l = true → ext l = true)
    (K : List Token) (h : Follows ext [] K) : Follows e1 [] ([] ++ K) :=
  h.mono le

end Follows

theorem expectPunct_error {p : Punct} {toks : List Token} {r : Rejection}
    (h : expectPunct p toks = .error r) :
    toks = [] ∧ r = .atEnd ∨ ∃ t T, toks = t :: T ∧ t.isPunct p = false ∧ r = .at t.start := by
  unfold expectPunct at h
  split at h
  · split at h
    · cases h
    · rename_i t T notMark
      cases h
      exact .inr ⟨t, T, rfl, by simpa using notMark, rfl⟩
  · cases h
    exact .inl ⟨rfl, rfl⟩

theorem expectPunct_at {p : Punct} {t : Token} (h : t.isPunct p = false) (s : Nat) (K : List Token) :
    expectPunct p (t.at s :: K) = .error (.at s) := by
  have other : ¬t.kind = .punct p := by simpa [Token.isPunct] using h
  simp [expectPunct, Token.isPunct, Token.at, other]

theorem bind_eq_error {ε α β : Type} {x : Except ε α} {f : α → Except ε β} {e : ε}
    (h : x >>= f = .error e) : x = .error e ∨ ∃ a, x = .ok a ∧ f a = .error e := by
  cases x with
  | error e' =>
    simp only [bind, Except.bind, Except.error.injEq] at h
    exact .inl (by rw [h])
  | ok a => exact .inr ⟨a, rfl, h⟩

/-! ## Parameters -/

theorem ident_error {toks : List Token} {r : Rejection} (h : ident toks = .error r) :
    toks = [] ∧ r = .atEnd ∨
      ∃ t T, toks = t :: T ∧ r = .at t.start ∧ ∀ s K, ∃ e, ident (t.at s :: K) = .error e := by
  cases toks with
  | nil =>
    simp only [ident, Except.error.injEq] at h
    exact .inl ⟨rfl, h.symm⟩
  | cons t T =>
    have notWord : (t.kind == .word) = false := by
      cases word : t.kind == .word
      · rfl
      · simp [ident, word] at h
    simp only [ident, notWord, Bool.false_eq_true, ↓reduceIte, Except.error.injEq] at h
    exact .inr ⟨t, T, rfl, h.symm, fun s K => ⟨.at s, by simp [ident, notWord, Token.at]⟩⟩

theorem ident_fill (K : List Token) : Reads (ident (Filler.word :: K)) (identNode Filler.word) K :=
  ⟨Nat.lt_succ_self _, rfl⟩

theorem paramValue_error {toks : List Token} {r : Rejection} (h : paramValue toks = .error r) :
    toks = [] ∧ r = .atEnd ∨
      ∃ t T, toks = t :: T ∧ r = .at t.start ∧ ∀ s K, ∃ e, paramValue (t.at s :: K) = .error e := by
  cases toks with
  | nil =>
    simp only [paramValue, Except.error.injEq] at h
    exact .inl ⟨rfl, h.symm⟩
  | cons t T =>
    obtain ⟨kind, start, text⟩ := t
    refine .inr ⟨_, T, rfl, ?_, fun s K => ⟨.at s, ?_⟩⟩ <;>
      cases kind <;> simp_all [paramValue, Token.at]

theorem param_fill (K : List Token) :
    ∃ a, Reads (param ([Filler.word, Filler.mark .assign, Filler.word] ++ K)) a K :=
  ⟨_, by simp; omega, rfl⟩

theorem param_stall {toks : List Token} {r : Rejection} (h : param toks = .error r) :
    Stall param closed toks r := by
  unfold param at h
  rcases bind_eq_error h with keyFails | ⟨⟨key, r1, h1⟩, keyed, h⟩
  · -- no word to name the parameter
    refine Stall.at_rest (P := []) ?_ scanned_nil (.of_reads rfl fun K _ => param_fill K)
    rcases ident_error keyFails with ⟨rfl, rfl⟩ | ⟨t, T, rfl, rfl, refused⟩
    · exact .inl ⟨rfl, rfl⟩
    · refine .inr ⟨t, T, rfl, rfl, fun s K => ?_⟩
      obtain ⟨e, fails⟩ := refused s K
      exact ⟨e, by simp [param, fails, bind, Except.bind]⟩
  obtain ⟨w, rfl, word, rfl⟩ := ident_sound ⟨h1, keyed⟩
  dsimp only at h
  rcases bind_eq_error h with assignFails | ⟨⟨r2, h2⟩, assign, h⟩
  · -- the word is not followed by `=`
    have reread : ∀ K, ident (w :: K) = .ok (identNode w, ⟨K, Nat.lt_succ_self _⟩) := fun K => by
      simp [ident, word]
    refine Stall.at_rest (P := [w]) ?_ (by simp [word]) (.of_reads (C := [Filler.mark .assign, Filler.word]) rfl
      fun K _ => ⟨_, by simp; omega, by simp [param, reread, bind, Except.bind]; rfl⟩)
    rcases expectPunct_error assignFails with ⟨rfl, rfl⟩ | ⟨t, T, rfl, notAssign, rfl⟩
    · exact .inl ⟨rfl, rfl⟩
    · exact .inr ⟨t, T, rfl, rfl, fun s K => ⟨.at s, by
        simp [param, reread, bind, Except.bind, expectPunct_at notAssign]⟩⟩
  obtain ⟨e, rfl, isAssign⟩ := expectPunct_taken assign
  dsimp only at h
  rcases bind_eq_error h with valueFails | ⟨_, _, h⟩
  · -- no value after `=`
    have reread : ∀ K, ident (w :: e :: K) = .ok (identNode w, ⟨e :: K, Nat.lt_succ_self _⟩) :=
      fun K => by simp [ident, word]
    have assigned : ∀ K, expectPunct .assign (e :: K) = .ok ⟨K, Nat.lt_succ_self _⟩ :=
      expectPunct_cons isAssign
    refine Stall.at_rest (P := [w, e]) ?_ (by simp [word, ne_unscannable_of_isPunct isAssign])
      (.of_reads (C := [Filler.word]) rfl
        fun K _ => ⟨_, by simp; omega, by simp [param, reread, assigned, bind, Except.bind]; rfl⟩)
    rcases paramValue_error valueFails with ⟨rfl, rfl⟩ | ⟨t, T, rfl, rfl, refused⟩
    · exact .inl ⟨rfl, rfl⟩
    · refine .inr ⟨t, T, rfl, rfl, fun s K => ?_⟩
      obtain ⟨err, fails⟩ := refused s K
      exact ⟨err, by simp [param, reread, assigned, fails, bind, Except.bind]⟩
  · cases h

theorem moreParams_stall : ∀ {toks : List Token} {acc : Array Node} {r : Rejection},
    moreParams toks acc = .error r → Stall (fun ts => moreParams ts acc) extendsByComma toks r
  | [], acc, r, h => by simp [moreParams] at h
  | t :: more, acc, r, h => by
    by_cases comma : t.isPunct .comma
    · simp only [moreParams, comma, ↓reduceIte] at h
      cases first : param more with
      | error e =>
        -- the parameter after the comma fails
        rw [first] at h
        cases h
        refine Stall.lift (Q := [t]) (D := []) (param_stall first)
          (by simp [ne_unscannable_of_isPunct comma]) rfl (fun K _ => .of_closed _ _)
          (fun T e fails => ⟨e, by simp [moreParams, comma, fails]⟩) fun T a K after reads => ?_
        obtain ⟨shorter, read⟩ := reads
        have shorter : K.length < T.length := by simpa using shorter
        obtain ⟨_, stop⟩ := moreParams_stop (acc.push a) after.nil_refuses
        refine ⟨acc.push a, by simp; omega, ?_⟩
        simp [moreParams, comma, read, stop]
      | ok res =>
        -- a later parameter fails
        obtain ⟨p, r1, h1⟩ := res
        rw [first] at h
        dsimp only at h
        cases later : moreParams r1 (acc.push p) with
        | error e =>
          rw [later] at h
          cases h
          obtain ⟨Pp, rfl, scanned, again⟩ := param_frame ⟨h1, first⟩
          have reread : ∀ T, Reads (param (Pp ++ T)) p T := fun T =>
            again Pp T (.refl _) (.of_closed _ _)
          refine Stall.lift (Q := t :: Pp) (D := []) (moreParams_stall later)
            (by simp [ne_unscannable_of_isPunct comma, scanned]) rfl (fun K after => after)
            (fun T e fails => ?_) fun T a K after reads => ?_
          · obtain ⟨_, readT⟩ := reread T
            exact ⟨e, by simp [moreParams, comma, readT, fails]⟩
          · obtain ⟨_, readT⟩ := reread T
            obtain ⟨shorter, readMore⟩ := reads
            have shorter : K.length ≤ T.length := by simpa using shorter
            refine ⟨a, by simp; omega, ?_⟩
            simp [moreParams, comma, readT, readMore]
        | ok res' =>
          rw [later] at h
          cases h
    · simp [moreParams, comma] at h
termination_by toks => toks.length
decreasing_by
  simp only [List.length_cons]
  omega

theorem params_fill (K : List Token) :
    Reads (params ([Filler.mark .lbracket, Filler.mark .rbracket] ++ K)) (.tree "params" [.absent]) K :=
  ⟨by simp only [List.cons_append, List.nil_append, List.length_cons]; omega, rfl⟩

theorem params_stall {toks : List Token} {r : Rejection} (h : params toks = .error r) :
    Stall params closed toks r := by
  unfold params at h
  split at h
  · -- no `[`
    rename_i e opened
    cases h
    refine Stall.at_rest (P := []) ?_ scanned_nil (.of_reads rfl fun K _ => ⟨_, params_fill K⟩)
    rcases expectPunct_error opened with ⟨rfl, rfl⟩ | ⟨t, T, rfl, notOpen, rfl⟩
    · exact .inl ⟨rfl, rfl⟩
    · exact .inr ⟨t, T, rfl, rfl, fun s K => ⟨.at s, by simp [params, expectPunct_at notOpen]⟩⟩
  rename_i _ r1 h1 opened
  obtain ⟨lb, rfl, isOpen⟩ := expectPunct_taken opened
  have reopen : ∀ K, expectPunct .lbracket (lb :: K) = .ok ⟨K, Nat.lt_succ_self _⟩ :=
    expectPunct_cons isOpen
  have closing : ∀ K, expectPunct .rbracket (Filler.mark .rbracket :: K) = .ok ⟨K, Nat.lt_succ_self _⟩ :=
    expectPunct_cons rfl
  have opens : ∀ K, Reads (params ([lb] ++ [Filler.mark .rbracket] ++ K)) (.tree "params" [.absent]) K :=
    fun K => ⟨by simp only [List.cons_append, List.nil_append, List.length_cons]; omega,
      by simp [params, reopen]⟩
  have fresh : Completes params closed [lb] := .of_reads rfl fun K _ => ⟨_, opens K⟩
  have scannedOpen : Scanned [lb] := by simp [ne_unscannable_of_isPunct isOpen]
  cases r1 with
  | nil =>
    -- the tokens end after `[`
    cases h
    exact Stall.at_rest (P := [lb]) (.inl ⟨rfl, rfl⟩) scannedOpen fresh
  | cons t r2 =>
  simp only at h
  split at h
  · cases h
  rename_i notClose
  split at h
  · -- the first parameter fails
    rename_i e first
    cases h
    have notClose' : ∀ k K, Follows (fun l => l.1 == .punct .rbracket) (t :: r2) (k :: K) →
        k.isPunct .rbracket = false := fun k K follows =>
      follows.not_punct (fun _ => by simp) (fun x mem => by simp_all) k rfl
    have errs : ∀ T, T ≠ [] → Follows (fun l => l.1 == .punct .rbracket) (t :: r2) T →
        ∀ e, param T = .error e → ∃ e', params ([lb] ++ T) = .error e' := by
      rintro (_ | ⟨k, K⟩) taken follows e fails
      · exact absurd rfl taken
      · refine ⟨e, ?_⟩
        simp only [params, List.cons_append, List.nil_append, reopen]
        simp only [notClose' k K follows, Bool.false_eq_true, ↓reduceIte, fails]
    refine Stall.lift_follows _ (Q := [lb]) (D := [Filler.mark .rbracket]) (param_stall first)
      scannedOpen rfl (fun K _ => .of_closed _ _) errs ?_ fresh
    rintro (_ | ⟨k, K⟩) taken follows a K' _ ⟨shorter, read⟩
    · exact absurd rfl taken
    · obtain ⟨_, stop⟩ := moreParams_stop #[a] (K := Filler.mark .rbracket :: K') fun _ mem => by
        simp at mem; subst mem; rfl
      refine ⟨.tree "params" [.tree "param_list" [a]], by simp at shorter ⊢; omega, ?_⟩
      simp only [params, List.cons_append, List.nil_append, reopen]
      simp only [notClose' k K follows, Bool.false_eq_true, ↓reduceIte, read, List.singleton_append,
        stop, closing]
  rename_i _ first r3 h3 read
  obtain ⟨Pp, eq, scannedP, again⟩ := param_frame ⟨h3, read⟩
  obtain ⟨Pp0, rfl, rfl⟩ := eq_cons_of_append eq h3
  clear eq
  have reread : ∀ T, Reads (param (t :: Pp0 ++ T)) first T := fun T =>
    again (t :: Pp0) T (.refl _) (.of_closed _ _)
  have scannedTaken : Scanned (lb :: t :: Pp0) := scanned_cons.mpr ⟨ne_unscannable_of_isPunct isOpen, scannedP⟩
  split at h
  · -- a later parameter fails
    rename_i e more
    cases h
    refine Stall.lift (Q := lb :: t :: Pp0) (D := [Filler.mark .rbracket]) (moreParams_stall more)
      scannedTaken rfl (fun K _ => .of_head rfl K) (fun T e fails => ?_) fun T a K _ reads => ?_
    · obtain ⟨_, readT⟩ := reread T
      simp only [List.cons_append] at readT
      refine ⟨e, ?_⟩
      simp only [params, List.cons_append, reopen, notClose, Bool.false_eq_true, ↓reduceIte, readT,
        fails]
    · obtain ⟨_, readT⟩ := reread T
      obtain ⟨shorter, readMore⟩ := reads
      refine ⟨.tree "params" [.tree "param_list" a.toList], by simp at shorter ⊢; omega, ?_⟩
      simp only [List.cons_append] at readT
      simp only [params, List.cons_append, reopen, notClose, Bool.false_eq_true, ↓reduceIte, readT,
        readMore, closing]
      simp
  rename_i _ ps r4 h4 readMore
  obtain ⟨Pm, rfl, scannedM, moreAgain⟩ := moreParams_frame ⟨h4, readMore⟩
  -- after the parameters, only the token that stands where `r4` starts decides
  have refused : ∀ K, Follows extendsByComma r4 K → ∀ e, expectPunct .rbracket K = .error e →
      params (lb :: t :: Pp0 ++ Pm ++ K) = .error e := by
    intro K follows e fails
    obtain ⟨_, readT⟩ := reread (Pm ++ K)
    obtain ⟨_, readM⟩ := moreAgain Pm K (.refl _) follows
    simp only [List.cons_append] at readT
    rw [show lb :: t :: Pp0 ++ Pm ++ K = lb :: t :: (Pp0 ++ (Pm ++ K)) by simp]
    simp only [params, reopen, notClose, Bool.false_eq_true, ↓reduceIte, readT, readM, fails]
  have closes : ∀ K, Follows closed [] K → Reads (params (lb :: t :: Pp0 ++ Pm ++
      [Filler.mark .rbracket] ++ K)) (.tree "params" [.tree "param_list" ps.toList]) K := by
    intro K _
    obtain ⟨_, readT⟩ := reread (Pm ++ Filler.mark .rbracket :: K)
    obtain ⟨_, readM⟩ := moreAgain Pm (Filler.mark .rbracket :: K) (.refl _) (.of_head rfl K)
    simp only [List.cons_append] at readT
    rw [show lb :: t :: Pp0 ++ Pm ++ [Filler.mark .rbracket] ++ K =
      lb :: t :: (Pp0 ++ (Pm ++ Filler.mark .rbracket :: K)) by simp]
    refine ⟨by simp; omega, ?_⟩
    simp only [params, reopen, notClose, Bool.false_eq_true, ↓reduceIte, readT, readM, closing]
  split at h
  · -- no `]` after the parameters
    rename_i e unclosed
    cases h
    rw [show lb :: t :: (Pp0 ++ (Pm ++ r4)) = lb :: t :: Pp0 ++ Pm ++ r4 by simp]
    refine Stall.at_rest ?_ (by simp_all) (.of_reads (C := [Filler.mark .rbracket]) rfl
      fun K after => ⟨_, closes K after⟩)
    rcases expectPunct_error unclosed with ⟨rfl, rfl⟩ | ⟨u, U, rfl, notClosing, rfl⟩
    · exact .inl ⟨rfl, rfl⟩
    · exact .inr ⟨u, U, rfl, rfl, fun s K => ⟨.at s, refused _ (.cons s K) _ (expectPunct_at notClosing s K)⟩⟩
  · cases h

theorem pid_fill {K : List Token} (after : Follows extendsByBracket [] K) :
    Reads (pid ([Filler.word] ++ K)) (.tree "parameterized_id" [identNode Filler.word, .absent]) K :=
  pid_absent (ident_fill K) after.nil_refuses

theorem pid_stall {toks : List Token} {r : Rejection} (h : pid toks = .error r) :
    Stall pid extendsByBracket toks r := by
  unfold pid at h
  split at h
  · -- no word
    rename_i e fails
    cases h
    refine Stall.at_rest (P := []) ?_ scanned_nil (.of_reads rfl fun K after => ⟨_, pid_fill after⟩)
    rcases ident_error fails with ⟨rfl, rfl⟩ | ⟨t, T, rfl, rfl, refused⟩
    · exact .inl ⟨rfl, rfl⟩
    · refine .inr ⟨t, T, rfl, rfl, fun s K => ?_⟩
      obtain ⟨e, fails⟩ := refused s K
      exact ⟨e, by simp [pid, fails]⟩
  rename_i _ id r1 h1 read
  obtain ⟨w, rfl, word, rfl⟩ := ident_sound ⟨h1, read⟩
  have reident : ∀ K, ident (w :: K) = .ok (identNode w, ⟨K, Nat.lt_succ_self _⟩) := fun K => by
    simp [ident, word]
  cases r1 with
  | nil => cases h
  | cons t r2 =>
  simp only at h
  split at h
  · -- the parameters fail
    rename_i bracket
    split at h
    · rename_i e fails
      cases h
      -- only a token spelled as the `[` that opened them goes on to the parameters
      have opens : ∀ T, T ≠ [] → Follows (fun _ => true) (t :: r2) T →
          ∃ k K, T = k :: K ∧ k.isPunct .lbracket = true := by
        rintro (_ | ⟨k, K⟩) taken follows
        · exact absurd rfl taken
        · obtain ⟨x, mem, same⟩ := (follows k rfl).resolve_right (by simp)
          simp only [List.head?_cons, Option.mem_def, Option.some.injEq] at mem
          subst mem
          exact ⟨k, K, rfl, by rw [Token.eq_at_of_lexeme same.symm]; simpa using bracket⟩
      have errs : ∀ T, T ≠ [] → Follows (fun _ => true) (t :: r2) T → ∀ e, params T = .error e →
          ∃ e', pid ([w] ++ T) = .error e' := by
        intro T taken follows e fails
        obtain ⟨k, K, rfl, opened⟩ := opens T taken follows
        exact ⟨e, by simp [pid, reident, opened, fails]⟩
      refine Stall.lift_follows _ (Q := [w]) (D := []) (params_stall fails) (by simp [word]) rfl
        (fun K _ => .of_closed _ _) errs ?_ (.of_reads (C := []) rfl fun K after =>
          ⟨_, pid_absent (P := [w]) ⟨Nat.lt_succ_self _, reident K⟩ after.nil_refuses⟩)
      intro T taken follows a K _ reads
      obtain ⟨k, K', rfl, opened⟩ := opens T taken follows
      obtain ⟨shorter, readParams⟩ := reads
      refine ⟨.tree "parameterized_id" [identNode w, a], by simp at shorter ⊢; omega, ?_⟩
      simp [pid, reident, opened, readParams]
    · cases h
  · cases h

theorem graphIndex_error {toks : List Token} {r : Rejection} (h : graphIndex toks = .error r) :
    toks = [] ∧ r = .atEnd ∨
      (∃ t T, toks = t :: T ∧ r = .at t.start ∧ ∀ s K, ∃ e, graphIndex (t.at s :: K) = .error e) ∨
      ∃ t T, toks = t :: T ∧ t.kind = .number ∧ 0 < t.indexDigits ∧
        t.indexDigits < t.text.length ∧ r = .at (t.start + t.indexDigits) := by
  cases toks with
  | nil =>
    simp only [graphIndex, Except.error.injEq] at h
    exact .inl ⟨rfl, h.symm⟩
  | cons t T =>
    refine .inr ?_
    simp only [graphIndex] at h
    split at h
    · rename_i number
      split at h
      · rename_i noDigits
        cases h
        exact .inl ⟨t, T, rfl, rfl, fun s K => ⟨.at s, by simp [graphIndex, number, noDigits, Token.at]⟩⟩
      · split at h
        · cases h
        · rename_i someDigits notAll
          cases h
          have short := t.indexDigits_le
          refine .inr ⟨t, T, rfl, by simpa using number, ?_, ?_, rfl⟩
          · simpa [Syntax.Token.indexDigits, Nat.pos_iff_ne_zero] using someDigits
          · simp only [beq_iff_eq] at notAll
            exact Nat.lt_of_le_of_ne short notAll
    · rename_i other
      cases h
      exact .inl ⟨t, T, rfl, rfl, fun s K => ⟨.at s, by simp [graphIndex, other, Token.at]⟩⟩

theorem graphIndex_digits {t : Token} (digits : 0 < t.indexDigits) (s : Nat) (K : List Token) :
    Reads (graphIndex (⟨.number, s, t.text.take t.indexDigits⟩ :: K))
      (.tree "graph_index" [.token "INT" (t.text.take t.indexDigits)]) K := by
  have all : (t.text.take t.indexDigits).takeWhile isAsciiDigit = t.text.take t.indexDigits := by
    rw [t.take_indexDigits, List.takeWhile_idem]
  have long : (t.text.take t.indexDigits).length = t.indexDigits :=
    List.length_take_of_le t.indexDigits_le
  refine ⟨Nat.lt_succ_self _, ?_⟩
  simp [graphIndex, all, long, Nat.pos_iff_ne_zero.mp digits]

theorem graphIndex_fill (K : List Token) :
    Reads (graphIndex (Filler.zero :: K)) (.tree "graph_index" [.token "INT" [0x30]]) K :=
  ⟨Nat.lt_succ_self _, rfl⟩

end ArtifactNames
