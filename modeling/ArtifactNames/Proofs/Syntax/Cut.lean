import ArtifactNames.Proofs.Syntax.Stall
import ArtifactNames.Proofs.Syntax.Gap

/-! Cutting a text where reading stops keeps the tokens before the cut (`tokensFrom_cut`), and a cut
inside a number after its ASCII digits keeps them as a number (`tokensFrom_indexDigits`). -/

namespace ArtifactNames

open Syntax Text

/-! ## Where a token stands -/

/-- The token that the scanner reads at offset `o` of `text`, by its kind and text; nothing where
no token starts with the code point there. -/
def lexemeAt (text : List Nat) (o : Nat) : Option (TokenKind × List Nat) :=
  match text.drop o with
  | [] => none
  | c :: rest => (lexeme c rest).map fun found => (found.1, c :: rest.take found.2)

theorem lexeme_ne_unscannable {c : Nat} {rest : List Nat} {kind : TokenKind} {n : Nat}
    (h : lexeme c rest = some (kind, n)) : kind ≠ .unscannable := by
  unfold lexeme at h
  repeat' split at h
  all_goals simp only [Option.some.injEq, Prod.mk.injEq, Option.map_eq_some_iff, reduceCtorEq] at h
  all_goals grind

theorem tokensFrom_drop_start (pos : Nat) (cs : List Nat) :
    ∀ t ∈ tokensFrom pos cs, ∃ c tail rest, t.text = c :: tail ∧
      cs.drop (t.start - pos) = c :: tail ++ rest ∧
      lexeme c (tail ++ rest) = if t.kind = .unscannable then none else some (t.kind, tail.length) := by
  induction pos, cs using tokensFrom_induction with
  | nil => simp
  | blank pos c rest isBlank ih =>
    intro t mem
    rw [tokensFrom_blank _ _ isBlank] at mem
    have bound := (tokensFrom_bounds _ _ t mem).1
    obtain ⟨c', tail, after, text, dropped, found⟩ := ih t mem
    refine ⟨c', tail, after, text, ?_, found⟩
    rw [show t.start - pos = t.start - (pos + 1) + 1 by omega, List.drop_succ_cons, dropped]
  | comment pos body rest plain ends ih =>
    intro t mem
    rw [tokensFrom_skipComment _ plain ends] at mem
    have bound := (tokensFrom_bounds _ _ t mem).1
    obtain ⟨c', tail, after, text, dropped, found⟩ := ih t mem
    refine ⟨c', tail, after, text, ?_, found⟩
    have skipped : t.start - pos = (0x23 :: body).length + (t.start - (pos + 1 + body.length)) := by
      simp only [List.length_cons]
      omega
    rw [skipped, List.drop_length_add_append, dropped]
  | token pos c text rest kind isBlank isHash found ih =>
    intro t mem
    rw [tokensFrom_token _ isBlank isHash found, List.mem_cons] at mem
    rcases mem with rfl | mem
    · refine ⟨c, text, rest, rfl, by simp, ?_⟩
      simp [found, lexeme_ne_unscannable found]
    · have bound := (tokensFrom_bounds _ _ t mem).1
      obtain ⟨c', tail, after, text', dropped, found'⟩ := ih t mem
      refine ⟨c', tail, after, text', ?_, found'⟩
      have skipped : t.start - pos = (c :: text).length + (t.start - (pos + 1 + text.length)) := by
        simp only [List.length_cons]
        omega
      rw [skipped, List.drop_length_add_append, dropped]
  | stuck pos c rest isBlank isHash missing =>
    intro t mem
    rw [tokensFrom_unscannable _ isBlank isHash missing, List.mem_singleton] at mem
    subst mem
    exact ⟨c, [], rest, rfl, by simp, by simpa using missing⟩

theorem lexemeAt_start {pos : Nat} {cs : List Nat} {t : Token} (mem : t ∈ tokensFrom pos cs) :
    lexemeAt cs (t.start - pos) = if t.kind = .unscannable then none else some t.lexeme := by
  obtain ⟨c, tail, rest, text, dropped, found⟩ := tokensFrom_drop_start pos cs t mem
  rw [lexemeAt, dropped]
  by_cases stuck : t.kind = .unscannable
  · simp only [stuck, ↓reduceIte] at found ⊢
    simp [found]
  · simp only [stuck, ↓reduceIte] at found ⊢
    simp [found, Token.lexeme, text]

theorem head?_take_append {rest more : List Nat} {j : Nat}
    (starts : ∀ x ∈ more.head?, x ∈ (rest.drop j).head?) :
    ∀ x ∈ (rest.take j ++ more).head?, x ∈ rest.head? := by
  cases j with
  | zero => simpa using starts
  | succ j =>
    cases rest with
    | nil => simpa using starts
    | cons y ys => simp

theorem tokensFrom_cut (pos : Nat) (cs : List Nat) :
    ∀ P t R, tokensFrom pos cs = P ++ t :: R → ∀ more : List Nat,
      (∀ x ∈ more.head?, x ∈ (cs.drop (t.start - pos)).head?) →
      tokensFrom pos (cs.take (t.start - pos) ++ more) = P ++ tokensFrom t.start more := by
  induction pos, cs using tokensFrom_induction with
  | nil => simp
  | blank pos c rest isBlank ih =>
    intro P t R split more starts
    rw [tokensFrom_blank _ _ isBlank] at split
    have bound := (tokensFrom_bounds (pos + 1) rest t (by simp [split])).1
    have skipped : t.start - pos = t.start - (pos + 1) + 1 := by omega
    rw [skipped, List.drop_succ_cons] at starts
    rw [skipped, List.take_succ_cons, List.cons_append, tokensFrom_blank _ _ isBlank]
    exact ih P t R split more starts
  | comment pos body rest plain ends ih =>
    intro P t R split more starts
    rw [tokensFrom_skipComment _ plain ends] at split
    have bound := (tokensFrom_bounds (pos + 1 + body.length) rest t (by simp [split])).1
    have skipped : t.start - pos = (0x23 :: body).length + (t.start - (pos + 1 + body.length)) := by
      simp only [List.length_cons]
      omega
    rw [skipped, List.drop_length_add_append] at starts
    have ends' := head?_take_append starts
    rw [skipped, List.take_length_add_append, List.append_assoc,
      tokensFrom_skipComment _ plain fun x mem => ends x (ends' x mem)]
    exact ih P t R split more starts
  | token pos c text rest kind isBlank isHash found ih =>
    intro P t R split more starts
    rw [tokensFrom_token _ isBlank isHash found] at split
    cases P with
    | nil =>
      obtain ⟨rfl, -⟩ := List.cons.inj split
      simp
    | cons p P =>
      rw [List.cons_append, List.cons.injEq] at split
      obtain ⟨rfl, later⟩ := split
      have bound := (tokensFrom_bounds (pos + 1 + text.length) rest t (by simp [later])).1
      have skipped : t.start - pos = (c :: text).length + (t.start - (pos + 1 + text.length)) := by
        simp only [List.length_cons]
        omega
      rw [skipped, List.drop_length_add_append] at starts
      have next := head?_take_append starts
      rw [skipped, List.take_length_add_append, List.append_assoc,
        tokensFrom_token _ isBlank isHash (lexeme_congr found fun x mem => .inl (next x mem)),
        ih P t R later more starts]
      rfl
  | stuck pos c rest isBlank isHash missing =>
    intro P t R split more starts
    rw [tokensFrom_unscannable _ isBlank isHash missing] at split
    cases P with
    | nil =>
      obtain ⟨rfl, -⟩ := List.cons.inj split
      simp
    | cons p P =>
      rw [List.cons_append, List.cons.injEq] at split
      simp at split

/-! ## A line feed after what was read -/

theorem head?_append_lineFeed (after rest : List Nat) :
    ∀ x ∈ (after ++ 0x0A :: rest).head?, x ∈ after.head? ∨ x = 0x0A := by
  cases after <;> simp

theorem tokensFrom_lineFeed (pos : Nat) (pre : List Nat) :
    Scanned (tokensFrom pos pre) → ∀ rest,
      tokensFrom pos (pre ++ 0x0A :: rest) = tokensFrom pos pre ++ tokensFrom (pos + pre.length + 1) rest := by
  induction pos, pre using tokensFrom_induction with
  | nil =>
    intro _ rest
    rw [List.nil_append, tokensFrom_blank _ _ (by decide)]
    simp
  | blank pos c pre isBlank ih =>
    intro scanned rest
    rw [tokensFrom_blank _ _ isBlank] at scanned ⊢
    rw [List.cons_append, tokensFrom_blank _ _ isBlank, ih scanned rest, List.length_cons]
    congr 2
    omega
  | comment pos body after plain ends ih =>
    intro scanned rest
    rw [tokensFrom_skipComment _ plain ends] at scanned ⊢
    have ends' : ∀ x ∈ (after ++ 0x0A :: rest).head?, x = 0x0A := fun x mem =>
      (head?_append_lineFeed after rest x mem).elim (ends x) id
    rw [List.append_assoc, tokensFrom_skipComment _ plain ends', ih scanned rest]
    simp only [List.cons_append, List.length_cons, List.length_append]
    congr 2
    omega
  | token pos c text after kind isBlank isHash found ih =>
    intro scanned rest
    rw [tokensFrom_token _ isBlank isHash found, scanned_cons] at scanned
    have found' := lexeme_congr found fun x mem =>
      (head?_append_lineFeed after rest x mem).imp_right fun feed => .inl (by rw [feed]; decide)
    rw [tokensFrom_token _ isBlank isHash found, List.append_assoc,
      tokensFrom_token _ isBlank isHash found', ih scanned.2 rest]
    simp only [List.cons_append, List.length_cons, List.length_append]
    congr 3
    omega
  | stuck pos c rest isBlank isHash missing =>
    intro scanned
    rw [tokensFrom_unscannable _ isBlank isHash missing, scanned_cons] at scanned
    exact absurd rfl scanned.1

/-! ## Completions written as text -/

def Syntax.Token.piece (c : Token) : Piece := ⟨c.kind, c.text, true⟩

theorem lexes_zero : Lexes .number [0x30] (some 0x20) := by
  refine ⟨0x30, [], rfl, by decide, by decide, fun rest follows => ?_⟩
  obtain ⟨r, rfl⟩ : ∃ r, rest = 0x20 :: r := by
    cases rest with
    | nil => simp at follows
    | cons x r => simp only [List.head?_cons, Option.some.injEq] at follows; exact ⟨r, by rw [follows]⟩
  simp [lexeme, punctOf, isDecimal, isAsciiDigit, isNumberTail, isWordChar, isAsciiLetter]

theorem Syntax.Token.lexes_of_fills {c : Token} (h : c.fills = true) : Lexes c.kind c.text (some 0x20) := by
  obtain ⟨kind, start, text⟩ := c
  cases kind with
  | word =>
    obtain rfl : text = [0x78] := by simpa [Token.fills] using h
    exact lexes_word (show isIdent [0x78] = true by decide) (by decide)
  | number =>
    obtain rfl : text = [0x30] := by simpa [Token.fills] using h
    exact lexes_zero
  | punct p =>
    simp only [Token.fills, Bool.and_eq_true, beq_iff_eq, bne_iff_ne, ne_eq] at h
    obtain ⟨rfl, plain⟩ := h
    exact lexes_mark p plain _
  | string | blank | unscannable => simp [Token.fills] at h

theorem fits_fills {C : List Token} (fills : C.all Token.fills = true) (after : Option Nat) :
    Fits (C.map Token.piece) after := by
  induction C with
  | nil => trivial
  | cons c C ih =>
    simp only [List.all_cons, Bool.and_eq_true] at fills
    exact ⟨Token.lexes_of_fills fills.1, ih fills.2⟩

theorem tokensFrom_fills {C : List Token} (fills : C.all Token.fills = true) (pos : Nat) :
    Agree C (tokensFrom pos (spell (C.map Token.piece))) := by
  obtain ⟨toks, scanned, lexemes⟩ := tokensFrom_spell _ none (fits_fills fills none) pos [] rfl
  rw [List.append_nil, tokensFrom_nil, List.append_nil] at scanned
  rw [Agree, scanned, lexemes, List.map_map]
  rfl

/-! ## Inside a number -/


theorem lexeme_number {c : Nat} {rest : List Nat} {n : Nat} (h : lexeme c rest = some (.number, n)) :
    n = (rest.takeWhile isNumberTail).length ∧
      ∀ rest', lexeme c rest' = some (.number, (rest'.takeWhile isNumberTail).length) := by
  unfold lexeme at h
  by_cases quote : c = 0x22
  · subst quote
    simp at h
  rw [if_neg (by simpa using quote)] at h
  by_cases colon : c = 0x3A
  · subst colon
    simp only [beq_self_eq_true, ↓reduceIte] at h
    split at h <;> simp at h
  rw [if_neg (by simpa using colon)] at h
  cases mark : punctOf c with
  | some p => simp [mark] at h
  | none =>
    simp only [mark] at h
    by_cases digit : isDecimal c = true
    · simp only [digit, ↓reduceIte, Option.some.injEq, Prod.mk.injEq, true_and] at h
      refine ⟨h.symm, fun rest' => ?_⟩
      simp [lexeme, quote, colon, mark, digit]
    · simp only [digit, Bool.false_eq_true, ↓reduceIte] at h
      repeat' split at h
      all_goals simp at h

theorem punctOf_lparen {c : Nat} (h : punctOf c = some .lparen) : c = 0x28 := by
  -- every mark is an ASCII code point: check each of them
  have ascii : ∀ d < 0x80, punctOf d = some .lparen → d = 0x28 := by decide +kernel
  exact ascii c (punctOf_ascii h) h

theorem lexeme_lparen {c : Nat} {rest : List Nat} {n : Nat}
    (h : lexeme c rest = some (.punct .lparen, n)) : c = 0x28 := by
  unfold lexeme at h
  by_cases quote : c = 0x22
  · subst quote
    simp at h
  rw [if_neg (by simpa using quote)] at h
  by_cases colon : c = 0x3A
  · subst colon
    simp only [beq_self_eq_true, ↓reduceIte] at h
    split at h <;> simp at h
  rw [if_neg (by simpa using colon)] at h
  cases mark : punctOf c with
  | some p =>
    simp only [mark, Option.some.injEq, Prod.mk.injEq, TokenKind.punct.injEq] at h
    obtain ⟨rfl, -⟩ := h
    exact punctOf_lparen mark
  | none =>
    simp only [mark] at h
    repeat' split at h
    all_goals simp at h

theorem isNumberTail_of_isAsciiDigit {x : Nat} (h : isAsciiDigit x = true) : isNumberTail x = true := by
  have ascii : x < 0x80 := by
    simp only [isAsciiDigit, Bool.and_eq_true, decide_eq_true_eq] at h
    omega
  simp [isNumberTail, isWordChar, ascii, h]

theorem tokensFrom_indexDigits {pos : Nat} {cs : List Nat} {t : Token} (mem : t ∈ tokensFrom pos cs)
    (number : t.kind = .number) (digits : 0 < t.indexDigits) (q : Nat) :
    tokensFrom q (t.text.take t.indexDigits) = [⟨.number, q, t.text.take t.indexDigits⟩] := by
  obtain ⟨c, tail, rest, text, -, found⟩ := tokensFrom_drop_start pos cs t mem
  simp only [number, reduceCtorEq, ↓reduceIte] at found
  have taken := t.take_indexDigits
  obtain ⟨k, hk⟩ : ∃ k, t.indexDigits = k + 1 := ⟨t.indexDigits - 1, by omega⟩
  rw [text, hk, List.take_succ_cons] at taken ⊢
  -- the digits are `c` and then the first `k` code points of the tail, all of them ASCII digits
  have first : isAsciiDigit c = true := by
    cases lead : isAsciiDigit c
    · simp [lead] at taken
    · rfl
  have allDigits : (c :: tail.take k).all isAsciiDigit = true := by
    rw [taken]
    exact List.all_takeWhile
  have run : (tail.take k).takeWhile isNumberTail = tail.take k := by
    refine List.takeWhile_eq_self_iff.mpr fun x mem => isNumberTail_of_isAsciiDigit ?_
    simp only [List.all_cons, Bool.and_eq_true, List.all_eq_true] at allDigits
    exact allDigits.2 x mem
  have ascii : 0x30 ≤ c ∧ c ≤ 0x39 := by
    simpa [isAsciiDigit] using first
  have blank : isBlankSpace c = false := by
    simp only [isBlankSpace, Bool.or_eq_false_iff, beq_eq_false_iff_ne, ne_eq]
    omega
  have reads := (lexeme_number found).2 (tail.take k)
  rw [run] at reads
  rw [tokensFrom_lexeme q blank (by omega) reads, List.take_length, List.drop_length, tokensFrom_nil]

theorem lexemeAt_indexDigits {pos : Nat} {cs : List Nat} {t : Token} (mem : t ∈ tokensFrom pos cs)
    (number : t.kind = .number) (digits : 0 < t.indexDigits) (short : t.indexDigits < t.text.length) :
    ∀ l ∈ lexemeAt cs (t.start - pos + t.indexDigits), l.1 ≠ .punct .lparen := by
  obtain ⟨c, tail, rest, text, dropped, found⟩ := tokensFrom_drop_start pos cs t mem
  simp only [number, reduceCtorEq, ↓reduceIte] at found
  have tails : tail.all isNumberTail = true :=
    (takeWhile_length_append.mp (lexeme_number found).1.symm).1
  obtain ⟨k, hk⟩ : ∃ k, t.indexDigits = k + 1 := ⟨t.indexDigits - 1, by omega⟩
  have inside : k < tail.length := by
    rw [text, List.length_cons] at short
    omega
  -- the code point after the digits is the one at `k` in the tail
  have after : cs.drop (t.start - pos + t.indexDigits) =
      tail[k] :: (tail.drop (k + 1) ++ rest) := by
    rw [hk, ← List.drop_drop, dropped, List.cons_append, List.drop_succ_cons,
      List.drop_append_of_le_length inside.le, List.drop_eq_getElem_cons inside, List.cons_append]
  have continues : isNumberTail tail[k] = true := List.all_eq_true.mp tails _ (List.getElem_mem inside)
  intro l found' opens
  rw [lexemeAt, after] at found'
  obtain ⟨⟨kind, n⟩, read, rfl⟩ := Option.map_eq_some_iff.mp found'
  simp only at opens
  subst opens
  rw [lexeme_lparen read] at continues
  exact absurd continues (by decide)

end ArtifactNames
