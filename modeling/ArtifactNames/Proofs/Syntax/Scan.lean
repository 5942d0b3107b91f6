import ArtifactNames.Proofs.Text.Scalar
import ArtifactNames.Syntax.Lexer
import ArtifactNames.Name.Build

/-! The scanner, one step at a time, and printed text read back by it. A printed token is a
kind, a text and whether a blank follows it; when each token's text is a whole lexeme of its kind
that the next code point cannot extend, scanning the printed text gives back the printed tokens. -/

namespace ArtifactNames.Syntax

open Text

def Token.lexeme (t : Token) : TokenKind × List Nat := (t.kind, t.text)

def tokensFrom (pos : Nat) (cs : List Nat) : List Token := (scanFrom pos cs #[]).toList

theorem scan_eq_tokensFrom (cs : List Nat) : scan cs = tokensFrom 0 cs := rfl

theorem scanFrom_eq_append (pos : Nat) (cs : List Nat) (acc : Array Token) :
    scanFrom pos cs acc = acc ++ scanFrom pos cs #[] := by
  -- the induction runs on `pos` and `cs`; the accumulator is quantified in the motive
  suffices key : ∀ (seed : Array Token) (acc : Array Token),
      scanFrom pos cs acc = acc ++ scanFrom pos cs #[] from key acc acc
  intro seed
  induction pos, cs, seed using scanFrom.induct with
  | case1 pos _ => intro acc; simp [scanFrom]
  | case2 pos _ c rest blank ih =>
    intro acc
    rw [scanFrom.eq_2, if_pos blank, ih acc, scanFrom.eq_2 _ #[], if_pos blank]
  | case3 pos _ c rest blank hash n ih =>
    intro acc
    rw [scanFrom.eq_2, if_neg blank, if_pos hash, ih acc, scanFrom.eq_2 _ #[], if_neg blank,
      if_pos hash]
  | case4 pos _ c rest blank hash kind n found ih =>
    intro acc
    rw [scanFrom.eq_2, if_neg blank, if_neg hash, found, scanFrom.eq_2 _ #[], if_neg blank,
      if_neg hash, found]
    simp only
    rw [ih (acc.push _), ih (#[].push _)]
    simp
  | case5 pos _ c rest blank hash missing =>
    intro acc
    rw [scanFrom.eq_2, if_neg blank, if_neg hash, missing, scanFrom.eq_2 _ #[], if_neg blank,
      if_neg hash, missing]
    simp

@[simp] theorem tokensFrom_nil (pos : Nat) : tokensFrom pos [] = [] := by
  simp [tokensFrom, scanFrom]

theorem tokensFrom_blank {c : Nat} (pos : Nat) (rest : List Nat) (blank : isBlankSpace c = true) :
    tokensFrom pos (c :: rest) = tokensFrom (pos + 1) rest := by
  rw [tokensFrom, scanFrom.eq_2, if_pos blank]
  rfl

theorem tokensFrom_comment (pos : Nat) (rest : List Nat) :
    tokensFrom pos (0x23 :: rest) =
      tokensFrom (pos + 1 + (rest.takeWhile (· != 0x0A)).length)
        (rest.drop (rest.takeWhile (· != 0x0A)).length) := by
  rw [tokensFrom, scanFrom.eq_2, if_neg (by decide), if_pos (by decide)]
  rfl

theorem tokensFrom_lexeme {c : Nat} {rest : List Nat} {kind : TokenKind} {n : Nat} (pos : Nat)
    (blank : isBlankSpace c = false) (hash : c ≠ 0x23) (found : lexeme c rest = some (kind, n)) :
    tokensFrom pos (c :: rest) =
      ⟨kind, pos, c :: rest.take n⟩ :: tokensFrom (pos + 1 + n) (rest.drop n) := by
  rw [tokensFrom, scanFrom.eq_2, if_neg (by simp [blank]), if_neg (by simpa using hash), found]
  simp only
  rw [scanFrom_eq_append]
  simp [tokensFrom]

theorem tokensFrom_unscannable {c : Nat} {rest : List Nat} (pos : Nat)
    (blank : isBlankSpace c = false) (hash : c ≠ 0x23) (missing : lexeme c rest = none) :
    tokensFrom pos (c :: rest) = [⟨.unscannable, pos, [c]⟩] := by
  rw [tokensFrom, scanFrom.eq_2, if_neg (by simp [blank]), if_neg (by simpa using hash), missing]
  rfl

/-! ## Lexemes -/

/-- Text that the scanner reads as one word: a word character that is no decimal digit, then
word characters or `-`; a `_` alone is the blank. -/
def isIdent : List Nat → Bool
  | [] => false
  | c :: rest => isWordChar c && !isDecimal c && rest.all isWordTail && (c != 0x5F || !rest.isEmpty)

theorem punctOf_ascii {c : Nat} {p : Punct} (h : punctOf c = some p) : c < 0x80 := by
  refine Nat.lt_of_not_le fun wide => ?_
  unfold punctOf at h
  repeat rw [if_neg (by simp only [beq_iff_eq]; omega)] at h
  cases h

theorem punctOf_eq_none {c : Nat} (h : isWordChar c = true) : punctOf c = none := by
  cases mark : punctOf c with
  | none => rfl
  | some p =>
    -- the marks are ASCII, so checking the ASCII code points settles it
    have ascii : ∀ d < 0x80, isWordChar d = true → punctOf d = none := by decide +kernel
    rw [ascii c (punctOf_ascii mark) h] at mark
    cases mark

theorem takeWhile_append_of_all {α : Type} {p : α → Bool} {xs ys : List α} (all : xs.all p = true)
    (stop : ∀ y ∈ ys.head?, p y = false) : (xs ++ ys).takeWhile p = xs := by
  induction xs with
  | nil =>
    cases ys with
    | nil => rfl
    | cons y ys => simp_all
  | cons x xs ih =>
    simp only [List.all_cons, Bool.and_eq_true] at all
    simp [all.1, ih all.2]

theorem lexeme_of_isIdent {c : Nat} {tail rest : List Nat} (ident : isIdent (c :: tail) = true)
    (stop : ∀ x ∈ rest.head?, isWordTail x = false) :
    lexeme c (tail ++ rest) = some (.word, tail.length) := by
  simp only [isIdent, Bool.and_eq_true, Bool.not_eq_true', Bool.or_eq_true, bne_iff_ne, ne_eq,
    List.isEmpty_eq_false_iff] at ident
  obtain ⟨⟨⟨word, notDecimal⟩, tails⟩, lone⟩ := ident
  have quote : c ≠ 0x22 := by rintro rfl; simp [isWordChar, isAsciiLetter, isAsciiDigit] at word
  have colon : c ≠ 0x3A := by rintro rfl; simp [isWordChar, isAsciiLetter, isAsciiDigit] at word
  -- a `_` is a word here because a word character follows it
  have notBlank : (c == 0x5F && !((tail ++ rest).head?.map isWordTail).getD false) = false := by
    by_cases under : c = 0x5F
    · obtain ⟨x, xs, rfl⟩ := List.exists_cons_of_ne_nil (lone.resolve_left (fun other => other under))
      simp only [List.all_cons, Bool.and_eq_true] at tails
      simp [tails.1]
    · simp [under]
  rw [lexeme, if_neg (by simpa using quote), if_neg (by simpa using colon), punctOf_eq_none word]
  simp only [notDecimal, notBlank, word]
  simp [takeWhile_append_of_all tails stop]

def Punct.spelling : Punct → List Nat
  | .assign => [0x3D]
  | .semicolon => [0x3B]
  | .colon => [0x3A]
  | .scope => [0x3A, 0x3A]
  | .lbrace => [0x7B]
  | .rbrace => [0x7D]
  | .lparen => [0x28]
  | .rparen => [0x29]
  | .at => [0x40]
  | .comma => [0x2C]
  | .dot => [0x2E]
  | .lbracket => [0x5B]
  | .rbracket => [0x5D]

def escape : List Nat → List Nat
  | [] => []
  | c :: rest => if c == 0x22 || c == 0x5C then 0x5C :: c :: escape rest else c :: escape rest

def quote (cs : List Nat) : List Nat := 0x22 :: escape cs ++ [0x22]

theorem stringRest_escape (cs rest : List Nat) :
    stringRest (escape cs ++ 0x22 :: rest) = some ((escape cs).length + 1) := by
  induction cs with
  | nil => simp [escape, stringRest]
  | cons c cs ih =>
    by_cases special : (c == 0x22 || c == 0x5C) = true
    · rw [escape, if_pos special]
      simp only [List.cons_append, stringRest, special, if_true, ih, List.length_cons]
      simp
    · rw [escape, if_neg special]
      simp only [Bool.or_eq_true, beq_iff_eq, not_or] at special
      rw [List.cons_append, stringRest.eq_def]
      -- the code point is neither a quote nor a backslash, so only the last case applies
      split
      all_goals simp_all

theorem unescape_escape (cs : List Nat) : unescape (escape cs) = cs := by
  induction cs with
  | nil => simp [escape, unescape]
  | cons c cs ih =>
    by_cases special : (c == 0x22 || c == 0x5C) = true
    · rw [escape, if_pos special, unescape, if_pos special, ih]
    · rw [escape, if_neg special]
      simp only [Bool.or_eq_true, beq_iff_eq, not_or] at special
      rw [unescape.eq_def]
      split
      all_goals simp_all

theorem unquote_quote (cs : List Nat) : unquote (quote cs) = cs := by
  simp [unquote, quote, unescape_escape]

/-! ## Printed tokens -/

/-- A printed token: its kind, its text, and whether a blank follows it. -/
structure Piece where
  kind : TokenKind
  text : List Nat
  spaced : Bool

namespace Piece

def lexeme (p : Piece) : TokenKind × List Nat := (p.kind, p.text)

def spell (p : Piece) : List Nat := p.text ++ if p.spaced then [0x20] else []

def word (w : List Nat) : Piece := ⟨.word, w, false⟩

def mark (p : Punct) : Piece := ⟨.punct p, p.spelling, false⟩

def blank : Piece := ⟨.blank, [0x5F], false⟩

def string (cs : List Nat) : Piece := ⟨.string, quote cs, false⟩

def withBlank (p : Piece) : Piece := { p with spaced := true }

@[simp] theorem kind_word (w : List Nat) : (word w).kind = .word := rfl
@[simp] theorem text_word (w : List Nat) : (word w).text = w := rfl
@[simp] theorem kind_mark (p : Punct) : (mark p).kind = .punct p := rfl
@[simp] theorem text_mark (p : Punct) : (mark p).text = p.spelling := rfl
@[simp] theorem kind_blank : blank.kind = .blank := rfl
@[simp] theorem text_blank : blank.text = [0x5F] := rfl
@[simp] theorem kind_string (cs : List Nat) : (string cs).kind = .string := rfl
@[simp] theorem text_string (cs : List Nat) : (string cs).text = quote cs := rfl
@[simp] theorem kind_withBlank (p : Piece) : p.withBlank.kind = p.kind := rfl
@[simp] theorem text_withBlank (p : Piece) : p.withBlank.text = p.text := rfl

end Piece

def spell (ps : List Piece) : List Nat := ps.flatMap Piece.spell

@[simp] theorem spell_nil : spell [] = [] := rfl

theorem spell_cons (p : Piece) (ps : List Piece) : spell (p :: ps) = p.spell ++ spell ps := rfl

theorem spell_append (ps qs : List Piece) : spell (ps ++ qs) = spell ps ++ spell qs := by
  simp [spell]

/-- Read from its first code point, `text` is one token of kind `kind`, whatever follows it as
long as that starts with `next`. -/
def Lexes (kind : TokenKind) (text : List Nat) (next : Option Nat) : Prop :=
  ∃ c tail, text = c :: tail ∧ isBlankSpace c = false ∧ c ≠ 0x23 ∧
    ∀ rest : List Nat, rest.head? = next → lexeme c (tail ++ rest) = some (kind, tail.length)

def Fits : List Piece → Option Nat → Prop
  | [], _ => True
  | p :: ps, after =>
    Lexes p.kind p.text (if p.spaced then some 0x20 else (spell ps).head?.or after) ∧ Fits ps after

theorem fits_append (ps qs : List Piece) (after : Option Nat) :
    Fits (ps ++ qs) after ↔ Fits ps ((spell qs).head?.or after) ∧ Fits qs after := by
  induction ps with
  | nil => simp [Fits]
  | cons p ps ih =>
    simp only [List.cons_append, Fits, ih, spell_append, List.head?_append, Option.or_assoc]
    exact and_assoc.symm

theorem tokensFrom_piece {p : Piece} {rest : List Nat}
    (lexes : Lexes p.kind p.text (if p.spaced then some 0x20 else rest.head?)) (pos : Nat) :
    tokensFrom pos (p.spell ++ rest) = ⟨p.kind, pos, p.text⟩ :: tokensFrom (pos + p.spell.length) rest := by
  obtain ⟨c, tail, text, blank, hash, reads⟩ := lexes
  cases spaced : p.spaced
  · have first := tokensFrom_lexeme pos blank hash (reads rest (by simp [spaced]))
    simp only [Piece.spell, spaced, text, Bool.false_eq_true, ↓reduceIte, List.append_nil,
      List.cons_append, first, List.take_left, List.drop_left, List.length_cons]
    congr 2
    omega
  · have first := tokensFrom_lexeme pos blank hash (reads (0x20 :: rest) (by simp [spaced]))
    have layout : p.spell ++ rest = c :: (tail ++ 0x20 :: rest) := by simp [Piece.spell, spaced, text]
    rw [layout, first, List.take_left, List.drop_left,
      tokensFrom_blank _ rest (show isBlankSpace 0x20 = true by decide), text]
    congr 2
    simp [Piece.spell, spaced, text]
    omega

theorem tokensFrom_spell (ps : List Piece) (after : Option Nat) (fits : Fits ps after)
    (pos : Nat) (rest : List Nat) (follows : rest.head? = after) :
    ∃ toks, tokensFrom pos (spell ps ++ rest) = toks ++ tokensFrom (pos + (spell ps).length) rest ∧
      toks.map Token.lexeme = ps.map Piece.lexeme := by
  induction ps generalizing pos with
  | nil => exact ⟨[], by simp, rfl⟩
  | cons p ps ih =>
    obtain ⟨lexes, fitsRest⟩ := fits
    have nextHead : (spell ps ++ rest).head? = (spell ps).head?.or after := by
      simp [List.head?_append, follows]
    obtain ⟨toks, scanned, lexemes⟩ := ih fitsRest (pos + p.spell.length)
    refine ⟨⟨p.kind, pos, p.text⟩ :: toks, ?_, ?_⟩
    · rw [spell_cons, List.append_assoc, tokensFrom_piece (nextHead ▸ lexes), scanned,
        List.length_append, Nat.add_assoc]
      rfl
    · simp [Token.lexeme, Piece.lexeme, lexemes]

/-! ## Each kind of printed token reads back -/

theorem lexes_word {w : List Nat} {next : Option Nat} (ident : isIdent w = true)
    (stop : ∀ x ∈ next, isWordTail x = false) : Lexes .word w next := by
  match w, ident with
  | c :: tail, ident =>
    have word : isWordChar c = true := by simp only [isIdent, Bool.and_eq_true] at ident; exact ident.1.1.1
    refine ⟨c, tail, rfl, ?_, ?_, fun rest follows => lexeme_of_isIdent ident (follows ▸ stop)⟩
    · cases hb : isBlankSpace c
      · rfl
      · -- the blank code points are no word characters
        simp only [isBlankSpace, Bool.or_eq_true, beq_iff_eq] at hb
        rcases hb with (((h | h) | h) | h) | h <;> subst h <;>
          simp [isWordChar, isAsciiLetter, isAsciiDigit] at word
    · rintro rfl
      simp [isWordChar, isAsciiLetter, isAsciiDigit] at word

theorem lexes_mark (p : Punct) (plain : p ≠ .colon) (next : Option Nat) :
    Lexes (.punct p) p.spelling next := by
  cases p
  case colon => exact absurd rfl plain
  case scope =>
    refine ⟨0x3A, [0x3A], rfl, by decide, by decide, fun rest _ => ?_⟩
    simp [lexeme]
  all_goals
    refine ⟨_, [], rfl, by decide, by decide, fun rest _ => ?_⟩
    simp [lexeme, punctOf]

theorem lexes_colon {next : Option Nat} (single : next ≠ some 0x3A) :
    Lexes (.punct .colon) [0x3A] next := by
  refine ⟨0x3A, [], rfl, by decide, by decide, fun rest follows => ?_⟩
  have : (rest.head? == some 0x3A) = false := by simp [follows, single]
  simp [lexeme, this]

theorem lexes_blank {next : Option Nat} (stop : ∀ x ∈ next, isWordTail x = false) :
    Lexes .blank [0x5F] next := by
  refine ⟨0x5F, [], rfl, by decide, by decide, fun rest follows => ?_⟩
  have : (rest.head?.map isWordTail).getD false = false := by
    cases h : rest.head? with
    | none => rfl
    | some x => simpa [h] using stop x (follows ▸ h)
  simp [lexeme, punctOf, this, isDecimal, isAsciiDigit]

theorem lexes_string (cs : List Nat) (next : Option Nat) : Lexes .string (quote cs) next := by
  refine ⟨0x22, escape cs ++ [0x22], rfl, by decide, by decide, fun rest _ => ?_⟩
  simp [lexeme, stringRest_escape]

end ArtifactNames.Syntax
