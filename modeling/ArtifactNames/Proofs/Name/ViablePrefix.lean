import ArtifactNames.Proofs.Syntax.Cut
import ArtifactNames.Proofs.Syntax.NameStall
import ArtifactNames.Proofs.Name.Position

/-! Where a rejected text stops being the start of a name (`StopsAt`): the text before the stop can
be completed, and the token there follows it in no accepted text (`compileText_stopsAt`). -/

namespace ArtifactNames

open Syntax Text Storage

def Viable (text : List Nat) : Prop := ∃ more root, compileText (text ++ more) = .tree root

/-- No accepted text has tokens that begin as those of `text` before offset `o` do and go on with
the token that the scanner reads at `o`. -/
def Blocked (text : List Nat) (o : Nat) : Prop :=
  ∀ l ∈ lexemeAt text o, ∀ text' : List Nat,
    (scan (text.take o)).map Token.lexeme ++ [l] <+: (scan text').map Token.lexeme →
      ∃ span, compileText text' = .rejected span

/-- Where reading a text may stop with rejection `r`, reported at offset `o`. -/
inductive StopsAt (text : List Nat) : Rejection → Nat → Prop
  /-- A text without tokens stops at its end, reported at its start. -/
  | empty : scan text = [] → StopsAt text .atEnd 0
  /-- A text whose tokens all read stops at its end, reported at the start of its last token, and
  it starts an accepted text. -/
  | atEnd (t : Token) : (scan text).getLast? = some t → Viable text → StopsAt text .atEnd t.start
  /-- A text stops where one of its tokens starts: what stands before it starts an accepted text,
  and no accepted text goes on from there with that token. -/
  | token (t : Token) : t ∈ scan text → Viable (text.take t.start) → Blocked text t.start →
      StopsAt text (.at t.start) t.start
  /-- Where an index must stand, a text stops inside a number just past its ASCII digits: the text
  up to there starts an accepted text, and no accepted text goes on from there with the token the
  scanner reads there. -/
  | index (t : Token) : t ∈ scan text → t.kind = .number → 0 < t.indexDigits →
      t.indexDigits < t.text.length → Viable (text.take (t.start + t.indexDigits)) →
      Blocked text (t.start + t.indexDigits) →
      StopsAt text (.at (t.start + t.indexDigits)) (t.start + t.indexDigits)

theorem viable_of_completion {pre : List Nat} (scanned : Scanned (scan pre)) {C : List Token}
    (fills : C.all Token.fills = true) {root : Node} (read : readName (scan pre ++ C) = .ok root) :
    Viable pre := by
  refine ⟨0x0A :: spell (C.map Token.piece), root, ?_⟩
  have agree : Agree (scan pre ++ C) (scan (pre ++ 0x0A :: spell (C.map Token.piece))) := by
    rw [scan_eq_tokensFrom, scan_eq_tokensFrom, tokensFrom_lineFeed 0 pre scanned]
    exact (Agree.refl _).append (tokensFrom_fills fills _)
  simp [compileText, readName_agree agree read]

theorem readName_error_agree {xs ys : List Token} {e : Rejection} (agree : Agree xs ys)
    (fails : readName xs = .error e) : ∃ e', readName ys = .error e' := by
  cases read : readName ys with
  | error e' => exact ⟨e', rfl⟩
  | ok root =>
    rw [readName_agree (Eq.symm agree) read] at fails
    cases fails

theorem blocked_of_refuses {text : List Nat} {o : Nat} {refuse : Token → Prop}
    (refuses : ∀ k K, refuse k → ∃ e, readName (scan (text.take o) ++ k :: K) = .error e)
    (refused : ∀ l ∈ lexemeAt text o, ∀ k : Token, k.lexeme = l → refuse k) : Blocked text o := by
  intro l found text' ⟨rest, begins⟩
  rw [List.append_assoc, List.singleton_append] at begins
  obtain ⟨A, B, split, agreeA, lexemesB⟩ := List.map_eq_append_iff.mp begins.symm
  obtain ⟨k, K, rfl, same, -⟩ := List.map_eq_cons_iff.mp lexemesB
  obtain ⟨e, fails⟩ := refuses k K (refused l found k same)
  have agree : Agree (scan (text.take o) ++ k :: K) (scan text') := by
    rw [split]
    exact Agree.append (Eq.symm agreeA) (Agree.refl _)
  obtain ⟨e', rejected⟩ := readName_error_agree agree fails
  simp only [compileText, rejected]
  exact ⟨_, rfl⟩

theorem compileText_stopsAt {text : List Nat} {span : Span} (h : compileText text = .rejected span) :
    ∃ r o, readName (scan text) = .error r ∧ span = Span.ofOffset text o ∧ StopsAt text r o := by
  obtain ⟨r, read, rfl⟩ := compileText_rejected h
  obtain ⟨P, X, Y, refuse, split, scanned, stop, -, refuses, C, fills, root, completes⟩ :=
    readName_stall read
  cases stop with
  | atEnd =>
    -- every token was read: the text itself completes
    rw [List.append_nil] at split
    rw [List.append_nil, ← split] at completes
    cases last : (scan text).getLast? with
    | none =>
      exact ⟨_, 0, read, by simp [Rejection.offset, last], .empty (List.getLast?_eq_none_iff.mp last)⟩
    | some t =>
      refine ⟨_, t.start, read, by simp [Rejection.offset, last], .atEnd t last ?_⟩
      exact viable_of_completion (split ▸ scanned) fills completes
  | token t R =>
    have mem : t ∈ scan text := by
      rw [split]
      simp
    -- the text before the token scans as the tokens read
    have cut : scan (text.take t.start) = P := by
      rw [scan_eq_tokensFrom]
      simpa using tokensFrom_cut 0 text P t R split [] (by simp)
    rw [List.append_nil, ← cut] at completes refuses
    refine ⟨_, t.start, read, rfl, .token t mem (viable_of_completion (cut ▸ scanned) fills completes) ?_⟩
    refine blocked_of_refuses refuses fun l found k same => ?_
    have again := lexemeAt_start mem
    rw [Nat.sub_zero] at again
    rw [again] at found
    split at found
    · simp at found
    · simp only [Option.mem_def, Option.some.injEq] at found
      rw [same, found]
  | index t R number digits short =>
    have mem : t ∈ scan text := by
      rw [split]
      simp
    obtain ⟨c, tail, rest, spelled, dropped, -⟩ := tokensFrom_drop_start 0 text t mem
    rw [Nat.sub_zero] at dropped
    -- the text up to the stop is the text before the number and then the number's digits
    have whole : text.take (t.start + t.indexDigits) =
        text.take t.start ++ t.text.take t.indexDigits := by
      rw [List.take_add, dropped, spelled, List.take_append_of_le_length (spelled ▸ short.le)]
    have starts : ∀ x ∈ (t.text.take t.indexDigits).head?, x ∈ (text.drop (t.start - 0)).head? := by
      rw [Nat.sub_zero, dropped, spelled, List.head?_take, if_neg (by omega)]
      simp
    have cut : scan (text.take (t.start + t.indexDigits)) =
        P ++ [⟨.number, t.start, t.text.take t.indexDigits⟩] := by
      rw [whole, scan_eq_tokensFrom, ← Nat.sub_zero t.start,
        tokensFrom_cut 0 text P t R split _ starts, Nat.sub_zero, tokensFrom_indexDigits mem number digits]
    have scannedCut : Scanned (scan (text.take (t.start + t.indexDigits))) := by
      rw [cut, scanned_append]
      exact ⟨scanned, by simp⟩
    rw [← cut] at completes refuses
    refine ⟨_, t.start + t.indexDigits, read, rfl, .index t mem number digits short
      (viable_of_completion scannedCut fills completes) ?_⟩
    refine blocked_of_refuses refuses fun l found k same => ?_
    have notOpen := lexemeAt_indexDigits mem number digits short l (by simpa using found)
    rw [← same] at notOpen
    simpa [Token.isPunct, Token.lexeme] using notOpen

theorem StopsAt.eq_zero_of_scan_nil {text : List Nat} {r : Rejection} {o : Nat} (stops : StopsAt text r o)
    (empty : scan text = []) : o = 0 := by
  cases stops with
  | empty => rfl
  | atEnd t last => simp [empty] at last
  | token t mem => simp [empty] at mem
  | index t mem => simp [empty] at mem

theorem Span.ofOffset_zero (text : List Nat) : Span.ofOffset text 0 = ⟨some 1, some 1, some 0⟩ := by
  simp [Span.ofOffset, Span.columnWidth]

/-- Every syntax error of the grammar is reported where the source stops being the start of a name.
Reading the tokens of the decoded source fails with some rejection `r`, and the span is that of an
offset `o` into that text, so it is known. A text without tokens is reported at its start, on line 1
and column 1. Where `r` is the end of the tokens, all of them were read: `o` is the start of the
last one and the text starts an accepted text. Otherwise `o` is the start of a token, or a place
inside a number past its ASCII digits where an index must stand; the text before `o` starts an
accepted text, and no accepted text has tokens that go on from those before `o` with the token
that the scanner reads at `o`. -/
theorem parseWith_rejection_viable_prefix {frames : Frames} {allocator : Allocator} {source : Source}
    {span : Span}
    (rejected : (parseWith grammarCompiler frames allocator source).outcome = .error (.rejected span)) :
    ∃ buffer r o, source.toBuffer = .ok buffer ∧
      readName (scan (decodeEscaped buffer.dropLast)) = .error r ∧
      span = Span.ofOffset (decodeEscaped buffer.dropLast) o ∧ span.isKnown = true ∧
      (scan (decodeEscaped buffer.dropLast) = [] → span = ⟨some 1, some 1, some 0⟩) ∧
      StopsAt (decodeEscaped buffer.dropLast) r o := by
  obtain ⟨buffer, toBuf, compiled⟩ := parseWith_rejected rejected
  obtain ⟨r, o, read, rfl, stops⟩ := compileText_stopsAt compiled
  refine ⟨buffer, r, o, toBuf, read, rfl, rfl, fun empty => ?_, stops⟩
  rw [stops.eq_zero_of_scan_nil empty, Span.ofOffset_zero]

theorem parseWith_rejection_viable_prefix_sample :
    (parseWith grammarCompiler Frames.granting {} (.text [0x61, 0x3B])).outcome =
      .error (.rejected ⟨some 1, some 2, some 1⟩) ∧
    ∃ buffer r o, (Source.text [0x61, 0x3B]).toBuffer = .ok buffer ∧
      readName (scan (decodeEscaped buffer.dropLast)) = .error r ∧
      (⟨some 1, some 2, some 1⟩ : Span) = Span.ofOffset (decodeEscaped buffer.dropLast) o ∧
      (⟨some 1, some 2, some 1⟩ : Span).isKnown = true ∧
      (scan (decodeEscaped buffer.dropLast) = [] →
        (⟨some 1, some 2, some 1⟩ : Span) = ⟨some 1, some 1, some 0⟩) ∧
      StopsAt (decodeEscaped buffer.dropLast) r o := by
  -- the outcome holds a name, which has no decidable equality: compare it with the name forgotten
  have decided : ((parseWith grammarCompiler Frames.granting {} (.text [0x61, 0x3B])).outcome.map
      fun _ => ()) = .error (.rejected ⟨some 1, some 2, some 1⟩) := by
    decide +kernel
  have rejected : (parseWith grammarCompiler Frames.granting {} (.text [0x61, 0x3B])).outcome =
      .error (.rejected ⟨some 1, some 2, some 1⟩) := by
    revert decided
    cases (parseWith grammarCompiler Frames.granting {} (.text [0x61, 0x3B])).outcome <;>
      simp [Except.map]
  exact ⟨rejected, parseWith_rejection_viable_prefix rejected⟩

end ArtifactNames
