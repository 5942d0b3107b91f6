import ArtifactNames.Proofs.Syntax.Rejection
import ArtifactNames.Proofs.Syntax.LineCount
import ArtifactNames.Proofs.Name.Layout
import ArtifactNames.Proofs.Name.Release
import Mathlib.Control.Monad.Basic

/-! Where a rejected text is reported: at an offset inside the decoded text, on the line and column
that the lexer's counter has there, which are those after the line feeds before the offset. -/

namespace ArtifactNames

open Syntax Text Storage

namespace Span

/-- Offset `o` of `text` stands on line `line` and column `column`: `line - 1` line feeds stand
before it, its line starts just past the last of them (at the start of the text when there is
none), and `column - 1` code points stand between that start and `o`. -/
def Places (text : List Nat) (o line column : Nat) : Prop :=
  o ≤ text.length ∧ line = (text.take o).count lineFeed + 1 ∧
    ∃ before after, text.take o = before ++ after ∧
      (before = [] ∨ before.getLast? = some lineFeed) ∧ lineFeed ∉ after ∧
      column = o - before.length + 1

theorem columnWidth_split (cs : List Nat) :
    ∃ before after, cs = before ++ after ∧ (before = [] ∨ before.getLast? = some lineFeed) ∧
      lineFeed ∉ after ∧ columnWidth cs = after.length := by
  -- read backwards, the last line is what comes before the first line feed
  refine ⟨(cs.reverse.dropWhile (· != lineFeed)).reverse,
    (cs.reverse.takeWhile (· != lineFeed)).reverse, ?_, ?_, ?_, by simp [columnWidth]⟩
  · rw [← List.reverse_append, List.takeWhile_append_dropWhile, List.reverse_reverse]
  · rcases dropped : cs.reverse.dropWhile (· != lineFeed) with _ | ⟨x, rest⟩
    · exact .inl rfl
    · have nonempty : cs.reverse.dropWhile (· != lineFeed) ≠ [] := by simp [dropped]
      have stop := List.head_dropWhile_not (· != lineFeed) nonempty
      simp only [dropped, List.head_cons, bne_eq_false_iff_eq] at stop
      simp [stop]
  · intro mem
    have kept := List.mem_takeWhile_imp (List.mem_reverse.mp mem)
    simp at kept

theorem places_ofOffset {text : List Nat} {o : Nat} (within : o ≤ text.length) :
    ∃ line column, Places text o line column ∧
      ofOffset text o = { line := some line, column := some column, offset := some o } := by
  obtain ⟨before, after, split, starts, plain, width⟩ := columnWidth_split (text.take o)
  have taken : (text.take o).length = o := List.length_take_of_le within
  have lengths : o = before.length + after.length := by
    rw [← taken, split, List.length_append]
  refine ⟨(text.take o).count lineFeed + 1, columnWidth (text.take o) + 1,
    ⟨within, rfl, before, after, split, starts, plain, by omega⟩, ?_⟩
  simp only [ofOffset, Span.mk.injEq, Option.some.injEq]
  exact ⟨by omega, by omega, trivial⟩

theorem message_rejected (line column o : Nat) :
    (ParseError.rejected { line := some line, column := some column, offset := some o }).message =
      "syntax error at " ++ toString line ++ ":" ++ toString column :=
  rfl

end Span

theorem Source.toBuffer_terminated {source : Source} {buffer : List UInt8}
    (h : source.toBuffer = .ok buffer) : ∃ body, buffer = body ++ [terminator] := by
  cases source with
  | text cs =>
    simp only [Source.toBuffer] at h
    split at h
    · cases h
    · split at h
      · cases h
      · cases h
        exact ⟨_, rfl⟩
  | bytes bs =>
    simp only [Source.toBuffer] at h
    split at h
    · cases h
    · cases h
      exact ⟨_, rfl⟩

theorem compileText_rejected_lines {text : List Nat} {span : Span}
    (h : compileText text = .rejected span) :
    ∃ r, readName (scan text) = .error r ∧ span = linesAt text (r.offset (scan text)) := by
  simp only [compileText] at h
  split at h
  · cases h
  · rename_i r read
    cases h
    exact ⟨r, read, rfl⟩

theorem compileText_rejected {text : List Nat} {span : Span} (h : compileText text = .rejected span) :
    ∃ r, readName (scan text) = .error r ∧ span = Span.ofOffset text (r.offset (scan text)) := by
  obtain ⟨r, read, rfl⟩ := compileText_rejected_lines h
  exact ⟨r, read, linesAt_eq_ofOffset (offset_le_length (readName_lies read))⟩

theorem parseWith_rejected {frames : Frames} {allocator : Allocator} {source : Source} {span : Span}
    (rejected : (parseWith grammarCompiler frames allocator source).outcome = .error (.rejected span)) :
    ∃ buffer, source.toBuffer = .ok buffer ∧
      compileText (decodeEscaped buffer.dropLast) = .rejected span := by
  cases toBuf : source.toBuffer with
  | error fault => simp [parseWith, toBuf] at rejected
  | ok buffer =>
    obtain ⟨body, rfl⟩ := Source.toBuffer_terminated toBuf
    have compiled : compile (body ++ [terminator]) =
        .ok (compileText (decodeEscaped (body ++ [terminator]).dropLast)) := by
      rw [List.dropLast_concat]
      exact compile_bytes body
    rw [parseWith_compileText toBuf compiled] at rejected
    refine ⟨_, rfl, ?_⟩
    split at rejected
    · rename_i root _
      exact ((Walk.Built.buildRoot frames root).failsOwn ⟨allocator, #[]⟩ _ rejected).elim
    · cases rejected
      assumption

/-- Every syntax error of the grammar has the span the lexer's counter has at its offset, a code
point index into the decoded source: the line is one more than the line feeds before the offset,
the column one more than the offset less the index just past the last of them, and the message is
`syntax error at L:C` with these values. -/
theorem parseWith_rejection_position {frames : Frames} {allocator : Allocator} {source : Source}
    {span : Span}
    (rejected : (parseWith grammarCompiler frames allocator source).outcome = .error (.rejected span)) :
    ∃ buffer o line column, source.toBuffer = .ok buffer ∧
      span = linesAt (decodeEscaped buffer.dropLast) o ∧
      Span.Places (decodeEscaped buffer.dropLast) o line column ∧
      span = { line := some line, column := some column, offset := some o } ∧
      (ParseError.rejected span).message =
        "syntax error at " ++ toString line ++ ":" ++ toString column := by
  obtain ⟨buffer, toBuf, compiled⟩ := parseWith_rejected rejected
  obtain ⟨r, read, rfl⟩ := compileText_rejected_lines compiled
  -- reading stops inside the text, where the counter stands as the offset's span says
  have within := offset_le_length (readName_lies read)
  obtain ⟨line, column, places, spanned⟩ := Span.places_ofOffset within
  rw [← linesAt_eq_ofOffset within] at spanned
  exact ⟨buffer, _, line, column, toBuf, rfl, places, spanned, by rw [spanned, Span.message_rejected]⟩

theorem parseWith_rejection_position_sample :
    (parseWith grammarCompiler Frames.granting {} (.text [0x66, 0x5B, 0x6B, 0x3D, 0x22, 0x0A, 0x22,
      0x5D, 0x0A, 0x0D, 0x20, 0x3B])).outcome = .error (.rejected ⟨some 3, some 3, some 11⟩) ∧
    ∃ buffer o line column,
      (Source.text [0x66, 0x5B, 0x6B, 0x3D, 0x22, 0x0A, 0x22, 0x5D, 0x0A, 0x0D, 0x20, 0x3B]).toBuffer =
        .ok buffer ∧
      (⟨some 3, some 3, some 11⟩ : Span) = linesAt (decodeEscaped buffer.dropLast) o ∧
      Span.Places (decodeEscaped buffer.dropLast) o line column ∧
      (⟨some 3, some 3, some 11⟩ : Span) = { line := some line, column := some column, offset := some o } ∧
      (ParseError.rejected ⟨some 3, some 3, some 11⟩).message =
        "syntax error at " ++ toString line ++ ":" ++ toString column := by
  -- the outcome holds a name, which has no decidable equality: compare it with the name forgotten
  have decided : ((parseWith grammarCompiler Frames.granting {} (.text [0x66, 0x5B, 0x6B, 0x3D, 0x22,
      0x0A, 0x22, 0x5D, 0x0A, 0x0D, 0x20, 0x3B])).outcome.map fun _ => ()) =
      .error (.rejected ⟨some 3, some 3, some 11⟩) := by
    decide +kernel
  have rejected : (parseWith grammarCompiler Frames.granting {} (.text [0x66, 0x5B, 0x6B, 0x3D, 0x22,
      0x0A, 0x22, 0x5D, 0x0A, 0x0D, 0x20, 0x3B])).outcome =
      .error (.rejected ⟨some 3, some 3, some 11⟩) := by
    revert decided
    cases (parseWith grammarCompiler Frames.granting {} (.text [0x66, 0x5B, 0x6B, 0x3D, 0x22, 0x0A,
      0x22, 0x5D, 0x0A, 0x0D, 0x20, 0x3B])).outcome <;> simp [Except.map]
  exact ⟨rejected, parseWith_rejection_position rejected⟩

end ArtifactNames
