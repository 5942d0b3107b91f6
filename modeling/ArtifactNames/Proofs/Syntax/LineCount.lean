import Mathlib.Data.List.TakeWhile
import ArtifactNames.Syntax.Lines

/-! The lexer's line counter agrees with the offset: wherever it stops, its line is one more than
the line feeds read, and its column counts from just past the last of them (`linesAt_eq_ofOffset`). -/

open ArtifactNames.Text ArtifactNames.Span

namespace ArtifactNames.Syntax

/-- The counter has read `pre`: it stands at its end, on the line after its line feeds, with its
line starting where the last line of `pre` does. -/
def LineCounter.Counts (c : LineCounter) (pre : List Nat) : Prop :=
  c.charPos = pre.length ∧ c.line = pre.count lineFeed + 1 ∧
    c.lineStart + columnWidth pre = pre.length

theorem columnWidth_append_of_not_mem {p q : List Nat} (h : lineFeed ∉ q) :
    columnWidth (p ++ q) = columnWidth p + q.length := by
  have plain : ∀ a ∈ q.reverse, (a != lineFeed) = true := fun a mem => by
    have : a ≠ lineFeed := fun eq => h (eq ▸ List.mem_reverse.mp mem)
    simpa using this
  simp only [columnWidth, List.reverse_append, List.takeWhile_append_of_pos plain, List.length_append,
    List.length_reverse]
  omega

/-- Read backwards, a text that holds a line feed stops short of its end at the first of them. -/
theorem columnWidth_ne_length {q : List Nat} (h : lineFeed ∈ q) :
    (q.reverse.takeWhile (· != lineFeed)).length ≠ q.reverse.length := by
  intro whole
  have all := List.takeWhile_eq_self_iff.mp (List.IsPrefix.eq_of_length (List.takeWhile_prefix _) whole)
  simpa using all lineFeed (List.mem_reverse.mpr h)

theorem columnWidth_append_of_mem {p q : List Nat} (h : lineFeed ∈ q) :
    columnWidth (p ++ q) = columnWidth q := by
  simp only [columnWidth, List.reverse_append, List.takeWhile_append, columnWidth_ne_length h, ↓reduceIte]

theorem columnWidth_lt_of_mem {q : List Nat} (h : lineFeed ∈ q) : columnWidth q < q.length := by
  have le : (q.reverse.takeWhile (· != lineFeed)).length ≤ q.reverse.length :=
    (List.takeWhile_prefix _).length_le
  have ne := columnWidth_ne_length h
  simp only [List.length_reverse] at le ne
  exact Nat.lt_of_le_of_ne le ne

/-- Read backwards, the first line feed stands after the last line. -/
theorem idxOf_lineFeed_eq (l : List Nat) : l.idxOf lineFeed = (l.takeWhile (· != lineFeed)).length := by
  induction l with
  | nil => rfl
  | cons x xs ih =>
    by_cases h : x = lineFeed
    · simp [h]
    · have other : (x == lineFeed) = false := beq_false_of_ne h
      rw [List.idxOf_cons, other, cond_false, ih]
      simp [h]

theorem LineCounter.Counts.feed {c : LineCounter} {pre piece : List Nat} {test : Bool}
    (h : c.Counts pre) (tested : test = true ∨ lineFeed ∉ piece) :
    (c.feed piece test).Counts (pre ++ piece) := by
  obtain ⟨pos, line, start⟩ := h
  by_cases mem : lineFeed ∈ piece
  · -- a line feed of a tested piece moves the line start just past the last of them
    obtain rfl : test = true := tested.resolve_right (not_not_intro mem)
    have counted : piece.count lineFeed ≠ 0 := fun zero => List.count_eq_zero.mp zero mem
    have width := columnWidth_lt_of_mem mem
    have last : LineCounter.lastLineFeed piece = piece.length - 1 - columnWidth piece := by
      rw [LineCounter.lastLineFeed, idxOf_lineFeed_eq, columnWidth]
    simp only [LineCounter.feed, ↓reduceIte, counted]
    refine ⟨by simp [pos], by simp [line, List.count_append]; omega, ?_⟩
    dsimp only
    rw [columnWidth_append_of_mem mem, last, List.length_append]
    omega
  · -- without one only the position moves
    have none : (if test then piece.count lineFeed else 0) = 0 := by
      split <;> simp [List.count_eq_zero, mem]
    simp only [LineCounter.feed, none, ↓reduceIte]
    refine ⟨by simp [pos], by simp [line, List.count_append, List.count_eq_zero.mpr mem], ?_⟩
    dsimp only
    rw [columnWidth_append_of_not_mem mem, List.length_append]
    omega

theorem lineFeed_not_mem_takeWhile {p : Nat → Bool} (h : p lineFeed = false) (l : List Nat) :
    lineFeed ∉ l.take (l.takeWhile p).length := by
  rw [← List.prefix_iff_eq_take.mp (List.takeWhile_prefix p)]
  intro mem
  simpa [h] using List.mem_takeWhile_imp mem

/-- A lexeme whose terminal is not tested for line feeds holds none. -/
theorem lexeme_untested {x : Nat} {rest : List Nat} {kind : TokenKind} {n : Nat}
    (h : lexeme x rest = some (kind, n)) (untested : kind.testsLineFeeds = false) :
    lineFeed ∉ rest.take n := by
  unfold lexeme at h
  split at h
  · obtain ⟨m, -, eq⟩ := Option.map_eq_some_iff.mp h
    cases eq
    cases untested
  split at h
  · split at h
    · cases h
      rename_i scope
      cases rest with
      | nil => cases scope
      | cons y ys =>
        obtain rfl : y = 0x3A := by simpa using scope
        simp [lineFeed]
    · cases h
      simp
  split at h
  · cases h
    simp
  split at h
  · cases h
    exact lineFeed_not_mem_takeWhile (by decide) rest
  split at h
  · cases h
    simp
  split at h
  · cases h
    cases untested
  · cases h

/-- A piece that is not tested for line feeds holds none. -/
theorem pieceAt_untested {x : Nat} {rest : List Nat} {n : Nat} (h : pieceAt x rest = (n, false)) :
    lineFeed ∉ x :: rest.take n := by
  unfold pieceAt at h
  split at h
  · cases h
  rename_i notBlank
  have notLineFeed : x ≠ lineFeed := fun eq => by simp [eq, isBlankSpace, lineFeed] at notBlank
  split at h
  · cases h
  intro mem
  rcases List.mem_cons.mp mem with eq | inRest
  · exact notLineFeed eq.symm
  split at h
  · rename_i kind m read
    simp only [Prod.mk.injEq] at h
    obtain ⟨rfl, untested⟩ := h
    exact lexeme_untested read untested inRest
  · simp only [Prod.mk.injEq] at h
    obtain ⟨rfl, -⟩ := h
    simp at inRest

/-- Wherever the counter stops inside a text, it has read the text up to there. The recursion is
the lexer's: each piece it feeds is the next part of the text, and a piece holds a line feed only
where the lexer tests it for one. -/
theorem linesFrom_counts {text : List Nat} {o : Nat} (within : o ≤ text.length) :
    ∀ {c : LineCounter} {pos : Nat} {cs : List Nat}, c.Counts (text.take pos) → text.drop pos = cs →
      pos ≤ o → (linesFrom o c pos cs).Counts (text.take o)
  | c, pos, [], counts, rest, le => by
    have ended : text.length ≤ pos := List.drop_eq_nil_iff.mp rest
    obtain rfl : pos = o := by omega
    rw [linesFrom]
    exact counts
  | c, pos, x :: more, counts, rest, le => by
    rw [linesFrom]
    split
    · obtain rfl : pos = o := by omega
      exact counts
    rcases piece : pieceAt x more with ⟨n, test⟩
    dsimp only
    have split : ∀ k, text.take (pos + k) = text.take pos ++ (x :: more).take k := fun k => by
      rw [List.take_add, rest]
    have whole : (x :: more).take (1 + n) = x :: more.take n := by
      rw [Nat.add_comm, List.take_succ_cons]
    -- what is fed of the piece holds a line feed only if the lexer tests the piece
    have tested : ∀ k ≤ 1 + n, test = true ∨ lineFeed ∉ (x :: more).take k := by
      intro k bound
      cases test with
      | true => exact .inl rfl
      | false =>
        refine .inr fun mem => pieceAt_untested piece ?_
        rw [← whole]
        exact (List.take_prefix_take_left bound).subset mem
    split
    · -- the offset falls inside the piece
      have upTo : text.take o = text.take pos ++ (x :: more).take (o - pos) := by
        rw [← split, Nat.add_sub_cancel' le]
      rw [upTo]
      exact counts.feed (tested (o - pos) (by omega))
    · -- the piece is fed whole, and the lexer goes on after it
      have next : pos + 1 + n = pos + (1 + n) := Nat.add_assoc _ _ _
      refine linesFrom_counts within ?_ ?_ (by omega)
      · rw [next, split, whole]
        exact counts.feed (by simpa only [whole] using tested (1 + n) (Nat.le_refl _))
      · rw [next, ← List.drop_drop, rest, Nat.add_comm, List.drop_succ_cons]
termination_by _ _ cs => cs.length
decreasing_by simp only [List.length_drop, List.length_cons]; omega

/-- The counter at an offset inside a text stands where the offset's span places it. -/
theorem linesAt_eq_ofOffset {text : List Nat} {o : Nat} (within : o ≤ text.length) :
    linesAt text o = ofOffset text o := by
  have counts : (linesFrom o LineCounter.start 0 text).Counts (text.take o) :=
    linesFrom_counts within ⟨rfl, rfl, by simp [LineCounter.start, columnWidth]⟩ rfl (Nat.zero_le _)
  obtain ⟨pos, line, start⟩ := counts
  have taken : (text.take o).length = o := List.length_take_of_le within
  simp only [linesAt, LineCounter.span, LineCounter.column, ofOffset, Span.mk.injEq, Option.some.injEq]
  refine ⟨by rw [line]; push_cast; omega, by rw [pos]; push_cast; omega, by rw [pos, taken]⟩

end ArtifactNames.Syntax
