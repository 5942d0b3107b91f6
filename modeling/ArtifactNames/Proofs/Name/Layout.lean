import ArtifactNames.Proofs.Syntax.Gap
import ArtifactNames.Proofs.Text.Boundary
import ArtifactNames.Proofs.Name.ParseSound
import ArtifactNames.Proofs.Name.RoundTrip

/-! Layout does not change what a source reads as: relayout keeps the tokens' kinds and texts
(`scan_relayout`), and reading depends on nothing else (`readName_agree`). -/

namespace ArtifactNames

open Syntax Text Storage

theorem compileText_agree {cs cs' : List Nat} (agree : Agree (scan cs) (scan cs')) :
    (∃ root, compileText cs = .tree root ∧ compileText cs' = .tree root) ∨
      ∃ span span', compileText cs = .rejected span ∧ compileText cs' = .rejected span' := by
  cases read : readName (scan cs) with
  | ok root =>
    exact .inl ⟨root, by simp only [compileText, read], by
      simp only [compileText, readName_agree agree read]⟩
  | error r =>
    cases read' : readName (scan cs') with
    | ok root =>
      have back := readName_agree agree.symm read'
      rw [read] at back
      cases back
    | error r' =>
      exact .inr ⟨linesAt cs (r.offset (scan cs)), linesAt cs' (r'.offset (scan cs')),
        by simp only [compileText, read], by simp only [compileText, read']⟩

theorem parseWith_compileText {frames : Frames} {allocator : Allocator} {source : Source}
    {buffer : List UInt8} {text : List Nat} (toBuf : source.toBuffer = .ok buffer)
    (compiled : compile buffer = .ok (compileText text)) :
    parseWith grammarCompiler frames allocator source =
      match compileText text with
      | .tree root =>
        let run := (buildRoot frames root).run.run ⟨allocator, #[]⟩
        ⟨run.1, run.2.allocator, 1, [1], run.2.trace.toList⟩
      | .rejected span => ⟨.error (.rejected span), allocator, 1, [], []⟩ := by
  simp only [parseWith, toBuf, grammarCompiler, compiled]
  cases compileText text with
  | tree root => rcases (buildRoot frames root).run.run ⟨allocator, #[]⟩ with ⟨outcome, state⟩; rfl
  | rejected span => rfl

theorem parseWith_agree {frames : Frames} {allocator : Allocator} {source source' : Source}
    {buffer buffer' : List UInt8} {text text' : List Nat} (toBuf : source.toBuffer = .ok buffer)
    (compiled : compile buffer = .ok (compileText text)) (toBuf' : source'.toBuffer = .ok buffer')
    (compiled' : compile buffer' = .ok (compileText text')) (agree : Agree (scan text) (scan text')) :
    let r := parseWith grammarCompiler frames allocator source
    let r' := parseWith grammarCompiler frames allocator source'
    r' = r ∨ ∃ span span', r.outcome = .error (.rejected span) ∧
      r' = { r with outcome := .error (.rejected span') } := by
  simp only [parseWith_compileText toBuf compiled, parseWith_compileText toBuf' compiled']
  rcases compileText_agree agree with ⟨root, same, same'⟩ | ⟨span, span', rejected, rejected'⟩
  · rw [same, same']
    exact .inl rfl
  · rw [rejected, rejected']
    exact .inr ⟨span, span', rfl, rfl⟩

theorem clean_of_toBuffer_text {cs : List Nat} {buffer : List UInt8}
    (unicode : (Source.text cs).InUnicode) (checked : (Source.text cs).toBuffer = .ok buffer) :
    ∀ c ∈ cs, c ≠ 0 ∧ c.isValidChar := by
  simp only [Source.toBuffer] at checked
  split at checked
  · cases checked
  rename_i noNul
  split at checked
  · cases checked
  rename_i noRun
  intro c mem
  have nonzero : c ≠ 0 := by simpa using List.findIdx?_eq_none_iff.mp noNul c mem
  have plain : isSurrogate c = false := by
    unfold firstSurrogateRun at noRun
    split at noRun
    · cases noRun
    · rename_i noSurrogate
      exact List.findIdx?_eq_none_iff.mp noSurrogate c mem
  have below : c < 0x110000 := unicode c mem
  simp only [isSurrogate, Bool.and_eq_false_iff, decide_eq_false_iff_not, Nat.not_le] at plain
  exact ⟨nonzero, by simp only [Nat.isValidChar]; omega⟩

theorem toBuffer_bytes {bs : List UInt8} (noNul : (0 : UInt8) ∉ bs) :
    (Source.bytes bs).toBuffer = .ok (bs ++ [terminator]) := by
  have none : bs.findIdx? (· == 0) = none :=
    List.findIdx?_eq_none_iff.mpr fun b mem => by
      simp only [beq_eq_false_iff_ne, ne_eq]
      rintro rfl
      exact noNul mem
  simp [Source.toBuffer, none]

theorem compile_bytes (bs : List UInt8) :
    compile (bs ++ [terminator]) = .ok (compileText (decodeEscaped bs)) := by
  simp [compile]

theorem toNat_lt_of_isBlankSpace {c : Nat} (h : isBlankSpace c = true) : c < 0x80 := by
  simp only [isBlankSpace, Bool.or_eq_true, beq_iff_eq] at h
  omega

theorem layout_decodeEscaped {last : Bool} {g : List UInt8}
    (layout : Layout last (g.map UInt8.toNat)) : Layout last (decodeEscaped g) := by
  generalize codes : g.map UInt8.toNat = m at layout
  -- a byte whose code is `#` reads as `#`
  have hash : ∀ {x : UInt8} (rest : List UInt8), x.toNat = 0x23 →
      decodeEscaped (x :: rest) = 0x23 :: decodeEscaped rest := by
    intro x rest isHash
    rw [decodeEscaped_ascii_cons (by omega), isHash]
  -- nor does a comment's body gain a line feed by reading
  have plain : ∀ {body : List Nat} {b : List UInt8}, 0x0A ∉ body → b.map UInt8.toNat = body →
      0x0A ∉ decodeEscaped b := by
    intro body b noLine same mem
    exact noLine (same ▸ List.mem_map.mpr ⟨_, lineFeed_mem_of_decodeEscaped mem, rfl⟩)
  induction layout generalizing g with
  | nil =>
    obtain rfl := List.map_eq_nil_iff.mp codes
    simpa [decodeEscaped] using Layout.nil
  | blank isBlank _ ih =>
    obtain ⟨x, xs, rfl, same, rest⟩ := List.map_eq_cons_iff.mp codes
    rw [decodeEscaped_ascii_cons (same ▸ toNat_lt_of_isBlankSpace isBlank), same]
    exact .blank isBlank (ih rest)
  | comment noLine _ ih =>
    obtain ⟨opening, after, rfl, opens, rest⟩ := List.map_eq_append_iff.mp codes
    obtain ⟨x, b, rfl, isHash, body⟩ := List.map_eq_cons_iff.mp opens
    obtain ⟨y, zs, rfl, isLine, tail⟩ := List.map_eq_cons_iff.mp rest
    have ascii : ∀ z ∈ (y :: zs).head?, z.toNat < 0x80 := by
      intro z first
      simp only [List.head?_cons, Option.mem_def, Option.some.injEq] at first
      subst first
      omega
    rw [decodeEscaped_append _ ascii, hash b isHash, decodeEscaped_ascii_cons (by omega), isLine]
    exact .comment (plain noLine body) (ih tail)
  | final noLine =>
    obtain ⟨x, b, rfl, isHash, body⟩ := List.map_eq_cons_iff.mp codes
    rw [hash b isHash]
    exact .final (plain noLine body)

theorem decodeEscaped_splice {last : Bool} {pre g post : List UInt8}
    (layout : Layout last (g.map UInt8.toNat)) (filled : g ≠ []) (closed : last = false ∨ post = []) :
    decodeEscaped (pre ++ g ++ post) = decodeEscaped pre ++ decodeEscaped g ++ decodeEscaped post := by
  have opens : ∀ x ∈ (g ++ post).head?, x.toNat < 0x80 := by
    intro x first
    obtain ⟨y, ys, rfl⟩ := List.exists_cons_of_ne_nil filled
    simp only [List.cons_append, List.head?_cons, Option.mem_def, Option.some.injEq] at first
    subst first
    rcases layout.head y.toNat (by simp) with blank | isHash
    · exact toNat_lt_of_isBlankSpace blank
    · omega
  rw [List.append_assoc, decodeEscaped_append pre opens, List.append_assoc]
  rcases closed with closed | rfl
  · congr 1
    refine decodeEscaped_append_of_last post fun x final => ?_
    have blank := layout.getLast closed x.toNat
      (by rw [List.getLast?_map, Option.mem_def.mp final]; rfl)
    exact toNat_lt_of_isBlankSpace blank
  · simp [decodeEscaped]

def Report.SameButSpan (r r' : Report) : Prop :=
  r' = r ∨ ∃ span span', r.outcome = .error (.rejected span) ∧
    r' = { r with outcome := .error (.rejected span') }

theorem parseWith_text_relayout (frames : Frames) (allocator : Allocator) (pre gap post g : List Nat)
    (i : Nat) (unicode : (Source.text (pre ++ gap ++ post)).InUnicode)
    (checked : ∃ buffer, (Source.text (pre ++ gap ++ post)).toBuffer = .ok buffer)
    (cleanLayout : ∀ c ∈ g, c ≠ 0 ∧ c.isValidChar)
    (within : i ≤ (scan (pre ++ gap ++ post)).length)
    (scanned : i = (scan (pre ++ gap ++ post)).length → Scanned (scan (pre ++ gap ++ post)))
    (starts : pre.length = layoutStart (scan (pre ++ gap ++ post)) 0 i)
    (ends : (pre ++ gap).length =
      layoutEnd (scan (pre ++ gap ++ post)) (pre ++ gap ++ post).length i)
    (layout : Layout true g) (closed : i < (scan (pre ++ gap ++ post)).length → Layout false g)
    (filled : g ≠ []) :
    (parseWith grammarCompiler frames allocator (.text (pre ++ gap ++ post))).SameButSpan
      (parseWith grammarCompiler frames allocator (.text (pre ++ g ++ post))) := by
  obtain ⟨buffer, toBuf⟩ := checked
  have clean := clean_of_toBuffer_text unicode toBuf
  have clean' : ∀ c ∈ pre ++ g ++ post, c ≠ 0 ∧ c.isValidChar := by
    intro c mem
    simp only [List.mem_append] at mem
    rcases mem with (inPre | inLayout) | inPost
    · exact clean c (by simp [inPre])
    · exact cleanLayout c inLayout
    · exact clean c (by simp [inPost])
  -- the new text is the old one with the new layout in place of the old
  have spliced : (pre ++ gap ++ post).take (layoutStart (scan (pre ++ gap ++ post)) 0 i) ++ g ++
      (pre ++ gap ++ post).drop
        (layoutEnd (scan (pre ++ gap ++ post)) (pre ++ gap ++ post).length i) =
      pre ++ g ++ post := by
    rw [← starts, ← ends, List.drop_left' rfl, List.append_assoc pre gap post, List.take_left' rfl]
  have agree := scan_relayout (pre ++ gap ++ post) g i within scanned layout closed filled
  rw [spliced] at agree
  exact parseWith_agree (toBuffer_text clean) (compile_encode fun c mem => (clean c mem).2)
    (toBuffer_text clean') (compile_encode fun c mem => (clean' c mem).2) agree

theorem parseWith_bytes_relayout (frames : Frames) (allocator : Allocator)
    (pre gap post g : List UInt8) (text : List Nat) (i : Nat)
    (reads : decodeEscaped (pre ++ gap ++ post) = text) (noNul : (0 : UInt8) ∉ pre ++ gap ++ post)
    (noNulLayout : (0 : UInt8) ∉ g) (within : i ≤ (scan text).length)
    (scanned : i = (scan text).length → Scanned (scan text))
    (starts : decodeEscaped pre = text.take (layoutStart (scan text) 0 i))
    (ends : decodeEscaped post = text.drop (layoutEnd (scan text) text.length i))
    (layout : Layout true (g.map UInt8.toNat))
    (closed : i < (scan text).length → Layout false (g.map UInt8.toNat)) (filled : g ≠ []) :
    (parseWith grammarCompiler frames allocator (.bytes (pre ++ gap ++ post))).SameButSpan
      (parseWith grammarCompiler frames allocator (.bytes (pre ++ g ++ post))) := by
  have noNul' : (0 : UInt8) ∉ pre ++ g ++ post := by
    simp only [List.mem_append, not_or] at noNul ⊢
    exact ⟨⟨noNul.1.1, noNulLayout⟩, noNul.2⟩
  -- the new bytes read as the old text with the new layout in place of the old
  have spliced : decodeEscaped (pre ++ g ++ post) = text.take (layoutStart (scan text) 0 i) ++
      decodeEscaped g ++ text.drop (layoutEnd (scan text) text.length i) := by
    rw [← starts, ← ends]
    by_cases short : i < (scan text).length
    · exact decodeEscaped_splice (closed short) filled (.inl rfl)
    · -- after the last token the layout ends the source
      have atEnd : i = (scan text).length := by omega
      rw [atEnd, layoutEnd_length, List.drop_length] at ends
      exact decodeEscaped_splice layout filled (.inr (decodeEscaped_eq_nil ends))
  have agree := scan_relayout text (decodeEscaped g) i within scanned (layout_decodeEscaped layout)
    (fun short => layout_decodeEscaped (closed short)) (fun empty => filled (decodeEscaped_eq_nil empty))
  rw [← spliced] at agree
  exact parseWith_agree (toBuffer_bytes noNul) (reads ▸ compile_bytes _) (toBuffer_bytes noNul')
    (compile_bytes _) agree

/-- Replacing the whole layout after the first `i` tokens of a source by other layout that is not
empty gives the same report, but that a syntax error may stand elsewhere. With `i` at 0 that is
the layout before the first token, at the number of tokens the layout after the last, which then
reaches the end of a source that scans to its end. A comment of the new layout ends with a line
feed but at the end of the source. For text the new layout holds no NUL and only Unicode scalar
values; for bytes no NUL byte, and its comments may hold bytes that are not UTF-8, the bytes
around it placed by what they read as. -/
theorem parseWith_relayout (frames : Frames) (allocator : Allocator) :
    (∀ pre gap post g : List Nat, ∀ i : Nat,
      let cs := pre ++ gap ++ post
      (Source.text cs).InUnicode → (∃ buffer, (Source.text cs).toBuffer = .ok buffer) →
      (∀ c ∈ g, c ≠ 0 ∧ c.isValidChar) →
      i ≤ (scan cs).length → (i = (scan cs).length → Scanned (scan cs)) →
      pre.length = layoutStart (scan cs) 0 i → (pre ++ gap).length = layoutEnd (scan cs) cs.length i →
      Layout true g → (i < (scan cs).length → Layout false g) → g ≠ [] →
      (parseWith grammarCompiler frames allocator (.text cs)).SameButSpan
        (parseWith grammarCompiler frames allocator (.text (pre ++ g ++ post)))) ∧
    (∀ pre gap post g : List UInt8, ∀ i : Nat,
      let text := decodeEscaped (pre ++ gap ++ post)
      (0 : UInt8) ∉ pre ++ gap ++ post → (0 : UInt8) ∉ g →
      i ≤ (scan text).length → (i = (scan text).length → Scanned (scan text)) →
      decodeEscaped pre = text.take (layoutStart (scan text) 0 i) →
      decodeEscaped post = text.drop (layoutEnd (scan text) text.length i) →
      Layout true (g.map UInt8.toNat) → (i < (scan text).length → Layout false (g.map UInt8.toNat)) →
      g ≠ [] →
      (parseWith grammarCompiler frames allocator (.bytes (pre ++ gap ++ post))).SameButSpan
        (parseWith grammarCompiler frames allocator (.bytes (pre ++ g ++ post)))) :=
  ⟨fun pre gap post g i => parseWith_text_relayout frames allocator pre gap post g i,
    fun pre gap post g i => parseWith_bytes_relayout frames allocator pre gap post g _ i rfl⟩

theorem parseWith_relayout_sample :
    (parseWith grammarCompiler Frames.counting {} (.text [0x61, 0x20, 0x28, 0x29])).SameButSpan
      (parseWith grammarCompiler Frames.counting {} (.text [0x61, 0x23, 0x0A, 0x28, 0x29])) ∧
    (parseWith grammarCompiler Frames.counting {}
        (.bytes [0x61, 0x20, 0x23, 0xFF, 0x0A, 0x28, 0x29])).SameButSpan
      (parseWith grammarCompiler Frames.counting {} (.bytes [0x61, 0x09, 0x28, 0x29])) :=
  ⟨(parseWith_relayout Frames.counting {}).1 [0x61] [0x20] [0x28, 0x29] [0x23, 0x0A] 1
      (by decide) ⟨_, toBuffer_text (by decide)⟩ (by decide) (by decide +kernel)
      (fun atEnd => absurd atEnd (by decide +kernel)) (by decide +kernel) (by decide +kernel)
      (@Layout.comment _ [] [] (by decide) .nil) (fun _ => @Layout.comment _ [] [] (by decide) .nil)
      (List.cons_ne_nil _ _),
    (parseWith_relayout Frames.counting {}).2 [0x61] [0x20, 0x23, 0xFF, 0x0A] [0x28, 0x29] [0x09] 1
      (by decide) (by decide) (by decide +kernel) (fun atEnd => absurd atEnd (by decide +kernel))
      (by decide +kernel) (by decide +kernel) (.blank (by decide) .nil) (fun _ => .blank (by decide) .nil)
      (List.cons_ne_nil _ _)⟩

theorem parse_partial_relayout_extends_comment :
    parse (.text [0x61, 0x20, 0x23, 0x20, 0x63, 0x0A, 0x20, 0x62]) =
        .error (.rejected ⟨some 2, some 2, some 7⟩) ∧
      (parse (.text [0x61, 0x20, 0x23, 0x20, 0x63, 0x09, 0x62])).isOk = true := by
  constructor
  · have rejected : (match parse (.text [0x61, 0x20, 0x23, 0x20, 0x63, 0x0A, 0x20, 0x62]) with
        | .error e => decide (e = .rejected ⟨some 2, some 2, some 7⟩)
        | .ok _ => false) = true := by
      decide +kernel
    split at rejected
    · rename_i e read
      rw [read, of_decide_eq_true rejected]
    · cases rejected
  · decide +kernel

end ArtifactNames
