import ArtifactNames.Proofs.Syntax.ReadLayout
import ArtifactNames.Proofs.Name.BuildTree
import ArtifactNames.Name.Parse

/-! Printing a name and parsing the text gives the name back: the text decodes to itself, reads as
the name's tree (`Name.reads`), and the walk builds the name from it (`Name.builds_tree`). -/

namespace ArtifactNames

open Syntax Text Storage Walk

theorem toBuffer_text {cs : List Nat} (h : ∀ c ∈ cs, c ≠ 0 ∧ c.isValidChar) :
    (Source.text cs).toBuffer = .ok (encode cs ++ [terminator]) := by
  have noNul : cs.findIdx? (· == 0) = none :=
    List.findIdx?_eq_none_iff.mpr fun c mem => by simpa using (h c mem).1
  simp [Source.toBuffer, noNul, firstSurrogateRun_eq_none fun c mem => (h c mem).2]

theorem compile_encode {cs : List Nat} (h : ∀ c ∈ cs, c.isValidChar) :
    compile (encode cs ++ [terminator]) = .ok (compileText cs) := by
  simp [compile, decodeEscaped_encode h]

theorem readName_of_reads {toks : List Token} {node : Node} (h : Reads (name toks) node []) :
    readName toks = .ok node := by
  obtain ⟨_, e⟩ := h
  simp [readName, e]

theorem Name.readName_render (n : Name) (h : n.representable = true) :
    readName (scan n.render) = .ok n.tree := by
  have reads := Name.reads n h (Name.scan_render h) [] (by simp [Closes])
  exact readName_of_reads (reads.of_toks_eq name (List.append_nil _))

/-- A name that text can hold, printed and parsed, is itself. -/
theorem parse_render (n : Name) (h : n.representable = true) (shallow : n.depth ≤ 100) :
    parse (.text n.render) = .ok n := by
  have clean := Name.clean_render h
  have walk : Yields (buildRoot Frames.granting n.tree) n :=
    Name.builds_tree n h (by simp [Frames.granting, Frames.stackLimit]; omega)
  obtain ⟨_, -, run⟩ := walk ⟨{}, #[]⟩ rfl
  unfold parse parseWith grammarCompiler
  simp only [toBuffer_text clean, compile_encode fun c mem => (clean c mem).2, compileText,
    Name.readName_render n h, run]

theorem parse_render_sample :
    parse (.text (Name.render ⟨[⟨some "x", ⟨.atomic none ⟨"a", []⟩, []⟩⟩],
      ⟨.atomic (some (.builtin ⟨"ns", []⟩)) ⟨"f", [⟨"k", "v"⟩]⟩,
        [⟨some "name", ⟨⟨.var "x", []⟩, some "out"⟩⟩]⟩⟩)) =
      .ok ⟨[⟨some "x", ⟨.atomic none ⟨"a", []⟩, []⟩⟩],
        ⟨.atomic (some (.builtin ⟨"ns", []⟩)) ⟨"f", [⟨"k", "v"⟩]⟩,
          [⟨some "name", ⟨⟨.var "x", []⟩, some "out"⟩⟩]⟩⟩ :=
  parse_render _ (by decide) (by decide)

end ArtifactNames
