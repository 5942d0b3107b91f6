import ArtifactNames.Proofs.Name.BuildSound
import ArtifactNames.Proofs.Syntax.ReadSound
import ArtifactNames.Name.Parse

/-! What reading a source gives: a name or a classified failure, never a tree of the wrong shape,
and the name is representable. -/

namespace ArtifactNames

open Syntax Text Storage Walk

/-- Every code point of a text source lies in Unicode's range, as every code point of a string
does; a byte source needs nothing. -/
def Source.InUnicode : Source → Prop
  | .text cs => ∀ c ∈ cs, c < 0x110000
  | .bytes _ => True

instance : DecidablePred Source.InUnicode
  | .text cs => inferInstanceAs (Decidable (∀ c ∈ cs, c < 0x110000))
  | .bytes _ => inferInstanceAs (Decidable True)

theorem zero_eq_toUInt8 {n : Nat} : (0 : UInt8) = n.toUInt8 ↔ n % 256 = 0 := by
  rw [← UInt8.toNat_inj, toNat_toUInt8, UInt8.toNat_zero, eq_comm]

theorem zero_not_mem_encodeChar {c : Nat} (pos : 0 < c) (lt : c < 0x110000) :
    (0 : UInt8) ∉ encodeChar c := by
  intro mem
  unfold encodeChar at mem
  -- a lead byte stays below 0xF5 in Unicode's range, and a continuation byte is at least 0x80
  repeat' split at mem
  all_goals
    simp only [List.mem_cons, List.not_mem_nil, or_false, zero_eq_toUInt8, Bool.and_eq_true,
      decide_eq_true_eq] at *
    omega

theorem zero_not_mem_encode {cs : List Nat} (h : ∀ c ∈ cs, 0 < c ∧ c < 0x110000) :
    (0 : UInt8) ∉ encode cs := by
  simp only [encode, List.mem_flatMap, not_exists, not_and]
  exact fun c mem => zero_not_mem_encodeChar (h c mem).1 (h c mem).2

theorem toBuffer_body {source : Source} {buffer : List UInt8} (unicode : source.InUnicode)
    (h : source.toBuffer = .ok buffer) : ∃ body, buffer = body ++ [terminator] ∧ (0 : UInt8) ∉ body := by
  cases source with
  | text cs =>
    simp only [Source.toBuffer] at h
    split at h
    · cases h
    · rename_i noNul
      split at h
      · cases h
      · cases h
        refine ⟨_, rfl, zero_not_mem_encode fun c mem => ⟨?_, unicode c mem⟩⟩
        have nonzero : c ≠ 0 := by simpa using List.findIdx?_eq_none_iff.mp noNul c mem
        omega
  | bytes bs =>
    simp only [Source.toBuffer] at h
    split at h
    · cases h
    · rename_i noNul
      cases h
      exact ⟨bs, rfl, fun mem => by simpa using List.findIdx?_eq_none_iff.mp noNul 0 mem⟩

theorem grammarCompiler_readName {buffer : List UInt8} {root : Node}
    (h : grammarCompiler buffer = some (.tree root)) :
    readName (scan (decodeEscaped buffer.dropLast)) = .ok root := by
  unfold grammarCompiler at h
  split at h
  · rename_i compiled compiles
    cases h
    unfold compile at compiles
    split at compiles
    · simp only [Except.ok.injEq, compileText] at compiles
      split at compiles
      · rename_i node read
        cases compiles
        exact read
      · cases compiles
    · cases compiles
  · cases h

theorem grammarCompiler_nameTree {buffer : List UInt8} {root : Node}
    (h : grammarCompiler buffer = some (.tree root)) :
    ∃ nch, root = .tree "name" nch ∧ NameTree (· ⊆ decodeEscaped buffer.dropLast) nch := by
  refine readName_sound (fun t mem => ?_) (grammarCompiler_readName h)
  obtain ⟨word, sub⟩ := mem_tokensFrom mem
  exact ⟨word, sub⟩

theorem parseWith_grammarCompiler (frames : Frames) (allocator : Allocator) (source : Source) :
    match (parseWith grammarCompiler frames allocator source).outcome with
    | .ok n => ∃ buffer, source.toBuffer = .ok buffer ∧
        (CleanTexts (· ⊆ decodeEscaped buffer.dropLast) → n.representable = true)
    | .error e => e.Classified := by
  unfold parseWith
  cases toBuf : source.toBuffer with
  | error fault => exact trivial
  | ok buffer =>
    dsimp only
    cases compiled : grammarCompiler buffer with
    | none => exact trivial
    | some c =>
      cases c with
      | rejected span => exact trivial
      | tree root =>
        dsimp only
        obtain ⟨nch, rfl, tree⟩ := grammarCompiler_nameTree compiled
        have walk : Ensures (buildRoot frames (.tree "name" nch)) _ := tree.ensures_buildRoot
        have run := walk ⟨allocator, #[]⟩
        generalize (buildRoot frames (.tree "name" nch)).run.run ⟨allocator, #[]⟩ = r at run ⊢
        obtain ⟨outcome, state⟩ := r
        cases outcome with
        | ok n => exact ⟨buffer, rfl, run⟩
        | error e => exact run

/-- Reading through the grammar never meets a tree of the wrong shape: for every source, frames and
allocator it gives a name or fails in one of the classified ways. -/
theorem parseWith_ne_malformed (frames : Frames) (allocator : Allocator) (source : Source)
    (mismatch : Mismatch) :
    (parseWith grammarCompiler frames allocator source).outcome ≠ .error (.malformed mismatch) := by
  intro malformed
  have classified := parseWith_grammarCompiler frames allocator source
  rw [malformed] at classified
  exact classified

/-- Every name read from a source is representable: printing it gives text that reads back to it. -/
theorem parseWith_representable {frames : Frames} {allocator : Allocator} {source : Source} {n : Name}
    (unicode : source.InUnicode) (read : (parseWith grammarCompiler frames allocator source).outcome = .ok n) :
    n.representable = true := by
  have outcome := parseWith_grammarCompiler frames allocator source
  rw [read] at outcome
  obtain ⟨buffer, toBuf, representable⟩ := outcome
  obtain ⟨body, rfl, noNul⟩ := toBuffer_body unicode toBuf
  refine representable fun t within c mem => ?_
  rw [List.dropLast_concat] at within
  have decoded := decodeEscaped_pos_lt noNul c (within mem)
  exact ⟨Nat.pos_iff_ne_zero.mp decoded.1, decoded.2⟩

theorem parseWith_representable_sample : ∃ n,
    (parseWith grammarCompiler Frames.granting {} (.text [0x6c, 0x65, 0x74, 0x20, 0x5f, 0x20, 0x3d,
      0x20, 0x6e, 0x73, 0x3a, 0x3a, 0x66, 0x5b, 0x6b, 0x3d, 0x22, 0x76, 0x22, 0x2c, 0x20, 0x6e, 0x3d,
      0x31, 0x5d, 0x28, 0x78, 0x3a, 0x20, 0x79, 0x2e, 0x6f, 0x75, 0x74, 0x29, 0x3b, 0x20, 0x23, 0x20,
      0x6e, 0x6f, 0x74, 0x65, 0x0a, 0x5f, 0x67])).outcome = .ok n ∧ n.representable = true := by
  have ok : (parseWith grammarCompiler Frames.granting {} (.text [0x6c, 0x65, 0x74, 0x20, 0x5f, 0x20,
      0x3d, 0x20, 0x6e, 0x73, 0x3a, 0x3a, 0x66, 0x5b, 0x6b, 0x3d, 0x22, 0x76, 0x22, 0x2c, 0x20, 0x6e,
      0x3d, 0x31, 0x5d, 0x28, 0x78, 0x3a, 0x20, 0x79, 0x2e, 0x6f, 0x75, 0x74, 0x29, 0x3b, 0x20, 0x23,
      0x20, 0x6e, 0x6f, 0x74, 0x65, 0x0a, 0x5f, 0x67])).outcome.isOk = true := by
    decide +kernel
  revert ok
  cases read : (parseWith grammarCompiler Frames.granting {} _).outcome with
  | error e => simp [Except.isOk, Except.toBool]
  | ok n => exact fun _ => ⟨n, rfl, parseWith_representable (by decide) read⟩

end ArtifactNames
