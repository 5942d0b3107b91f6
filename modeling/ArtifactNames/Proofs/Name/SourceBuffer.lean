import ArtifactNames.Proofs.Name.Layout

/-! From a source to the buffer the compiler reads: a text is refused at its first NUL, else at its
first surrogate, bytes at their first NUL; a text that passes decodes back to itself. -/

namespace ArtifactNames

open Syntax Text Storage

theorem findIdx?_eq_of_first {α : Type} {p : α → Bool} {xs : List α} {i : Nat} {x : α}
    (found : xs[i]? = some x) (hit : p x = true) (before : ∀ y ∈ xs.take i, p y = false) :
    xs.findIdx? p = some i := by
  obtain ⟨lt, rfl⟩ := List.getElem?_eq_some_iff.mp found
  refine List.findIdx?_eq_some_iff_getElem.mpr ⟨lt, hit, fun j earlier => ?_⟩
  rw [before xs[j] (List.mem_take_iff_getElem.mpr ⟨j, by omega, rfl⟩)]
  exact Bool.false_ne_true

theorem findIdx?_beq_zero {α : Type} [BEq α] [LawfulBEq α] [Zero α] {xs : List α} {p : Nat}
    (found : xs[p]? = some 0) (before : (0 : α) ∉ xs.take p) : xs.findIdx? (· == 0) = some p :=
  findIdx?_eq_of_first found (beq_self_eq_true 0) fun _ mem =>
    beq_false_of_ne fun zero => before (zero ▸ mem)

namespace Source

theorem toBuffer_nulCharacter {cs : List Nat} {p : Nat} (found : cs[p]? = some 0)
    (before : 0 ∉ cs.take p) : (Source.text cs).toBuffer = .error (.nulCharacter p) := by
  simp [toBuffer, findIdx?_beq_zero found before]

theorem toBuffer_unencodable {cs : List Nat} {p c : Nat} (noNul : 0 ∉ cs) (found : cs[p]? = some c)
    (surrogate : isSurrogate c = true) (before : ∀ d ∈ cs.take p, isSurrogate d = false) :
    (Source.text cs).toBuffer = .error (.unencodable p) := by
  have none : cs.findIdx? (· == 0) = none :=
    List.findIdx?_eq_none_iff.mpr fun c mem => beq_false_of_ne fun zero => noNul (zero ▸ mem)
  have first : cs.findIdx? isSurrogate = some p := findIdx?_eq_of_first found surrogate before
  simp [toBuffer, none, firstSurrogateRun, first]

theorem toBuffer_nulByte {bs : List UInt8} {p : Nat} (found : bs[p]? = some 0)
    (before : 0 ∉ bs.take p) : (Source.bytes bs).toBuffer = .error (.nulByte p) := by
  simp [toBuffer, findIdx?_beq_zero found before]

end Source

theorem parseWith_of_toBuffer_error {compiler : Compiler} {frames : Frames} {allocator : Allocator}
    {source : Source} {fault : InputFault} (h : source.toBuffer = .error fault) :
    parseWith compiler frames allocator source = ⟨.error (.invalidInput fault), allocator, 0, [], []⟩ := by
  simp [parseWith, h]

theorem isValidChar_of_not_surrogate {c : Nat} (unicode : c < 0x110000) (plain : isSurrogate c = false) :
    c.isValidChar := by
  simp only [isSurrogate, Bool.and_eq_false_iff, decide_eq_false_iff_not, Nat.not_le] at plain
  simp only [Nat.isValidChar]
  omega

/-- How a source becomes what the compiler reads. A text source is refused at the index of its
first NUL, even when a surrogate comes earlier; without a NUL, at the index of its first surrogate;
and the compiler never runs on a refused source. Otherwise the compiler is handed the UTF-8 of the
text and the terminator, and the grammar decodes exactly the text back from it and reads that. A
byte source is refused at the index of its first NUL byte, and is otherwise handed over as it is,
with the terminator. -/
theorem parseWith_source_buffer (compiler : Compiler) (frames : Frames) (allocator : Allocator) :
    (∀ cs p, cs[p]? = some 0 → 0 ∉ cs.take p →
      parseWith compiler frames allocator (.text cs) =
        ⟨.error (.invalidInput (.nulCharacter p)), allocator, 0, [], []⟩) ∧
    (∀ cs p c, 0 ∉ cs → cs[p]? = some c → isSurrogate c = true →
      (∀ d ∈ cs.take p, isSurrogate d = false) →
      parseWith compiler frames allocator (.text cs) =
        ⟨.error (.invalidInput (.unencodable p)), allocator, 0, [], []⟩) ∧
    (∀ cs, (∀ c ∈ cs, c < 0x110000) → 0 ∉ cs → (∀ c ∈ cs, isSurrogate c = false) →
      (Source.text cs).toBuffer = .ok (encode cs ++ [terminator]) ∧
      decodeEscaped (encode cs) = cs ∧
      grammarCompiler (encode cs ++ [terminator]) = some (compileText cs)) ∧
    (∀ bs p, bs[p]? = some 0 → 0 ∉ bs.take p →
      parseWith compiler frames allocator (.bytes bs) =
        ⟨.error (.invalidInput (.nulByte p)), allocator, 0, [], []⟩) ∧
    (∀ bs, 0 ∉ bs → (Source.bytes bs).toBuffer = .ok (bs ++ [terminator])) := by
  refine ⟨fun cs p found before => parseWith_of_toBuffer_error (Source.toBuffer_nulCharacter found before),
    fun cs p c noNul found surrogate before =>
      parseWith_of_toBuffer_error (Source.toBuffer_unencodable noNul found surrogate before),
    fun cs unicode noNul plain => ?_,
    fun bs p found before => parseWith_of_toBuffer_error (Source.toBuffer_nulByte found before),
    fun bs noNul => toBuffer_bytes noNul⟩
  have scalar : ∀ c ∈ cs, c.isValidChar := fun c mem =>
    isValidChar_of_not_surrogate (unicode c mem) (plain c mem)
  refine ⟨toBuffer_text fun c mem => ⟨fun zero => noNul (zero ▸ mem), scalar c mem⟩,
    decodeEscaped_encode scalar, ?_⟩
  simp [grammarCompiler, compile_encode scalar]

theorem parseWith_source_buffer_sample :
    parseWith silentCompiler Frames.granting {} (.text [0xD800, 0x61, 0, 0]) =
      ⟨.error (.invalidInput (.nulCharacter 2)), {}, 0, [], []⟩ ∧
    parseWith silentCompiler Frames.granting {} (.text [0x61, 0xDC80, 0xD800]) =
      ⟨.error (.invalidInput (.unencodable 1)), {}, 0, [], []⟩ ∧
    decodeEscaped (encode [0x61, 0xE9, 0x2028, 0x1F600]) = [0x61, 0xE9, 0x2028, 0x1F600] ∧
    parseWith silentCompiler Frames.granting {} (.bytes [0x61, 0xFF, 0, 0]) =
      ⟨.error (.invalidInput (.nulByte 2)), {}, 0, [], []⟩ ∧
    (Source.bytes [0x61, 0xFF]).toBuffer = .ok [0x61, 0xFF, terminator] := by
  have parts := parseWith_source_buffer silentCompiler Frames.granting {}
  exact ⟨parts.1 _ _ (by decide) (by decide), parts.2.1 _ _ 0xDC80 (by decide) (by decide) (by decide) (by decide),
    (parts.2.2.1 _ (by decide) (by decide) (by decide)).2.1, parts.2.2.2.1 _ _ (by decide) (by decide),
    parts.2.2.2.2 _ (by decide)⟩

end ArtifactNames
