import ArtifactNames.Proofs.Name.InvalidText
import ArtifactNames.Proofs.Text.Boundary

/-! Reading bytes with escapes, held to UTF-8 itself (`ReadsEscaped`). Main statement
(`decodeEscaped_utf8_validated_alike`): lenient reading is that reading, writing it back gives the
bytes, and strict reading accepts exactly the bytes whose lenient reading is encodable text. -/

namespace ArtifactNames

open Syntax

namespace Text

/-! ## Writing a scalar value -/

theorem toUInt8_eq_of_toNat {n : Nat} {b : UInt8} (h : n = b.toNat) : n.toUInt8 = b :=
  h ▸ UInt8.ofNat_toNat

theorem not_escapeRange {c : Nat} (h : c < 0xDC80 ∨ 0xDCFF < c) :
    ¬(0xDC80 ≤ c && c ≤ 0xDCFF) = true := by
  simp only [Bool.and_eq_true, decide_eq_true_eq]
  omega

theorem encodeChar_ascii {b : UInt8} (h : b.toNat < 0x80) : encodeChar b.toNat = [b] := by
  rw [encodeChar, if_neg (not_escapeRange (by omega)), if_pos h, toUInt8_eq_of_toNat rfl]

/-! The value a step reads from two, three or four bytes is written back as those bytes. -/

theorem encodeChar_two {lead b1 : UInt8} (lo : 0xC2 ≤ lead.toNat) (hi : lead.toNat < 0xE0)
    (h1 : isContinuation b1) :
    encodeChar ((lead.toNat % 32) * 64 + payloadBits b1) = [lead, b1] := by
  have c1 := (isContinuation_iff b1).mp h1
  unfold payloadBits
  rw [encodeChar, if_neg (not_escapeRange (by omega)), if_neg (by omega), if_pos (by omega),
    toUInt8_eq_of_toNat (by omega : _ = lead.toNat), toUInt8_eq_of_toNat (by omega : _ = b1.toNat)]

theorem encodeChar_three {lead b1 b2 : UInt8} (lo : 0xE0 ≤ lead.toNat) (hi : lead.toNat < 0xF0)
    (h1 : secondOfThree lead b1) (h2 : isContinuation b2) :
    encodeChar ((lead.toNat % 16) * 4096 + payloadBits b1 * 64 + payloadBits b2) =
      [lead, b1, b2] := by
  have c1 := (secondOfThree_iff lead b1).mp h1
  have c2 := (isContinuation_iff b2).mp h2
  unfold payloadBits
  -- after `ED` the second byte stays below `A0`, so the value stays below the surrogates
  rw [encodeChar, if_neg (not_escapeRange (by omega)), if_neg (by omega), if_neg (by omega),
    if_pos (by omega), toUInt8_eq_of_toNat (by omega : _ = lead.toNat),
    toUInt8_eq_of_toNat (by omega : _ = b1.toNat), toUInt8_eq_of_toNat (by omega : _ = b2.toNat)]

theorem encodeChar_four {lead b1 b2 b3 : UInt8} (lo : 0xF0 ≤ lead.toNat) (hi : lead.toNat < 0xF5)
    (h1 : secondOfFour lead b1) (h2 : isContinuation b2) (h3 : isContinuation b3) :
    encodeChar ((lead.toNat % 8) * 262144 + payloadBits b1 * 4096 + payloadBits b2 * 64
      + payloadBits b3) = [lead, b1, b2, b3] := by
  have c1 := (secondOfFour_iff lead b1).mp h1
  have c2 := (isContinuation_iff b2).mp h2
  have c3 := (isContinuation_iff b3).mp h3
  unfold payloadBits
  rw [encodeChar, if_neg (not_escapeRange (by omega)), if_neg (by omega), if_neg (by omega),
    if_neg (by omega), toUInt8_eq_of_toNat (by omega : _ = lead.toNat),
    toUInt8_eq_of_toNat (by omega : _ = b1.toNat), toUInt8_eq_of_toNat (by omega : _ = b2.toNat),
    toUInt8_eq_of_toNat (by omega : _ = b3.toNat)]

theorem isSurrogate_of_isValidChar {c : Nat} (h : c.isValidChar) : isSurrogate c = false := by
  rw [isSurrogate_eq_false_iff]
  unfold Nat.isValidChar at h
  omega

/-! ## One step of reading -/

theorem decodeStep_scalar_encodeChar {lead : UInt8} {rest : List UInt8} {v w : Nat}
    (h : decodeStep lead rest = .scalar v w) : (lead :: rest).take w = encodeChar v := by
  unfold decodeStep at h
  -- every branch but the four that read a scalar ends in a fault
  repeat' split at h
  all_goals cases h
  all_goals simp only [UInt8.lt_iff_toNat_lt, UInt8.reduceToNat, Bool.not_eq_eq_eq_not,
    Bool.not_true, Bool.not_eq_false, List.take_succ_cons, List.take_zero] at *
  next => exact (encodeChar_ascii (by assumption)).symm
  next => exact (encodeChar_two (by omega) (by omega) (by assumption)).symm
  next => exact (encodeChar_three (by omega) (by omega) (by assumption) (by assumption)).symm
  next =>
    exact (encodeChar_four (by omega) (by omega) (by assumption) (by assumption)
      (by assumption)).symm

theorem decodeStep_fault_continuations {lead : UInt8} {rest : List UInt8} {r : DecodeFault}
    {w : Nat} (h : decodeStep lead rest = .fault r w) :
    ∀ b ∈ rest.take (w - 1), isContinuation b = true := by
  unfold decodeStep at h
  repeat' split at h
  -- a fault wider than one byte takes only bytes that passed as continuations
  all_goals cases h
  all_goals simp_all [secondOfThree, secondOfFour]

theorem decodeStep_continuation {b : UInt8} (h : isContinuation b = true) (rest : List UInt8) :
    decodeStep b rest = .fault .invalidStart 1 := by
  have bounds := (isContinuation_iff b).mp h
  have a : ¬b < 0x80 := by rw [UInt8.lt_iff_toNat_lt]; simp; omega
  have c : b < 0xC2 := by rw [UInt8.lt_iff_toNat_lt]; simp; omega
  simp [decodeStep, a, c]

theorem decodeEscaped_continuations {bs : List UInt8} (h : ∀ b ∈ bs, isContinuation b = true)
    (rest : List UInt8) : decodeEscaped (bs ++ rest) = bs.map escapeByte ++ decodeEscaped rest := by
  induction bs with
  | nil => rfl
  | cons b bs ih =>
    rw [List.cons_append, decodeEscaped_cons, decodeStep_continuation (h b (by simp)) _]
    simp [DecodeStep.width, ih fun x mem => h x (List.mem_cons_of_mem b mem)]

theorem decodeEscaped_cons_of_fault {lead : UInt8} {rest : List UInt8} {r : DecodeFault}
    {w : Nat} (h : decodeStep lead rest = .fault r w) :
    decodeEscaped (lead :: rest) = escapeByte lead :: decodeEscaped rest := by
  have positive := decodeStep_width_pos lead rest
  rw [h] at positive
  obtain ⟨k, rfl⟩ : ∃ k, w = k + 1 := ⟨w - 1, by simp only [DecodeStep.width] at positive; omega⟩
  have inside := decodeStep_fault_continuations h
  rw [Nat.add_sub_cancel] at inside
  -- the other `k` bytes of the fault are read again from `rest`, each as a fault of its own
  conv => rhs; rw [← List.take_append_drop k rest, decodeEscaped_continuations inside]
  rw [decodeEscaped_cons, h]
  simp [DecodeStep.width]

/-! ## Reading with escapes -/

def StartsScalar (bytes : List UInt8) : Prop :=
  ∃ c rest, c.isValidChar ∧ bytes = encodeChar c ++ rest

/-- UTF-8 with escapes reads `bytes` as `cs`: a well-formed sequence reads as its scalar value, and
a byte where none starts reads as its escape code point, one of `DC80`–`DCFF`
(`le_of_not_startsScalar`). -/
inductive ReadsEscaped : List UInt8 → List Nat → Prop where
  | nil : ReadsEscaped [] []
  | scalar {c : Nat} {rest : List UInt8} {cs : List Nat} (valid : c.isValidChar)
      (more : ReadsEscaped rest cs) : ReadsEscaped (encodeChar c ++ rest) (c :: cs)
  | escape {b : UInt8} {rest : List UInt8} {cs : List Nat} (stray : ¬StartsScalar (b :: rest))
      (more : ReadsEscaped rest cs) : ReadsEscaped (b :: rest) (escapeByte b :: cs)

theorem startsScalar_of_decodeStep {lead : UInt8} {rest : List UInt8} {v w : Nat}
    (h : decodeStep lead rest = .scalar v w) :
    v.isValidChar ∧ lead :: rest = encodeChar v ++ (lead :: rest).drop w := by
  have bound := (decodeStep_scalar_bound h).1
  have plain := (isSurrogate_eq_false_iff v).mp (decodeStep_scalar_plain h)
  refine ⟨by unfold Nat.isValidChar; omega, ?_⟩
  rw [← decodeStep_scalar_encodeChar h, List.take_append_drop]

theorem not_startsScalar_of_fault {lead : UInt8} {rest : List UInt8} {r : DecodeFault} {w : Nat}
    (h : decodeStep lead rest = .fault r w) : ¬StartsScalar (lead :: rest) := by
  rintro ⟨c, more, valid, parts⟩
  have escaped := decodeEscaped_cons_of_fault h
  rw [parts, decodeEscaped_encodeChar_append valid, List.cons.injEq] at escaped
  have surrogate := isSurrogate_escapeByte lead
  rw [← escaped.1, isSurrogate_of_isValidChar valid] at surrogate
  cases surrogate

theorem decodeEscaped_cons_of_not_startsScalar {b : UInt8} {rest : List UInt8}
    (stray : ¬StartsScalar (b :: rest)) :
    decodeEscaped (b :: rest) = escapeByte b :: decodeEscaped rest := by
  cases step : decodeStep b rest with
  | scalar v w => exact absurd ⟨v, _, startsScalar_of_decodeStep step⟩ stray
  | fault r w => exact decodeEscaped_cons_of_fault step

theorem readsEscaped_decodeEscaped (bytes : List UInt8) :
    ReadsEscaped bytes (decodeEscaped bytes) := by
  -- a step reads a whole sequence or one byte, so the induction is on the number of bytes
  induction size : bytes.length using Nat.strong_induction_on generalizing bytes with
  | _ n ih =>
  match bytes with
  | [] => rw [decodeEscaped.eq_1]; exact .nil
  | lead :: rest =>
    cases step : decodeStep lead rest with
    | scalar v w =>
      obtain ⟨valid, parts⟩ := startsScalar_of_decodeStep step
      have positive := decodeStep_width_pos lead rest
      rw [step] at positive
      have shorter : ((lead :: rest).drop w).length < n := by
        simp only [DecodeStep.width] at positive
        rw [List.length_drop, size]
        have : 0 < n := size ▸ Nat.succ_pos _
        omega
      have reads := ReadsEscaped.scalar valid (ih _ shorter _ rfl)
      rwa [← parts, ← decodeEscaped_cons_of_scalar step] at reads
    | fault r w =>
      rw [decodeEscaped_cons_of_fault step]
      exact .escape (not_startsScalar_of_fault step) (ih _ (by simp [← size]) _ rfl)

theorem ReadsEscaped.eq_decodeEscaped {bytes : List UInt8} {cs : List Nat}
    (h : ReadsEscaped bytes cs) : decodeEscaped bytes = cs := by
  induction h with
  | nil => simp [decodeEscaped]
  | scalar valid _ ih => rw [decodeEscaped_encodeChar_append valid, ih]
  | escape stray _ ih => rw [decodeEscaped_cons_of_not_startsScalar stray, ih]

theorem readsEscaped_iff (bytes : List UInt8) (cs : List Nat) :
    ReadsEscaped bytes cs ↔ decodeEscaped bytes = cs :=
  ⟨ReadsEscaped.eq_decodeEscaped, fun h => h ▸ readsEscaped_decodeEscaped bytes⟩

theorem le_of_not_startsScalar {b : UInt8} {rest : List UInt8} (stray : ¬StartsScalar (b :: rest)) :
    0x80 ≤ b.toNat := by
  by_contra ascii
  exact stray ⟨b.toNat, rest, by unfold Nat.isValidChar; omega,
    by rw [encodeChar_ascii (by omega), List.singleton_append]⟩

theorem encodeChar_escapeByte {b : UInt8} (high : 0x80 ≤ b.toNat) :
    encodeChar (escapeByte b) = [b] := by
  have := b.toNat_lt
  have escape : (0xDC80 ≤ escapeByte b && escapeByte b ≤ 0xDCFF) = true := by
    simp only [Bool.and_eq_true, decide_eq_true_eq]
    unfold escapeByte
    omega
  rw [encodeChar, if_pos escape,
    toUInt8_eq_of_toNat (by simp [escapeByte] : escapeByte b - 0xDC00 = b.toNat)]

theorem ReadsEscaped.encode_eq {bytes : List UInt8} {cs : List Nat} (h : ReadsEscaped bytes cs) :
    encode cs = bytes := by
  induction h with
  | nil => rfl
  | scalar _ _ ih => rw [encode, List.flatMap_cons, ← encode, ih]
  | escape stray _ ih =>
    rw [encode, List.flatMap_cons, ← encode, ih,
      encodeChar_escapeByte (le_of_not_startsScalar stray), List.singleton_append]

theorem encode_decodeEscaped (bytes : List UInt8) : encode (decodeEscaped bytes) = bytes :=
  (readsEscaped_decodeEscaped bytes).encode_eq

/-! ## Strict reading and the encodability check -/

theorem firstFaultFrom_eq_none_iff (offset : Nat) (bytes : List UInt8) :
    firstFaultFrom offset bytes = none ↔ ∀ c ∈ decodeEscaped bytes, isSurrogate c = false := by
  fun_induction firstFaultFrom offset bytes with
  | case1 => simp [decodeEscaped]
  | case2 offset lead rest step _ reason w fault =>
    -- the lead byte of the fault is escaped, and an escape code point is a surrogate
    have escaped : escapeByte lead ∈ decodeEscaped (lead :: rest) := by
      rw [decodeEscaped_cons_of_fault fault]
      exact List.mem_cons_self
    simp only [reduceCtorEq, false_iff, not_forall]
    exact ⟨escapeByte lead, escaped, by simp [isSurrogate_escapeByte]⟩
  | case3 offset lead rest step _ v w scalar ih =>
    rw [ih, decodeEscaped_cons_of_scalar scalar]
    simp [step, scalar, decodeStep_scalar_plain scalar, DecodeStep.width]

theorem decodeStrict_eq_ok_iff (bytes : List UInt8) (cs : List Nat) :
    decodeStrict bytes = .ok cs ↔
      (∀ c ∈ decodeEscaped bytes, isSurrogate c = false) ∧ decodeEscaped bytes = cs := by
  rw [decodeStrict, firstFault, ← firstFaultFrom_eq_none_iff 0]
  cases firstFaultFrom 0 bytes <;> simp

theorem firstSurrogateRun_eq_none_iff (cs : List Nat) :
    firstSurrogateRun cs = none ↔ ∀ c ∈ cs, isSurrogate c = false := by
  have found : firstSurrogateRun cs = none ↔ cs.findIdx? isSurrogate = none := by
    unfold firstSurrogateRun
    split <;> simp_all
  rw [found, List.findIdx?_eq_none_iff]

end Text

open Text

theorem payloadChars_text_eq_ok_iff (cs r : List Nat) :
    payloadChars (.text cs) = .ok r ↔ (∀ c ∈ cs, isSurrogate c = false) ∧ cs = r := by
  rw [payloadChars, ← firstSurrogateRun_eq_none_iff]
  dsimp only
  split <;> simp_all

theorem payloadChars_bytes_eq_ok_iff (bytes : List UInt8) (r : List Nat) :
    payloadChars (.bytes bytes) = .ok r ↔
      (∀ c ∈ decodeEscaped bytes, isSurrogate c = false) ∧ decodeEscaped bytes = r := by
  rw [payloadChars, ← decodeStrict_eq_ok_iff]
  split <;> simp_all

/-- Lenient reading is UTF-8 with escapes: each well-formed sequence reads as its scalar value and
every other byte as its own escape code point, and writing the result back gives the bytes. A byte
payload and the text that lenient reading makes of it are accepted together, and copied as the same
code points. -/
theorem decodeEscaped_utf8_validated_alike (bytes : List UInt8) :
    (∀ cs, ReadsEscaped bytes cs ↔ decodeEscaped bytes = cs) ∧
      encode (decodeEscaped bytes) = bytes ∧
      ∀ r, payloadChars (.bytes bytes) = .ok r ↔
        payloadChars (.text (decodeEscaped bytes)) = .ok r := by
  refine ⟨readsEscaped_iff bytes, encode_decodeEscaped bytes, fun r => ?_⟩
  rw [payloadChars_bytes_eq_ok_iff, payloadChars_text_eq_ok_iff]

end ArtifactNames
