import ArtifactNames.Text.Utf8
import ArtifactNames.Text.CharClass

/-! Scalar values: the code points that are neither surrogates nor past `10FFFF`. Word and
decimal characters are scalar values, text made of scalar values survives `toText`, and reading
UTF-8 leniently undoes writing it on scalar values. Lenient reading of bytes never yields a code
point past `10FFFF`, and yields NUL only for a NUL byte. -/

namespace ArtifactNames.Text

theorem toNat_ofNat_of_isValidChar {n : Nat} (h : n.isValidChar) : (Char.ofNat n).toNat = n := by
  delta Char.ofNat
  rw [dif_pos h]
  exact UInt32.toNat_ofNatLT

theorem ofText_toText {cs : List Nat} (h : ∀ c ∈ cs, c.isValidChar) : ofText (toText cs) = cs := by
  induction cs with
  | nil => rfl
  | cons c cs ih =>
      have hc := toNat_ofNat_of_isValidChar (h c (by simp))
      have rest := ih (fun x hx => h x (List.mem_cons_of_mem c hx))
      simp only [ofText, toText, List.map_cons, String.toList_ofList] at rest ⊢
      rw [hc, rest]

theorem isValidChar_toNat (c : Char) : c.toNat.isValidChar := c.valid

theorem toText_ofText (s : String) : toText (ofText s) = s := by
  simp [toText, ofText, Function.comp_def]

private theorem wordRanges_scalar :
    wordRanges.all (fun r => r.2 < 0xD800 || (0xDFFF < r.1 && r.2 < 0x110000)) = true := by
  decide +kernel

private theorem isValidChar_of_inRanges {ranges : List (Nat × Nat)} {c : Nat}
    (scalar : ranges.all (fun r => r.2 < 0xD800 || (0xDFFF < r.1 && r.2 < 0x110000)) = true)
    (inside : inRanges ranges c = true) : c.isValidChar := by
  obtain ⟨r, member, within⟩ := List.any_eq_true.mp inside
  have bound := List.all_eq_true.mp scalar r member
  simp only [Bool.and_eq_true, decide_eq_true_eq, Bool.or_eq_true] at within bound
  unfold Nat.isValidChar
  omega

theorem isValidChar_of_isWordChar {c : Nat} (h : isWordChar c = true) : c.isValidChar := by
  unfold isWordChar at h
  split at h
  · unfold Nat.isValidChar
    omega
  · exact isValidChar_of_inRanges wordRanges_scalar h

theorem toNat_toUInt8 (n : Nat) : n.toUInt8.toNat = n % 256 := by
  simp [Nat.toUInt8]

theorem beq_eq_decide_toNat (b c : UInt8) : (b == c) = decide (b.toNat = c.toNat) := by
  rw [Bool.eq_iff_iff, beq_iff_eq, decide_eq_true_iff, UInt8.toNat_inj]

theorem isContinuation_iff (b : UInt8) :
    isContinuation b = true ↔ 0x80 ≤ b.toNat ∧ b.toNat ≤ 0xBF := by
  simp [isContinuation, UInt8.le_iff_toNat_le]

theorem secondOfThree_iff (lead b : UInt8) :
    secondOfThree lead b = true ↔ (0x80 ≤ b.toNat ∧ b.toNat ≤ 0xBF) ∧
      (lead.toNat = 0xE0 → 0xA0 ≤ b.toNat) ∧ (lead.toNat = 0xED → b.toNat < 0xA0) := by
  simp only [secondOfThree, Bool.and_eq_true, isContinuation_iff, beq_eq_decide_toNat]
  by_cases e0 : lead.toNat = 0xE0 <;> by_cases ed : lead.toNat = 0xED <;>
    simp [e0, ed, UInt8.le_iff_toNat_le, UInt8.lt_iff_toNat_lt]

theorem secondOfFour_iff (lead b : UInt8) :
    secondOfFour lead b = true ↔ (0x80 ≤ b.toNat ∧ b.toNat ≤ 0xBF) ∧
      (lead.toNat = 0xF0 → 0x90 ≤ b.toNat) ∧ (lead.toNat = 0xF4 → b.toNat < 0x90) := by
  simp only [secondOfFour, Bool.and_eq_true, isContinuation_iff, beq_eq_decide_toNat]
  by_cases f0 : lead.toNat = 0xF0 <;> by_cases f4 : lead.toNat = 0xF4 <;>
    simp [f0, f4, UInt8.le_iff_toNat_le, UInt8.lt_iff_toNat_lt]

/-! ## One step of reading, by the lead byte -/

theorem decodeStep_ascii {lead : UInt8} (h : lead.toNat < 0x80) (rest : List UInt8) :
    decodeStep lead rest = .scalar lead.toNat 1 := by
  have a : lead < 0x80 := by rw [UInt8.lt_iff_toNat_lt]; simpa using h
  simp [decodeStep, a]

theorem decodeStep_two {lead b1 : UInt8} (lo : 0xC2 ≤ lead.toNat) (hi : lead.toNat < 0xE0)
    (h1 : isContinuation b1) (rest : List UInt8) :
    decodeStep lead (b1 :: rest) = .scalar ((lead.toNat % 32) * 64 + payloadBits b1) 2 := by
  have a : ¬ lead < 0x80 := by rw [UInt8.lt_iff_toNat_lt]; simp; omega
  have b : ¬ lead < 0xC2 := by rw [UInt8.lt_iff_toNat_lt]; simp; omega
  have c : lead < 0xE0 := by rw [UInt8.lt_iff_toNat_lt]; simp; omega
  simp [decodeStep, a, b, c, h1]

theorem decodeStep_three {lead b1 b2 : UInt8} (lo : 0xE0 ≤ lead.toNat) (hi : lead.toNat < 0xF0)
    (h1 : secondOfThree lead b1) (h2 : isContinuation b2) (rest : List UInt8) :
    decodeStep lead (b1 :: b2 :: rest) =
      .scalar ((lead.toNat % 16) * 4096 + payloadBits b1 * 64 + payloadBits b2) 3 := by
  have a : ¬ lead < 0x80 := by rw [UInt8.lt_iff_toNat_lt]; simp; omega
  have b : ¬ lead < 0xC2 := by rw [UInt8.lt_iff_toNat_lt]; simp; omega
  have c : ¬ lead < 0xE0 := by rw [UInt8.lt_iff_toNat_lt]; simp; omega
  have d : lead < 0xF0 := by rw [UInt8.lt_iff_toNat_lt]; simp; omega
  simp [decodeStep, a, b, c, d, h1, h2]

theorem decodeStep_four {lead b1 b2 b3 : UInt8} (lo : 0xF0 ≤ lead.toNat) (hi : lead.toNat < 0xF5)
    (h1 : secondOfFour lead b1) (h2 : isContinuation b2) (h3 : isContinuation b3)
    (rest : List UInt8) :
    decodeStep lead (b1 :: b2 :: b3 :: rest) =
      .scalar ((lead.toNat % 8) * 262144 + payloadBits b1 * 4096 + payloadBits b2 * 64
        + payloadBits b3) 4 := by
  have a : ¬ lead < 0x80 := by rw [UInt8.lt_iff_toNat_lt]; simp; omega
  have b : ¬ lead < 0xC2 := by rw [UInt8.lt_iff_toNat_lt]; simp; omega
  have c : ¬ lead < 0xE0 := by rw [UInt8.lt_iff_toNat_lt]; simp; omega
  have d : ¬ lead < 0xF0 := by rw [UInt8.lt_iff_toNat_lt]; simp; omega
  have e : lead < 0xF5 := by rw [UInt8.lt_iff_toNat_lt]; simp; omega
  simp [decodeStep, a, b, c, d, e, h1, h2, h3]

/-! ## Reading back what was written -/

theorem decodeEscaped_cons_of_scalar {lead : UInt8} {rest : List UInt8} {v w : Nat}
    (h : decodeStep lead rest = .scalar v w) :
    decodeEscaped (lead :: rest) = v :: decodeEscaped ((lead :: rest).drop w) := by
  rw [decodeEscaped]
  simp [h, DecodeStep.width]

theorem decodeEscaped_encodeChar_append {c : Nat} (hc : c.isValidChar) (rest : List UInt8) :
    decodeEscaped (encodeChar c ++ rest) = c :: decodeEscaped rest := by
  unfold Nat.isValidChar at hc
  have plain : ¬ (0xDC80 ≤ c && c ≤ 0xDCFF) = true := by simp; omega
  by_cases one : c < 0x80
  · have lead : c.toUInt8.toNat = c := by rw [toNat_toUInt8]; omega
    have step : decodeStep c.toUInt8 rest = .scalar c 1 := by
      rw [decodeStep_ascii (by omega), lead]
    rw [encodeChar, if_neg plain, if_pos one, List.singleton_append,
      decodeEscaped_cons_of_scalar step]
    rfl
  by_cases two : c < 0x800
  · have b0 : (0xC0 + c / 64).toUInt8.toNat = 0xC0 + c / 64 := by rw [toNat_toUInt8]; omega
    have b1 : (0x80 + c % 64).toUInt8.toNat = 0x80 + c % 64 := by rw [toNat_toUInt8]; omega
    have step : decodeStep (0xC0 + c / 64).toUInt8 ((0x80 + c % 64).toUInt8 :: rest) =
        .scalar c 2 := by
      rw [decodeStep_two (by omega) (by omega) ((isContinuation_iff _).mpr (by omega)), b0,
        payloadBits, b1]
      congr 1
      omega
    rw [encodeChar, if_neg plain, if_neg one, if_pos two, List.cons_append, List.singleton_append,
      decodeEscaped_cons_of_scalar step]
    rfl
  by_cases three : c < 0x10000
  · have b0 : (0xE0 + c / 4096).toUInt8.toNat = 0xE0 + c / 4096 := by rw [toNat_toUInt8]; omega
    have b1 : (0x80 + c / 64 % 64).toUInt8.toNat = 0x80 + c / 64 % 64 := by
      rw [toNat_toUInt8]; omega
    have b2 : (0x80 + c % 64).toUInt8.toNat = 0x80 + c % 64 := by rw [toNat_toUInt8]; omega
    have step : decodeStep (0xE0 + c / 4096).toUInt8
        ((0x80 + c / 64 % 64).toUInt8 :: (0x80 + c % 64).toUInt8 :: rest) = .scalar c 3 := by
      rw [decodeStep_three (by omega) (by omega) ((secondOfThree_iff _ _).mpr (by omega))
        ((isContinuation_iff _).mpr (by omega)), b0, payloadBits, b1, payloadBits, b2]
      congr 1
      omega
    rw [encodeChar, if_neg plain, if_neg one, if_neg two, if_pos three, List.cons_append,
      List.cons_append, List.singleton_append, decodeEscaped_cons_of_scalar step]
    rfl
  · have b0 : (0xF0 + c / 262144).toUInt8.toNat = 0xF0 + c / 262144 := by
      rw [toNat_toUInt8]; omega
    have b1 : (0x80 + c / 4096 % 64).toUInt8.toNat = 0x80 + c / 4096 % 64 := by
      rw [toNat_toUInt8]; omega
    have b2 : (0x80 + c / 64 % 64).toUInt8.toNat = 0x80 + c / 64 % 64 := by
      rw [toNat_toUInt8]; omega
    have b3 : (0x80 + c % 64).toUInt8.toNat = 0x80 + c % 64 := by rw [toNat_toUInt8]; omega
    have step : decodeStep (0xF0 + c / 262144).toUInt8
        ((0x80 + c / 4096 % 64).toUInt8 :: (0x80 + c / 64 % 64).toUInt8 ::
          (0x80 + c % 64).toUInt8 :: rest) = .scalar c 4 := by
      rw [decodeStep_four (by omega) (by omega) ((secondOfFour_iff _ _).mpr (by omega))
        ((isContinuation_iff _).mpr (by omega)) ((isContinuation_iff _).mpr (by omega)), b0,
        payloadBits, b1, payloadBits, b2, payloadBits, b3]
      congr 1
      omega
    rw [encodeChar, if_neg plain, if_neg one, if_neg two, if_neg three, List.cons_append,
      List.cons_append, List.cons_append, List.singleton_append, decodeEscaped_cons_of_scalar step]
    rfl

theorem decodeEscaped_encode {cs : List Nat} (h : ∀ c ∈ cs, c.isValidChar) :
    decodeEscaped (encode cs) = cs := by
  induction cs with
  | nil => simp [encode, decodeEscaped]
  | cons c cs ih =>
      rw [encode, List.flatMap_cons, decodeEscaped_encodeChar_append (h c (by simp))]
      rw [← encode, ih (fun x hx => h x (List.mem_cons_of_mem c hx))]

theorem decodeStep_scalar_bound {lead : UInt8} {rest : List UInt8} {v w : Nat}
    (h : decodeStep lead rest = .scalar v w) : v < 0x110000 ∧ (v = 0 → lead.toNat = 0) := by
  unfold decodeStep at h
  -- every branch but the four that read a scalar ends in a fault
  repeat' split at h
  all_goals
    cases h <;>
    simp only [UInt8.lt_iff_toNat_lt, UInt8.reduceToNat, Bool.not_eq_true, Bool.not_eq_false',
      secondOfThree_iff, secondOfFour_iff, isContinuation_iff, payloadBits] at * <;>
    omega

theorem decodeEscaped_pos_lt {bs : List UInt8} (h : (0 : UInt8) ∉ bs) :
    ∀ c ∈ decodeEscaped bs, 0 < c ∧ c < 0x110000 := by
  fun_induction decodeEscaped bs with
  | case1 => simp
  | case2 lead rest step _ here ih =>
    intro c member
    have lead_ne : lead.toNat ≠ 0 := by
      intro zero
      apply h
      rw [show lead = 0 from UInt8.toNat_inj.mp zero]
      simp
    rcases List.mem_append.mp member with inHere | inRest
    · simp only [here, step] at inHere
      split at inHere
      · rename_i v w scalar
        obtain ⟨lt, zero⟩ := decodeStep_scalar_bound scalar
        simp only [List.mem_singleton] at inHere
        subst inHere
        omega
      · obtain ⟨b, -, rfl⟩ := List.mem_map.mp inHere
        have := b.toNat_lt
        simp only [escapeByte]
        omega
    · exact ih (fun z => h (List.mem_of_mem_drop z)) c inRest

end ArtifactNames.Text
