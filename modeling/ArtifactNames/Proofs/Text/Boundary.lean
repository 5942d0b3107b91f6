import ArtifactNames.Proofs.Text.Scalar

/-! Lenient reading splits before an ASCII byte (`decodeEscaped_append`), and turns no byte but the
line feed itself into a line feed. -/

namespace ArtifactNames.Text

theorem decodeStep_append_ascii (lead : UInt8) (rest tail : List UInt8)
    (stop : ∀ x ∈ tail.head?, x.toNat < 0x80) :
    decodeStep lead (rest ++ tail) = decodeStep lead rest ∨
      ∃ w, decodeStep lead rest = .fault .unexpectedEnd w ∧
        decodeStep lead (rest ++ tail) = .fault .invalidContinuation w := by
  match rest, tail with
  | rest, [] => exact .inl (by rw [List.append_nil])
  | _ :: _ :: _ :: _, _ => exact .inl rfl
  | [], x :: xs | [_], x :: xs | [_, _], x :: xs =>
    -- an ASCII byte continues no sequence
    have ascii := stop x rfl
    have plain : isContinuation x = false :=
      Bool.eq_false_iff.mpr fun h => by have := (isContinuation_iff x).mp h; omega
    have three : ∀ l, secondOfThree l x = false := fun l =>
      Bool.eq_false_iff.mpr fun h => by have := (secondOfThree_iff l x).mp h; omega
    have four : ∀ l, secondOfFour l x = false := fun l =>
      Bool.eq_false_iff.mpr fun h => by have := (secondOfFour_iff l x).mp h; omega
    -- a lead byte that takes no continuation decides alone
    by_cases a : lead < 128
    · exact .inl (by simp [decodeStep, a])
    by_cases b : lead < 194
    · exact .inl (by simp [decodeStep, a, b])
    by_cases e : lead < 245
    · by_cases c : lead < 224 <;> by_cases d : lead < 240 <;>
        rcases xs with _ | ⟨y, _ | ⟨z, _ | ⟨w, ws⟩⟩⟩ <;>
        simp [decodeStep, a, b, c, d, e, plain, three, four] <;>
        (repeat' split) <;> simp_all
    · have c : ¬ lead < 224 := fun h => e (UInt8.lt_trans h (by decide))
      have d : ¬ lead < 240 := fun h => e (UInt8.lt_trans h (by decide))
      exact .inl (by simp [decodeStep, a, b, c, d, e])

theorem decodeStep_width_le (lead : UInt8) (rest : List UInt8) :
    (decodeStep lead rest).width ≤ rest.length + 1 := by
  unfold decodeStep
  repeat' split
  all_goals simp_all [DecodeStep.width]

theorem decodeEscaped_cons (lead : UInt8) (rest : List UInt8) :
    decodeEscaped (lead :: rest) =
      (match decodeStep lead rest with
        | .scalar v _ => [v]
        | .fault _ w => ((lead :: rest).take w).map escapeByte) ++
      decodeEscaped ((lead :: rest).drop (decodeStep lead rest).width) :=
  decodeEscaped.eq_2 lead rest

theorem decodeEscaped_append : ∀ (bytes : List UInt8) {tail : List UInt8},
    (∀ x ∈ tail.head?, x.toNat < 0x80) →
      decodeEscaped (bytes ++ tail) = decodeEscaped bytes ++ decodeEscaped tail
  | [], _, _ => by simp [decodeEscaped]
  | lead :: rest, tail, stop => by
    have within := decodeStep_width_le lead rest
    have ih := decodeEscaped_append ((lead :: rest).drop (decodeStep lead rest).width) stop
    -- the step takes bytes of its own part only, and leaves the rest of it before the tail
    have keep : (lead :: (rest ++ tail)).drop (decodeStep lead rest).width =
        (lead :: rest).drop (decodeStep lead rest).width ++ tail := by
      rw [← List.cons_append, List.drop_append_of_le_length (by simp; omega)]
    have taken : (lead :: (rest ++ tail)).take (decodeStep lead rest).width =
        (lead :: rest).take (decodeStep lead rest).width := by
      rw [← List.cons_append, List.take_append_of_le_length (by simp; omega)]
    rw [List.cons_append, decodeEscaped_cons, decodeEscaped_cons lead rest]
    rcases decodeStep_append_ascii lead rest tail stop with same | ⟨w, cut, other⟩
    · rw [same, keep, ih, List.append_assoc]
      cases step : decodeStep lead rest with
      | scalar v w => rfl
      | fault r w =>
        rw [step] at taken
        simp only [DecodeStep.width] at taken
        dsimp only
        rw [taken]
    · rw [cut] at keep taken ih
      rw [other, cut]
      simp only [DecodeStep.width] at keep taken ih ⊢
      rw [keep, ih, taken, List.append_assoc]
termination_by bytes => bytes.length
decreasing_by
  have := decodeStep_width_pos lead rest
  simp only [List.length_drop, List.length_cons]
  omega

theorem decodeEscaped_ascii_cons {x : UInt8} (ascii : x.toNat < 0x80) (rest : List UInt8) :
    decodeEscaped (x :: rest) = x.toNat :: decodeEscaped rest := by
  rw [decodeEscaped_cons_of_scalar (decodeStep_ascii ascii rest)]
  rfl

theorem decodeEscaped_eq_nil {bytes : List UInt8} (h : decodeEscaped bytes = []) : bytes = [] := by
  cases bytes with
  | nil => rfl
  | cons lead rest =>
    have positive := decodeStep_width_pos lead rest
    rw [decodeEscaped_cons] at h
    cases step : decodeStep lead rest with
    | scalar v w => simp [step] at h
    | fault r w =>
      rw [step] at h positive
      obtain ⟨n, rfl⟩ : ∃ n, w = n + 1 := ⟨w - 1, by simp only [DecodeStep.width] at positive; omega⟩
      simp at h

theorem decodeEscaped_append_of_last {bytes : List UInt8} (tail : List UInt8)
    (ascii : ∀ x ∈ bytes.getLast?, x.toNat < 0x80) :
    decodeEscaped (bytes ++ tail) = decodeEscaped bytes ++ decodeEscaped tail := by
  rcases List.eq_nil_or_concat bytes with rfl | ⟨init, x, rfl⟩
  · simp [decodeEscaped]
  have last : x.toNat < 0x80 := ascii x (by simp)
  have before : ∀ rest : List UInt8, ∀ y ∈ (x :: rest).head?, y.toNat < 0x80 := by
    intro rest y mem
    simp only [List.head?_cons, Option.mem_def, Option.some.injEq] at mem
    exact mem ▸ last
  rw [List.concat_eq_append, List.append_assoc, List.singleton_append,
    decodeEscaped_append init (before tail),
    decodeEscaped_append init (before []), decodeEscaped_ascii_cons last,
    decodeEscaped_ascii_cons last, decodeEscaped, List.append_assoc]
  rfl

theorem decodeStep_scalar_small {lead : UInt8} {rest : List UInt8} {v w : Nat}
    (h : decodeStep lead rest = .scalar v w) (small : v < 0x80) : v = lead.toNat := by
  unfold decodeStep at h
  -- every sequence of two bytes or more reads a value of `80` or above
  repeat' split at h
  all_goals
    cases h <;>
    simp only [UInt8.lt_iff_toNat_lt, UInt8.reduceToNat, Bool.not_eq_true, Bool.not_eq_false',
      secondOfThree_iff, secondOfFour_iff, isContinuation_iff, payloadBits] at * <;>
    omega

theorem lineFeed_mem_of_decodeEscaped {bytes : List UInt8} (h : 0x0A ∈ decodeEscaped bytes) :
    (0x0A : UInt8) ∈ bytes := by
  fun_induction decodeEscaped bytes with
  | case1 => simp at h
  | case2 lead rest step _ here ih =>
    rcases List.mem_append.mp h with inHere | inRest
    · simp only [here, step] at inHere
      split at inHere
      · rename_i v w scalar
        simp only [List.mem_singleton] at inHere
        have same := decodeStep_scalar_small scalar (by omega)
        rw [show lead = 0x0A from UInt8.toNat_inj.mp (by rw [← same, ← inHere]; rfl)]
        exact List.mem_cons_self
      · obtain ⟨b, -, escaped⟩ := List.mem_map.mp inHere
        simp only [escapeByte] at escaped
        omega
    · exact List.mem_of_mem_drop (ih inRest)

end ArtifactNames.Text
