import ArtifactNames.Proofs.Syntax.NameStall
import ArtifactNames.Proofs.Syntax.Gap

/-! Reading stops inside the tokens it reads (`Rejection.Lies`), so a rejected text is never
reported past its end (`offset_le_length`). -/

namespace ArtifactNames

open Syntax Text

/-- Where a reader of `toks` may stop: at their end, at the start of one of them, or inside a
number after the ASCII digits it starts with. -/
def Syntax.Rejection.Lies (toks : List Token) : Rejection → Prop
  | .at o => ∃ t ∈ toks, o = t.start ∨ t.kind = .number ∧ o = t.start + t.indexDigits
  | .atEnd => True

namespace Syntax.Rejection.Lies

variable {toks : List Token} {r : Rejection}

theorem head (t : Token) (rest : List Token) : (Rejection.at t.start).Lies (t :: rest) :=
  ⟨t, List.mem_cons_self, .inl rfl⟩

theorem mono {X : List Token} (h : r.Lies X) (sub : X ⊆ toks) : r.Lies toks := by
  rcases r with o | _
  · obtain ⟨t, mem, site⟩ := h
    exact ⟨t, sub mem, site⟩
  · trivial

theorem le_stop {o : Nat} (h : (Rejection.at o).Lies toks) : ∃ t ∈ toks, o ≤ t.stop := by
  obtain ⟨t, mem, site⟩ := h
  have digits := t.indexDigits_le
  refine ⟨t, mem, ?_⟩
  simp only [Token.stop]
  omega

end Syntax.Rejection.Lies

open Rejection

theorem Stop.lies {X Y : List Token} {refuse : Token → Prop} {r : Rejection}
    (h : Stop r X Y refuse) : r.Lies X := by
  cases h with
  | atEnd => trivial
  | token t R => exact .head t R
  | index t R number => exact ⟨t, by simp, .inr ⟨number, rfl⟩⟩

theorem readName_lies {toks : List Token} {r : Rejection} (h : readName toks = .error r) :
    r.Lies toks := by
  obtain ⟨P, X, Y, refuse, rfl, -, stop, -⟩ := readName_stall h
  exact stop.lies.mono (List.subset_append_right P X)

theorem offset_le_length {text : List Nat} {r : Rejection} (h : r.Lies (scan text)) :
    r.offset (scan text) ≤ text.length := by
  rcases r with o | _
  · obtain ⟨t, mem, le⟩ := h.le_stop
    have bounds := tokensFrom_bounds 0 text t mem
    simp only [Rejection.offset]
    omega
  · -- at the end, the offset is that of the last token
    simp only [Rejection.offset]
    split
    · rename_i t last
      have bounds := tokensFrom_bounds 0 text t (List.mem_of_getLast? last)
      simp only [Token.stop] at bounds
      omega
    · exact Nat.zero_le _

end ArtifactNames
