import ArtifactNames.Proofs.Name.Requests
import ArtifactNames.Proofs.Name.BuildSound
import Mathlib.Data.List.Forall2

/-! String values of parameters: the walk copies a string token without its quotes and escapes
(`paramValueText`), and quoting is its inverse (`paramValueText_quote_bijective`). -/

namespace ArtifactNames

open Syntax Text Walk

/-- The text between the quotes of a string token: code points other than a quote or a backslash,
and pairs of a backslash and a quote or a backslash. -/
inductive StringBody : List Nat → Prop
  | nil : StringBody []
  | plain {c : Nat} {rest : List Nat} : c ≠ 0x22 → c ≠ 0x5C → StringBody rest → StringBody (c :: rest)
  | escaped {c : Nat} {rest : List Nat} : c = 0x22 ∨ c = 0x5C → StringBody rest →
      StringBody (0x5C :: c :: rest)

def IsStringLexeme (t : List Nat) : Prop := ∃ body, StringBody body ∧ t = 0x22 :: body ++ [0x22]

/-- The text a parameter value is copied as: the payload's text, and for a string token that text
without its quotes and escapes. -/
def paramValueText (value : Node) : Except ParseError String := do
  let chars ← payloadChars value
  pure <| match value with
    | .token "STRING" _ => toText (unquote chars)
    | _ => toText chars

theorem Walk.Records.buildParameterItems_values (frames : Frames) (d : Nat) : ∀ items,
    Records (ArtifactNames.buildParameterItems frames d items) fun ps _ => List.Forall₂
      (fun item p => ∃ key value, item = .tree "param" [key, value] ∧ paramValueText value = .ok p.value)
      items ps
  | [] => by
    unfold ArtifactNames.buildParameterItems
    exact Records.pure .nil
  | item :: rest => by
    have later := buildParameterItems_values frames d rest
    unfold ArtifactNames.buildParameterItems
    with_reducible repeat' first
      | exact Records.throw _
      | refine Records.reach ?_
      | refine Records.orFail fun _ _ => ?_
      | refine Records.copy ?_
      | refine Records.mono later fun _ _ => ?_
      | refine Records.pure ?_
      | refine Records.bind ?_
      | refine Records.map ?_
      | split
      | (intro)
      | dsimp only
    -- what is left is the first parameter: its value was copied from the payload's text
    all_goals
      refine .cons ⟨_, _, rfl, ?_⟩ ‹_›
      simp_all [paramValueText, Functor.map, Except.map]

theorem StringBody.escape (cs : List Nat) : StringBody (Syntax.escape cs) := by
  induction cs with
  | nil => exact .nil
  | cons c cs ih =>
    by_cases special : (c == 0x22 || c == 0x5C) = true
    · rw [Syntax.escape, if_pos special]
      exact .escaped (by simpa using special) ih
    · rw [Syntax.escape, if_neg special]
      simp only [Bool.or_eq_true, beq_iff_eq, not_or] at special
      exact .plain special.1 special.2 ih

theorem unescape_cons_of_ne {c : Nat} (backslash : c ≠ 0x5C) (rest : List Nat) :
    unescape (c :: rest) = c :: unescape rest := by
  rw [unescape.eq_def]
  -- only the case of a code point that is no backslash applies
  split <;> simp_all

theorem StringBody.escape_unescape {body : List Nat} (h : StringBody body) :
    Syntax.escape (unescape body) = body := by
  induction h with
  | nil => simp [unescape, Syntax.escape]
  | @plain c rest quote backslash _ ih =>
    rw [unescape_cons_of_ne backslash, Syntax.escape, if_neg (by simp [quote, backslash]), ih]
  | @escaped c rest special _ ih =>
    have special' : (c == 0x22 || c == 0x5C) = true := by simpa using special
    rw [unescape, if_pos special', Syntax.escape, if_pos special', ih]

theorem unquote_lexeme (body : List Nat) : unquote (0x22 :: body ++ [0x22]) = unescape body := by
  simp [unquote]

theorem paramValueText_string {t : List Nat} (valid : ∀ c ∈ t, c.isValidChar) :
    paramValueText (.token "STRING" t) = .ok (toText (unquote t)) := by
  simp only [paramValueText, payloadChars_token _ valid]
  rfl

theorem isStringLexeme_quote (cs : List Nat) : IsStringLexeme (quote cs) :=
  ⟨Syntax.escape cs, StringBody.escape cs, rfl⟩

theorem paramValueText_quote (v : String) :
    paramValueText (.token "STRING" (quote (ofText v))) = .ok v := by
  rw [paramValueText_string (clean_quote v), unquote_quote, toText_ofText]

theorem quote_unquote {t : List Nat} (lexeme : IsStringLexeme t) : quote (unquote t) = t := by
  obtain ⟨body, body_ok, rfl⟩ := lexeme
  rw [unquote_lexeme, quote, body_ok.escape_unescape]

theorem quote_paramValueText {t : List Nat} (lexeme : IsStringLexeme t)
    (valid : ∀ c ∈ t, c.isValidChar) :
    ∃ v, paramValueText (.token "STRING" t) = .ok v ∧ quote (ofText v) = t := by
  refine ⟨toText (unquote t), paramValueText_string valid, ?_⟩
  rw [ofText_toText fun c mem => valid c (mem_of_mem_unquote mem), quote_unquote lexeme]

/-- Quoting a value and copying a string token undo each other. The walk copies each parameter's
value as `paramValueText`; every text quotes to a string token that copies back to it; every string
token of scalar values copies to a text that quotes back to the token; so two string tokens never
copy to the same value. -/
theorem paramValueText_quote_bijective :
    (∀ frames d items, Records (buildParameterItems frames d items) fun ps _ => List.Forall₂
      (fun item p => ∃ key value, item = .tree "param" [key, value] ∧ paramValueText value = .ok p.value)
      items ps) ∧
    (∀ v : String, IsStringLexeme (quote (ofText v)) ∧
      paramValueText (.token "STRING" (quote (ofText v))) = .ok v) ∧
    (∀ t : List Nat, IsStringLexeme t → (∀ c ∈ t, c.isValidChar) →
      ∃ v, paramValueText (.token "STRING" t) = .ok v ∧ quote (ofText v) = t) ∧
    (∀ t t' : List Nat, IsStringLexeme t → IsStringLexeme t' →
      (∀ c ∈ t, c.isValidChar) → (∀ c ∈ t', c.isValidChar) →
      paramValueText (.token "STRING" t) = paramValueText (.token "STRING" t') → t = t') := by
  refine ⟨Records.buildParameterItems_values, fun v => ⟨isStringLexeme_quote _, paramValueText_quote v⟩,
    fun t lexeme valid => quote_paramValueText lexeme valid, ?_⟩
  intro t t' lexeme lexeme' valid valid' same
  obtain ⟨v, copied, quoted⟩ := quote_paramValueText lexeme valid
  obtain ⟨v', copied', quoted'⟩ := quote_paramValueText lexeme' valid'
  rw [copied, copied', Except.ok.injEq] at same
  rw [← quoted, ← quoted', same]

theorem paramValueText_quote_bijective_sample :
    ∃ v, paramValueText (.token "STRING" [0x22, 0x61, 0x5C, 0x22, 0x5C, 0x5C, 0x22]) = .ok v ∧
      quote (ofText v) = [0x22, 0x61, 0x5C, 0x22, 0x5C, 0x5C, 0x22] :=
  paramValueText_quote_bijective.2.2.1 _
    ⟨[0x61, 0x5C, 0x22, 0x5C, 0x5C], .plain (by decide) (by decide) (.escaped (.inl rfl) (.escaped (.inr rfl) .nil)),
      rfl⟩ (by decide)

end ArtifactNames
