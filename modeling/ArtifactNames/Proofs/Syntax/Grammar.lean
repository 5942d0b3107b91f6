import ArtifactNames.Proofs.Syntax.Scan
import ArtifactNames.Syntax.Parser

/-! The trees that reading tokens gives (`NameTree`), rule by rule as the readers build them, with
the keyword facts: no substitution leads with `resolved`, and the last one never with `let`. -/

namespace ArtifactNames

open Syntax Text

section Trees

variable (P : List Nat → Prop)

/-- A parameter value: a word, a number or a string, each a token of its own type. -/
inductive ValueLeaf : Node → Prop
  | ident {t : List Nat} : P t → ValueLeaf (.token "IDENT" t)
  | number {t : List Nat} : P t → ValueLeaf (.token "NUMBER" t)
  | string {t : List Nat} : P t → ValueLeaf (.token "STRING" t)

inductive ParamTrees : List Node → Prop
  | nil : ParamTrees []
  | cons {k : List Nat} {v : Node} {ps : List Node} : isIdent k = true → ValueLeaf P v →
      ParamTrees ps → ParamTrees (.tree "param" [.token "IDENT" k, v] :: ps)

/-- What follows the id of a parameterized id: nothing, `[]`, or a list of parameters. -/
inductive ParamsTree : Node → Prop
  | absent : ParamsTree .absent
  | empty : ParamsTree (.tree "params" [.absent])
  | list {ps : List Node} : ParamTrees P ps → ParamsTree (.tree "params" [.tree "param_list" ps])

/-- The children of a `parameterized_id` tree whose id is the word `w`. -/
inductive PidTree : List Nat → List Node → Prop
  | mk {w : List Nat} {ps : Node} : isIdent w = true → ParamsTree P ps →
      PidTree w [.token "IDENT" w, ps]

end Trees

inductive BindingTree : Node → Prop
  | unbound : BindingTree (.tree "unbound" [])
  | bound {v : List Nat} : isIdent v = true → BindingTree (.tree "bound" [.token "IDENT" v])

inductive IndexTree : Node → Prop
  | absent : IndexTree .absent
  | index {t : List Nat} : IndexTree (.tree "graph_index" [.token "INT" t])

inductive OutputIdTree : Node → Prop
  | absent : OutputIdTree .absent
  | ident {v : List Nat} : isIdent v = true → OutputIdTree (.token "IDENT" v)

section Trees

variable (P : List Nat → Prop)

mutual

inductive NameTree : List Node → Prop
  | mk {items parts : List Node} {lead : Option (List Nat)} : DeclTrees items →
      SubstTree lead parts → lead ≠ some (ofText "let") →
      NameTree [.tree "declarations" items, .tree "substitution" parts]

inductive DeclTrees : List Node → Prop
  | nil : DeclTrees []
  | cons {b : Node} {parts items : List Node} {lead : Option (List Nat)} : BindingTree b →
      SubstTree lead parts → DeclTrees items →
      DeclTrees (.tree "declaration" [b, .tree "substitution" parts] :: items)

/-- The parts of a `substitution` tree whose leading word is `lead`: the word a reader meets
first when it could be read as a keyword. -/
inductive SubstTree : Option (List Nat) → List Node → Prop
  | var {w : List Nat} : isIdent w = true → w ≠ ofText "resolved" →
      SubstTree (some w) [.tree "variable_ref" [.token "IDENT" w]]
  | resolved {v : List Nat} : isIdent v = true →
      SubstTree none [.tree "resolved_ref" [.token "IDENT" v]]
  | atomic {w : List Nat} {pch : List Node} {m : Node} : PidTree P w pch → w ≠ ofText "resolved" →
      InputsTree m → SubstTree (some w) [.tree "atomic_ref" [.absent, .tree "parameterized_id" pch], m]
  | builtin {w v : List Nat} {nch pch : List Node} {m : Node} : PidTree P w nch →
      w ≠ ofText "resolved" → PidTree P v pch → InputsTree m →
      SubstTree (some w) [.tree "atomic_ref" [.tree "builtin_namespace" [.tree "parameterized_id" nch],
        .tree "parameterized_id" pch], m]
  | computed {v : List Nat} {out : Node} {pch : List Node} {m : Node} : OutputTree out →
      PidTree P v pch → InputsTree m →
      SubstTree none [.tree "atomic_ref" [.tree "named_namespace" [out], .tree "parameterized_id" pch], m]
  | nested {nch : List Node} : NameTree nch →
      SubstTree none [.tree "nested_ref" [.tree "name" nch], .absent]
  | nestedInputs {nch : List Node} {m : Node} : NameTree nch → InputsTree m →
      SubstTree none [.tree "nested_ref" [.tree "name" nch], m]

/-- A `multiary` tree: an optional index, then no specs or a list of them. -/
inductive InputsTree : Node → Prop
  | none {index : Node} : IndexTree index → InputsTree (.tree "multiary" [index, .absent])
  | specs {index : Node} {specs : List Node} : IndexTree index → SpecTrees specs →
      InputsTree (.tree "multiary" [index, .tree "spec_list" specs])

inductive SpecTrees : List Node → Prop
  | nil : SpecTrees []
  | cons {s : Node} {ss : List Node} : SpecTree s → SpecTrees ss → SpecTrees (s :: ss)

inductive SpecTree : Node → Prop
  | named {t : List Nat} {out : Node} : isIdent t = true → t ≠ ofText "resolved" → OutputTree out →
      SpecTree (.tree "substitution_spec" [.token "IDENT" t, out])
  | positional {out : Node} : OutputTree out → SpecTree (.tree "substitution_spec" [.absent, out])

inductive OutputTree : Node → Prop
  | mk {lead : Option (List Nat)} {parts : List Node} {o : Node} : SubstTree lead parts →
      OutputIdTree o → OutputTree (.tree "output_ref" [.tree "substitution" parts, o])

end

end Trees

/-! ## Tokens the scanner gives -/

/-- A token whose text the trees can hold: a word is a word of the grammar, and the text
satisfies `P`. -/
def Syntax.Token.Sound (P : List Nat → Prop) (t : Token) : Prop :=
  (t.kind = .word → isIdent t.text = true) ∧ P t.text

theorem isIdent_of_lexeme_word {c : Nat} {rest : List Nat} {n : Nat}
    (h : lexeme c rest = some (.word, n)) : isIdent (c :: rest.take n) = true := by
  unfold lexeme at h
  -- every branch but the word branch gives another kind of token
  repeat' split at h
  all_goals try (simp at h; done)
  rename_i notDecimal notBlank word
  obtain rfl : (rest.takeWhile isWordTail).length = n := by simpa using h
  rw [← List.prefix_iff_eq_take.mp (List.takeWhile_prefix isWordTail)]
  have tail : c = 0x5F → (rest.takeWhile isWordTail).isEmpty = false := by
    rintro rfl
    cases rest with
    | nil => simp at notBlank
    | cons x more =>
      have : isWordTail x = true := by simpa using notBlank
      simp [this]
  simp only [isIdent, word, notDecimal, List.all_takeWhile, Bool.true_and, Bool.not_false]
  by_cases under : c = 0x5F
  · simp [tail under]
  · simp [under]

theorem mem_tokensFrom {pos : Nat} {cs : List Nat} {t : Token} (h : t ∈ tokensFrom pos cs) :
    (t.kind = .word → isIdent t.text = true) ∧ ∀ c ∈ t.text, c ∈ cs := by
  match cs with
  | [] => simp at h
  | c :: rest =>
    by_cases blank : isBlankSpace c = true
    · rw [tokensFrom_blank pos rest blank] at h
      obtain ⟨word, sub⟩ := mem_tokensFrom h
      exact ⟨word, fun x mem => List.mem_cons_of_mem c (sub x mem)⟩
    by_cases hash : c = 0x23
    · subst hash
      rw [tokensFrom_comment] at h
      obtain ⟨word, sub⟩ := mem_tokensFrom h
      exact ⟨word, fun x mem => List.mem_cons_of_mem _ (List.mem_of_mem_drop (sub x mem))⟩
    cases found : lexeme c rest with
    | none =>
      rw [tokensFrom_unscannable pos (by simpa using blank) hash found] at h
      simp only [List.mem_singleton] at h
      subst h
      simp
    | some lexed =>
      obtain ⟨kind, n⟩ := lexed
      rw [tokensFrom_lexeme pos (by simpa using blank) hash found] at h
      rcases List.mem_cons.mp h with rfl | later
      · refine ⟨?_, fun x mem => ?_⟩
        · rintro rfl
          exact isIdent_of_lexeme_word found
        · rcases List.mem_cons.mp mem with rfl | inTake
          · exact List.mem_cons_self
          · exact List.mem_cons_of_mem c (List.mem_of_mem_take inTake)
      · obtain ⟨word, sub⟩ := mem_tokensFrom later
        exact ⟨word, fun x mem => List.mem_cons_of_mem c (List.mem_of_mem_drop (sub x mem))⟩
termination_by cs.length
decreasing_by all_goals simp only [List.length_drop, List.length_cons]; omega

end ArtifactNames
