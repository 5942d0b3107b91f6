import ArtifactNames.Proofs.Syntax.Grammar
import ArtifactNames.Proofs.Name.BuildTree

/-! What the walk gives on the trees of the grammar (`Walk.Ensures`): never a tree of the wrong
shape, and a representable name when the texts of the leaves are clean. -/

namespace ArtifactNames

open Syntax Text Storage Walk

def ParseError.Classified : ParseError → Prop
  | .malformed _ => False
  | _ => True

def Walk.Ensures {α : Type} (w : Walk α) (ok : α → Prop) : Prop :=
  ∀ s, match (w.run.run s).1 with
    | .ok a => ok a
    | .error e => e.Classified

namespace Walk

variable {frames : Frames} {d : Nat}

theorem Ensures.pure {α : Type} {a : α} {ok : α → Prop} (h : ok a) : Ensures (Pure.pure a) ok :=
  fun _ => h

theorem Ensures.throw {α : Type} {e : ParseError} {ok : α → Prop} (h : e.Classified) :
    Ensures (MonadExcept.throw e) ok :=
  fun _ => h

theorem Ensures.bind {α β : Type} {x : Walk α} {f : α → Walk β} {q : α → Prop} {ok : β → Prop}
    (hx : Ensures x q) (hf : ∀ a, q a → Ensures (f a) ok) : Ensures (x >>= f) ok := by
  intro s
  have first := hx s
  simp only [ExceptT.run_bind, StateT.run_bind]
  cases run : x.run.run s with
  | mk r s' =>
    rw [run] at first
    cases r with
    | ok a => exact hf a first s'
    | error e => exact first

theorem Ensures.mono {α : Type} {x : Walk α} {q ok : α → Prop} (h : Ensures x q)
    (imp : ∀ a, q a → ok a) : Ensures x ok := by
  intro s
  have := h s
  revert this
  cases (x.run.run s).1 with
  | ok a => exact imp a
  | error e => exact id

theorem Ensures.seq {α : Type} {x : Walk Unit} {w : Walk α} {ok : α → Prop}
    (hx : Ensures x fun _ => True) (h : Ensures w ok) : Ensures (x >>= fun _ => w) ok :=
  hx.bind fun _ _ => h

theorem Ensures.map {α β : Type} {x : Walk α} {f : α → β} {ok : β → Prop}
    (h : Ensures x fun a => ok (f a)) : Ensures (f <$> x) ok := by
  rw [map_eq_pure_bind]
  exact h.bind fun a fa => .pure fa

theorem reach_ensures : Ensures (reach frames d) fun _ => True := by
  unfold reach
  split
  · exact .pure trivial
  · exact .throw trivial

theorem record_ensures (call : FactoryCall) : Ensures (record call) fun _ => True :=
  fun _ => trivial

theorem request_ensures : Ensures request fun _ => True :=
  fun _ => trivial

theorem enterPolicy_ensures (call : FactoryCall) : Ensures (enterPolicy frames d call) fun _ => True := by
  unfold enterPolicy
  split
  · exact reach_ensures.seq ((record_ensures call).seq (reach_ensures.seq (.pure trivial)))
  · exact reach_ensures.seq ((record_ensures call).seq (.pure trivial))

theorem collection_ensures (kind : CollectionKind) (count : Nat) :
    Ensures (collection frames d kind count) fun _ => True := by
  unfold collection
  refine (enterPolicy_ensures _).bind fun p _ => reach_ensures.seq ?_
  split
  · refine reach_ensures.seq (request_ensures.bind fun granted _ => ?_)
    cases granted
    · exact .throw trivial
    · exact .pure trivial
  · exact .pure trivial

theorem node_ensures (kind : NodeKind) : Ensures (node frames d kind) fun _ => True := by
  unfold node
  refine (enterPolicy_ensures _).bind fun p _ => reach_ensures.seq (request_ensures.bind fun granted _ => ?_)
  cases granted
  · exact .throw trivial
  · exact reach_ensures

theorem copy_ensures (kind : TextKind) (text : String) : Ensures (copy frames d kind text) fun _ => True :=
  (enterPolicy_ensures _).bind fun _ _ => .pure trivial

end Walk

theorem isValidChar_of_isIdent {w : List Nat} (ident : isIdent w = true) : ∀ c ∈ w, c.isValidChar := by
  match w, ident with
  | c :: rest, ident =>
    simp only [isIdent, Bool.and_eq_true, List.all_eq_true] at ident
    obtain ⟨⟨⟨word, -⟩, tails⟩, -⟩ := ident
    intro x mem
    rcases List.mem_cons.mp mem with rfl | later
    · exact isValidChar_of_isWordChar word
    · have tail := tails x later
      simp only [isWordTail, Bool.or_eq_true, beq_iff_eq] at tail
      rcases tail with word | rfl
      · exact isValidChar_of_isWordChar word
      · decide

theorem identifier_ensures {frames : Frames} {d : Nat} {w : List Nat} (ident : isIdent w = true) :
    Ensures (identifier frames d (.token "IDENT" w)) fun s => ofText s = w := by
  unfold identifier
  simp only [payloadChars_token _ (isValidChar_of_isIdent ident), orFail_ok, pure_bind]
  exact reach_ensures.seq (reach_ensures.seq ((copy_ensures _ _).seq
    (reach_ensures.seq (.pure (ofText_toText (isValidChar_of_isIdent ident))))))

theorem payloadChars_ensures (kind : String) (t : List Nat) :
    Ensures (orFail (payloadChars (.token kind t))) fun cs => cs = t ∧ ∀ c ∈ t, isSurrogate c = false := by
  simp only [payloadChars]
  split
  · exact .throw trivial
  · rename_i none'
    refine .pure ⟨rfl, ?_⟩
    unfold firstSurrogateRun at none'
    split at none'
    · cases none'
    · rename_i missing
      simpa using List.findIdx?_eq_none_iff.mp missing

theorem mem_of_mem_unescape {c : Nat} {cs : List Nat} (mem : c ∈ unescape cs) : c ∈ cs := by
  fun_induction unescape cs with
  | case1 x rest _ ih =>
    rcases List.mem_cons.mp mem with rfl | later
    · exact List.mem_cons_of_mem _ List.mem_cons_self
    · exact List.mem_cons_of_mem _ (List.mem_cons_of_mem _ (ih later))
  | case2 x rest _ ih =>
    rcases List.mem_cons.mp mem with rfl | later
    · exact List.mem_cons_self
    · exact List.mem_cons_of_mem _ (ih later)
  | case3 x rest _ ih =>
    rcases List.mem_cons.mp mem with rfl | later
    · exact List.mem_cons_self
    · exact List.mem_cons_of_mem _ (ih later)
  | case4 => exact mem

theorem mem_of_mem_unquote {c : Nat} {cs : List Nat} (mem : c ∈ unquote cs) : c ∈ cs :=
  List.mem_of_mem_drop (List.dropLast_subset _ (mem_of_mem_unescape mem))

def CleanText (t : List Nat) : Prop := ∀ c ∈ t, c ≠ 0 ∧ c < 0x110000

def CleanTexts (P : List Nat → Prop) : Prop := ∀ t, P t → CleanText t

section Params

variable {P : List Nat → Prop} {frames : Frames} {d : Nat}

theorem ValueLeaf.token {v : Node} (leaf : ValueLeaf P v) :
    ∃ kind t, v = .token kind t ∧ P t ∧ (kind == "IDENT" || kind == "NUMBER" || kind == "STRING") = true := by
  cases leaf <;> exact ⟨_, _, rfl, ‹_›, by decide⟩

theorem param_representable {k t x : List Nat} (key : isIdent k = true) (clean : CleanText t)
    (noSurrogate : ∀ c ∈ t, isSurrogate c = false) (sub : ∀ c ∈ x, c ∈ t) :
    Parameter.representable ⟨toText k, toText x⟩ = true := by
  have valid : ∀ c ∈ x, c.isValidChar := fun c mem => by
    have bound := (clean c (sub c mem)).2
    have scalar := noSurrogate c (sub c mem)
    simp only [isSurrogate, Bool.and_eq_false_iff, decide_eq_false_iff_not, Nat.not_le] at scalar
    simp only [Nat.isValidChar]
    omega
  have noNul : x.contains 0 = false := by
    simpa using fun mem => (clean 0 (sub 0 mem)).1 rfl
  simp only [Parameter.representable, isIdentText, ofText_toText (isValidChar_of_isIdent key), key,
    ofText_toText valid, noNul, Bool.not_false, Bool.and_self]

theorem buildParameterItems_ensures {ps : List Node} (trees : ParamTrees P ps) :
    Ensures (buildParameterItems frames d ps)
      fun params => CleanTexts P → params.all Parameter.representable = true := by
  induction trees with
  | nil =>
    simp only [buildParameterItems]
    exact .pure fun _ => rfl
  | @cons k v ps key leaf rest ih =>
    obtain ⟨kind, t, rfl, hP, isValue⟩ := leaf.token
    simp +decide only [buildParameterItems, payloadOf, orFail_ok, pure_bind, isValue, ↓reduceIte,
      payloadChars_token _ (isValidChar_of_isIdent key)]
    refine reach_ensures.seq ?_
    refine reach_ensures.seq ?_
    refine reach_ensures.seq ?_
    refine (copy_ensures _ _).seq ?_
    refine reach_ensures.seq ?_
    refine (payloadChars_ensures _ _).bind fun chars read => ?_
    obtain ⟨rfl, noSurrogate⟩ := read
    -- the value's text is copied, then the other parameters are built
    have copied : ∀ x, (∀ c ∈ x, c ∈ chars) → Ensures (do
        copy frames d .parameterValue (toText x)
        reach frames (d + 2)
        let params ← buildParameterItems frames d ps
        pure ({ name := toText k, value := toText x } :: params))
        fun params => CleanTexts P → params.all Parameter.representable = true := by
      intro x sub
      refine (copy_ensures _ _).seq (reach_ensures.seq (ih.bind fun params others => .pure fun clean => ?_))
      simp only [List.all_cons, param_representable key (clean chars hP) noSurrogate sub, others clean,
        Bool.and_self]
    split
    · split
      · exact reach_ensures.seq (copied _ fun _ => mem_of_mem_unquote)
      · exact copied _ fun _ => mem_of_mem_unquote
    · exact copied chars fun _ mem => mem

theorem buildNoParameters_ensures : Ensures (buildNoParameters frames d) fun ps => ps = [] := by
  unfold buildNoParameters
  exact reach_ensures.seq (reach_ensures.seq ((collection_ensures _ _).seq (reach_ensures.seq (.pure rfl))))

theorem buildParameterizedId_ensures {w : List Nat} {pch : List Node} (tree : PidTree P w pch) :
    Ensures (buildParameterizedId frames d pch)
      fun p => ofText p.id = w ∧ (CleanTexts P → p.representable = true) := by
  obtain ⟨ident, params⟩ := tree
  unfold buildParameterizedId
  refine reach_ensures.seq (reach_ensures.seq ?_)
  have named : ∀ params : List Parameter, (CleanTexts P → params.all Parameter.representable = true) →
      ∀ id : String, ofText id = w → ofText (⟨id, params⟩ : ParameterizedId).id = w ∧
        (CleanTexts P → (⟨id, params⟩ : ParameterizedId).representable = true) :=
    fun params all id eq => ⟨eq, fun clean => by
      simp only [ParameterizedId.representable, isIdentText, eq, ident, all clean, Bool.and_self]⟩
  cases params with
  | absent =>
    simp only [payloadOf, beq_self_eq_true, ↓reduceIte, orFail_ok, pure_bind]
    exact (identifier_ensures ident).bind fun id eq => buildNoParameters_ensures.bind fun ps none =>
      .pure (named ps (fun _ => by simp [none]) id eq)
  | empty =>
    simp only [payloadOf, beq_self_eq_true, ↓reduceIte, orFail_ok, pure_bind]
    refine (identifier_ensures ident).bind fun id eq => ?_
    unfold buildParameters
    exact (reach_ensures.seq (reach_ensures.seq ((collection_ensures _ _).seq (reach_ensures.seq
      (.pure rfl))))).bind fun ps none => .pure (named ps (fun _ => by simp [← none]) id eq)
  | list trees =>
    simp only [payloadOf, beq_self_eq_true, ↓reduceIte, orFail_ok, pure_bind]
    refine (identifier_ensures ident).bind fun id eq => ?_
    unfold buildParameters
    exact (reach_ensures.seq (reach_ensures.seq ((collection_ensures _ _).bind fun _ _ =>
      (buildParameterItems_ensures trees).bind fun ps all => reach_ensures.seq (.pure all)))).bind
      fun ps all => .pure (named ps all id eq)

end Params

/-! ## One step of the walk

Each builder on a tree of the grammar's shape: given what the builders it calls give, what it
gives. None of them fails on the shape. -/

section Steps

variable {P : List Nat → Prop} {frames : Frames} {d : Nat}

theorem buildNoInputs_ensures : Ensures (buildNoInputs frames d) fun is => is = [] := by
  unfold buildNoInputs
  exact reach_ensures.seq (reach_ensures.seq ((collection_ensures _ _).seq (reach_ensures.seq (.pure rfl))))

theorem buildRef_var_ensures {w : List Nat} (ident : isIdent w = true) :
    Ensures (buildRef frames d "variable_ref" [.token "IDENT" w]) fun r => ∃ v, r = .var v ∧ ofText v = w := by
  unfold buildRef
  simp +decide only [payloadOf, orFail_ok, pure_bind, ↓reduceIte]
  exact reach_ensures.seq (reach_ensures.seq ((identifier_ensures ident).bind fun v eq => .pure ⟨v, rfl, eq⟩))

theorem buildRef_resolved_ensures {w : List Nat} (ident : isIdent w = true) :
    Ensures (buildRef frames d "resolved_ref" [.token "IDENT" w])
      fun r => ∃ v, r = .resolved v ∧ ofText v = w := by
  unfold buildRef
  simp +decide only [payloadOf, orFail_ok, pure_bind, ↓reduceIte]
  exact reach_ensures.seq (reach_ensures.seq ((identifier_ensures ident).bind fun v eq => .pure ⟨v, rfl, eq⟩))

theorem buildRef_atomic_ensures {w : List Nat} {pch : List Node} (tree : PidTree P w pch) :
    Ensures (buildRef frames d "atomic_ref" [.absent, .tree "parameterized_id" pch])
      fun r => ∃ pid, r = .atomic none pid ∧ ofText pid.id = w ∧ (CleanTexts P → pid.representable = true) := by
  unfold buildRef
  simp +decide only [↓reduceIte]
  exact reach_ensures.seq (reach_ensures.seq (reach_ensures.seq
    ((buildParameterizedId_ensures tree).bind fun pid ok => .pure ⟨pid, rfl, ok⟩)))

theorem buildNamespace_builtin_ensures {w : List Nat} {nch : List Node} (tree : PidTree P w nch) :
    Ensures (buildNamespace frames d "builtin_namespace" [.tree "parameterized_id" nch])
      fun n => ∃ ns, n = .builtin ns ∧ ofText ns.id = w ∧ (CleanTexts P → ns.representable = true) := by
  unfold buildNamespace
  simp +decide only [↓reduceIte]
  exact reach_ensures.seq (reach_ensures.seq (reach_ensures.seq
    (Ensures.map ((buildParameterizedId_ensures tree).mono fun ns ok => ⟨ns, rfl, ok⟩))))

theorem buildRef_builtin_ensures {w v : List Nat} {nch pch : List Node} (nsTree : PidTree P w nch)
    (tree : PidTree P v pch) :
    Ensures (buildRef frames d "atomic_ref"
      [.tree "builtin_namespace" [.tree "parameterized_id" nch], .tree "parameterized_id" pch])
      fun r => ∃ ns pid, r = .atomic (some (.builtin ns)) pid ∧ ofText ns.id = w ∧
        (CleanTexts P → ns.representable = true ∧ pid.representable = true) := by
  unfold buildRef
  simp +decide only [↓reduceIte]
  refine reach_ensures.seq (reach_ensures.seq (reach_ensures.seq
    ((buildNamespace_builtin_ensures nsTree).bind fun n nsOk => ?_)))
  obtain ⟨ns, rfl, id, nsClean⟩ := nsOk
  exact (buildParameterizedId_ensures tree).bind fun pid ok =>
    .pure ⟨ns, pid, rfl, id, fun clean => ⟨nsClean clean, ok.2 clean⟩⟩

theorem buildRef_computed_ensures {out : Node} {pch : List Node} :
    Ensures (buildRef frames d "atomic_ref" [.tree "named_namespace" [out], .tree "parameterized_id" pch])
      fun _ => False := by
  unfold buildRef buildNamespace
  simp +decide only [↓reduceIte]
  refine reach_ensures.seq (reach_ensures.seq (reach_ensures.seq ?_))
  -- the computed namespace has no meaning yet: its walk fails before the id is built
  refine (reach_ensures.seq (reach_ensures.seq ?_)).bind fun _ (none : False) => none.elim
  exact .throw trivial

theorem buildRef_nested_ensures {nch : List Node} {q : Name → Prop} (h : Ensures (buildName frames (d + 1) nch) q) :
    Ensures (buildRef frames d "nested_ref" [.tree "name" nch]) fun r => ∃ n, r = .nested n ∧ q n := by
  unfold buildRef
  simp +decide only [↓reduceIte]
  exact reach_ensures.seq (reach_ensures.seq (reach_ensures.seq
    (h.bind fun n ok => (node_ensures _).seq (.pure ⟨n, rfl, ok⟩))))

theorem buildSubstitution_single_ensures {tag : String} {ch : List Node} {q : Ref → Prop}
    (hr : Ensures (buildRef frames (d + 1) tag ch) q) :
    Ensures (buildSubstitution frames d [.tree tag ch]) fun s => q s.ref ∧ s.inputs = [] := by
  unfold buildSubstitution
  exact reach_ensures.seq (reach_ensures.seq (hr.bind fun r ok =>
    buildNoInputs_ensures.bind fun is none => .pure ⟨ok, none⟩))

theorem buildSubstitution_absent_ensures {tag : String} {ch : List Node} {q : Ref → Prop}
    (hr : Ensures (buildRef frames (d + 1) tag ch) q) :
    Ensures (buildSubstitution frames d [.tree tag ch, .absent]) fun s => q s.ref ∧ s.inputs = [] := by
  unfold buildSubstitution
  exact reach_ensures.seq (reach_ensures.seq (hr.bind fun r ok =>
    buildNoInputs_ensures.bind fun is none => .pure ⟨ok, none⟩))

theorem buildSubstitution_multiary_ensures {tag : String} {ch mch : List Node} {q : Ref → Prop}
    {qi : List Input → Prop} (hr : Ensures (buildRef frames (d + 1) tag ch) q)
    (hi : Ensures (buildInputs frames (d + 1) mch) qi) :
    Ensures (buildSubstitution frames d [.tree tag ch, .tree "multiary" mch]) fun s => q s.ref ∧ qi s.inputs := by
  unfold buildSubstitution
  exact reach_ensures.seq (reach_ensures.seq (hr.bind fun r ok =>
    hi.bind fun is inputs => .pure ⟨ok, inputs⟩))

theorem buildInputs_none_ensures {index : Node} (tree : IndexTree index) :
    Ensures (buildInputs frames d [index, .absent]) fun is => is = [] := by
  unfold buildInputs
  cases tree with
  | absent => exact reach_ensures.seq (reach_ensures.seq (reach_ensures.seq ((collection_ensures _ _).seq
      (reach_ensures.seq (.pure rfl)))))
  | index => exact reach_ensures.seq (reach_ensures.seq (.throw trivial))

theorem buildInputs_specs_ensures {index : Node} {items : List Node} {q : List Input → Prop}
    (tree : IndexTree index) (h : Ensures (buildInputItems frames d items) q) :
    Ensures (buildInputs frames d [index, .tree "spec_list" items]) q := by
  unfold buildInputs
  cases tree with
  | absent => exact reach_ensures.seq (reach_ensures.seq (reach_ensures.seq ((collection_ensures _ _).seq
      (h.bind fun is ok => reach_ensures.seq (.pure ok)))))
  | index => exact reach_ensures.seq (reach_ensures.seq (.throw trivial))

theorem buildInputItems_nil_ensures {q : List Input → Prop} (h : q []) :
    Ensures (buildInputItems frames d []) q := by
  unfold buildInputItems
  exact .pure h

theorem buildInputItems_cons_ensures {ch rest : List Node} {q : Input → Prop} {qs : List Input → Prop}
    (hi : Ensures (buildInput frames (d + 1) ch) q) (hrest : Ensures (buildInputItems frames d rest) qs) :
    Ensures (buildInputItems frames d (.tree "substitution_spec" ch :: rest))
      fun is => ∃ i is', is = i :: is' ∧ q i ∧ qs is' := by
  unfold buildInputItems
  exact reach_ensures.seq (hi.bind fun i ok => reach_ensures.seq (hrest.bind fun is' oks =>
    .pure ⟨i, is', rfl, ok, oks⟩))

theorem identifier_some_ensures {w : List Nat} (ident : isIdent w = true) :
    Ensures (some <$> identifier frames d (.token "IDENT" w)) fun o => ∃ a, o = some a ∧ ofText a = w :=
  Ensures.map ((identifier_ensures ident).mono fun a eq => ⟨a, rfl, eq⟩)

theorem buildInput_named_ensures {t : List Nat} {och : List Node} {q : OutputRef → Prop}
    (ident : isIdent t = true) (ho : Ensures (buildOutputRef frames (d + 1) och) q) :
    Ensures (buildInput frames d [.token "IDENT" t, .tree "output_ref" och])
      fun i => (∃ a, i.id = some a ∧ ofText a = t) ∧ q i.value := by
  unfold buildInput
  simp +decide only [optionalPayloadOf, payloadOf, Except.map, orFail_ok, pure_bind, ↓reduceIte]
  exact reach_ensures.seq (reach_ensures.seq ((identifier_some_ensures ident).bind fun id named =>
    ho.bind fun out ok => .pure ⟨named, ok⟩))

theorem buildInput_positional_ensures {och : List Node} {q : OutputRef → Prop}
    (ho : Ensures (buildOutputRef frames (d + 1) och) q) :
    Ensures (buildInput frames d [.absent, .tree "output_ref" och]) fun i => i.id = none ∧ q i.value := by
  unfold buildInput
  simp only [optionalPayloadOf, orFail_ok, pure_bind]
  exact reach_ensures.seq (reach_ensures.seq (ho.bind fun out ok => .pure ⟨rfl, ok⟩))

theorem buildOutputRef_ensures {parts : List Node} {o : Node} {q : Substitution → Prop}
    (tree : OutputIdTree o) (hs : Ensures (buildSubstitution frames (d + 1) parts) q) :
    Ensures (buildOutputRef frames d [.tree "substitution" parts, o])
      fun out => q out.sub ∧ out.output.all isIdentText = true := by
  unfold buildOutputRef
  cases tree with
  | absent =>
    simp only [optionalPayloadOf, orFail_ok, pure_bind]
    exact reach_ensures.seq (reach_ensures.seq (hs.bind fun s ok => (node_ensures _).seq
      (.pure ⟨ok, rfl⟩)))
  | ident ident =>
    simp +decide only [optionalPayloadOf, payloadOf, Except.map, orFail_ok, pure_bind, ↓reduceIte]
    refine reach_ensures.seq (reach_ensures.seq (hs.bind fun s ok => (node_ensures _).seq
      ((identifier_some_ensures ident).bind fun o named => .pure ⟨ok, ?_⟩)))
    obtain ⟨a, rfl, eq⟩ := named
    simp [isIdentText, eq, ident]

theorem buildDeclaration_ensures {b : Node} {parts : List Node} {q : Substitution → Prop}
    (binding : BindingTree b) (hval : Ensures (buildSubstitution frames (d + 1) parts) q) :
    Ensures (buildDeclaration frames d [b, .tree "substitution" parts])
      fun decl => decl.var.all isIdentText = true ∧ q decl.val := by
  unfold buildDeclaration
  cases binding with
  | unbound =>
    unfold buildBinding
    simp +decide only [↓reduceIte]
    exact reach_ensures.seq (reach_ensures.seq ((reach_ensures.seq (reach_ensures.seq (.pure rfl))).bind
      fun var none => hval.bind fun val ok => .pure ⟨by simp [← none], ok⟩))
  | bound ident =>
    unfold buildBinding
    simp +decide only [payloadOf, orFail_ok, pure_bind, ↓reduceIte]
    refine reach_ensures.seq (reach_ensures.seq ((reach_ensures.seq (reach_ensures.seq (reach_ensures.seq
      (identifier_some_ensures ident)))).bind fun var named => hval.bind fun val ok => .pure ⟨?_, ok⟩))
    obtain ⟨a, rfl, eq⟩ := named
    simp [isIdentText, eq, ident]

theorem buildDeclarationItems_nil_ensures {q : List Declaration → Prop} (h : q []) :
    Ensures (buildDeclarationItems frames d []) q := by
  unfold buildDeclarationItems
  exact .pure h

theorem buildDeclarationItems_cons_ensures {ch rest : List Node} {q : Declaration → Prop}
    {qs : List Declaration → Prop} (hd : Ensures (buildDeclaration frames (d + 1) ch) q)
    (hrest : Ensures (buildDeclarationItems frames d rest) qs) :
    Ensures (buildDeclarationItems frames d (.tree "declaration" ch :: rest))
      fun ds => ∃ decl ds', ds = decl :: ds' ∧ q decl ∧ qs ds' := by
  unfold buildDeclarationItems
  exact reach_ensures.seq (hd.bind fun decl ok => (node_ensures _).seq (reach_ensures.seq
    (hrest.bind fun ds' oks => .pure ⟨decl, ds', rfl, ok, oks⟩)))

theorem buildName_ensures {items parts : List Node} {q : List Declaration → Prop} {qt : Substitution → Prop}
    (hds : Ensures (buildDeclarationItems frames (d + 1) items) q)
    (ht : Ensures (buildSubstitution frames (d + 1) parts) qt) :
    Ensures (buildName frames d [.tree "declarations" items, .tree "substitution" parts])
      fun n => q n.decls ∧ qt n.term := by
  unfold buildName buildDeclarations
  exact reach_ensures.seq (reach_ensures.seq ((reach_ensures.seq (reach_ensures.seq ((collection_ensures _ _).seq
    (hds.bind fun ds ok => reach_ensures.seq (.pure ok))))).bind fun ds ok =>
      ht.bind fun t okt => .pure ⟨ok, okt⟩))

end Steps

/-! ## The whole walk -/

section Knot

variable {P : List Nat → Prop} {frames : Frames}

/-- What the walk of a substitution gives: a reference whose leading word is the tree's, and a
substitution that is representable when the texts are clean. -/
def SubstOk (P : List Nat → Prop) (lead : Option (List Nat)) (s : Substitution) : Prop :=
  s.ref.leadingWord.map ofText = lead ∧ (CleanTexts P → s.representable = true)

theorem ne_of_ofText_ne {v word : String} {w : List Nat} (eq : ofText v = w) (ne : w ≠ ofText word) :
    v ≠ word := by
  rintro rfl
  exact ne eq.symm

def InputOk (P : List Nat → Prop) (i : Input) : Prop :=
  CleanTexts P → (i.id.all fun a => isIdentText a && a != "resolved") = true ∧ i.value.representable = true

mutual

theorem NameTree.ensures : ∀ {nch : List Node}, NameTree P nch → ∀ d,
    Ensures (buildName frames d nch) fun n => CleanTexts P → n.representable = true
  | _, .mk decls subst notLet, d => by
    refine (buildName_ensures (decls.ensures (d + 1)) (subst.ensures (d + 1))).mono ?_
    rintro ⟨ds, t⟩ ⟨declsOk, leads, termOk⟩ clean
    -- the last substitution leads with the tree's word, which is not `let`
    have notLetText : t.ref.leadingWord ≠ some "let" := by
      intro isLet
      rw [isLet] at leads
      exact notLet leads.symm
    simp [Name.representable, declsOk clean, termOk clean, notLetText]

theorem DeclTrees.ensures : ∀ {items : List Node}, DeclTrees P items → ∀ d,
    Ensures (buildDeclarationItems frames d items) fun ds => CleanTexts P → Declaration.representableList ds = true
  | _, .nil, _ => buildDeclarationItems_nil_ensures fun _ => rfl
  | _, .cons binding subst rest, d => by
    refine (buildDeclarationItems_cons_ensures (buildDeclaration_ensures binding (subst.ensures (d + 2)))
      (rest.ensures d)).mono ?_
    rintro _ ⟨⟨var, val⟩, ds, rfl, ⟨varOk, -, valOk⟩, restOk⟩ clean
    simp only [Declaration.representableList, varOk, valOk clean, restOk clean, Bool.and_self]

theorem SubstTree.ensures : ∀ {lead : Option (List Nat)} {parts : List Node}, SubstTree P lead parts → ∀ d,
    Ensures (buildSubstitution frames d parts) (SubstOk P lead)
  | _, _, .var ident notResolved, _ => by
    refine (buildSubstitution_single_ensures (buildRef_var_ensures ident)).mono ?_
    rintro ⟨_, _⟩ ⟨⟨v, rfl, eq⟩, rfl⟩
    refine ⟨by simp [Ref.leadingWord, eq], fun _ => ?_⟩
    simp [Substitution.representable, Ref.representable, isIdentText, eq, ident, Ref.leadingWord,
      ne_of_ofText_ne eq notResolved, Input.representableList]
  | _, _, .resolved ident, _ => by
    refine (buildSubstitution_single_ensures (buildRef_resolved_ensures ident)).mono ?_
    rintro ⟨_, _⟩ ⟨⟨v, rfl, eq⟩, rfl⟩
    refine ⟨rfl, fun _ => ?_⟩
    simp [Substitution.representable, Ref.representable, isIdentText, eq, ident, Ref.leadingWord,
      Input.representableList]
  | _, _, .atomic pidTree notResolved inputs, d => by
    obtain ⟨mch, rfl, hi⟩ := inputs.ensures (d + 1)
    refine (buildSubstitution_multiary_ensures (buildRef_atomic_ensures pidTree) hi).mono ?_
    rintro ⟨_, is⟩ ⟨⟨pid, rfl, eq, pidOk⟩, isOk⟩
    refine ⟨by simp [Ref.leadingWord, eq], fun clean => ?_⟩
    simp [Substitution.representable, Ref.representable, pidOk clean, Ref.takesInputs, Ref.leadingWord,
      ne_of_ofText_ne eq notResolved, isOk clean]
  | _, _, .builtin nsTree notResolved pidTree inputs, d => by
    obtain ⟨mch, rfl, hi⟩ := inputs.ensures (d + 1)
    refine (buildSubstitution_multiary_ensures (buildRef_builtin_ensures nsTree pidTree) hi).mono ?_
    rintro ⟨_, is⟩ ⟨⟨ns, pid, rfl, eq, refOk⟩, isOk⟩
    refine ⟨by simp [Ref.leadingWord, eq], fun clean => ?_⟩
    simp [Substitution.representable, Ref.representable, refOk clean, Ref.takesInputs, Ref.leadingWord,
      ne_of_ofText_ne eq notResolved, isOk clean]
  | _, _, .computed _ _ inputs, d => by
    obtain ⟨mch, rfl, hi⟩ := inputs.ensures (d + 1)
    exact (buildSubstitution_multiary_ensures buildRef_computed_ensures hi).mono fun _ ok => ok.1.elim
  | _, _, .nested nameTree, d => by
    refine (buildSubstitution_absent_ensures (buildRef_nested_ensures (nameTree.ensures (d + 2)))).mono ?_
    rintro ⟨_, _⟩ ⟨⟨n, rfl, nameOk⟩, rfl⟩
    refine ⟨rfl, fun clean => ?_⟩
    simp [Substitution.representable, Ref.representable, nameOk clean, Ref.takesInputs, Ref.leadingWord,
      Input.representableList]
  | _, _, .nestedInputs nameTree inputs, d => by
    obtain ⟨mch, rfl, hi⟩ := inputs.ensures (d + 1)
    refine (buildSubstitution_multiary_ensures (buildRef_nested_ensures (nameTree.ensures (d + 2))) hi).mono ?_
    rintro ⟨_, is⟩ ⟨⟨n, rfl, nameOk⟩, isOk⟩
    refine ⟨rfl, fun clean => ?_⟩
    simp [Substitution.representable, Ref.representable, nameOk clean, Ref.takesInputs, Ref.leadingWord,
      isOk clean]

theorem InputsTree.ensures : ∀ {m : Node}, InputsTree P m → ∀ d, ∃ mch, m = .tree "multiary" mch ∧
    Ensures (buildInputs frames d mch) fun is => CleanTexts P → Input.representableList is = true
  | _, .none index, _ => ⟨_, rfl, (buildInputs_none_ensures index).mono fun is none _ => by simp [none, Input.representableList]⟩
  | _, .specs index specs, d => ⟨_, rfl, buildInputs_specs_ensures index (specs.ensures d)⟩

theorem SpecTrees.ensures : ∀ {specs : List Node}, SpecTrees P specs → ∀ d,
    Ensures (buildInputItems frames d specs) fun is => CleanTexts P → Input.representableList is = true
  | _, .nil, _ => buildInputItems_nil_ensures fun _ => rfl
  | _, .cons spec rest, d => by
    obtain ⟨ch, rfl, first⟩ := spec.ensures (d + 1)
    refine (buildInputItems_cons_ensures first (rest.ensures d)).mono ?_
    rintro _ ⟨⟨id, out⟩, is, rfl, inputOk, restOk⟩ clean
    obtain ⟨idOk, outOk⟩ := inputOk clean
    simp only [Input.representableList, idOk, outOk, restOk clean, Bool.and_self]

theorem SpecTree.ensures : ∀ {s : Node}, SpecTree P s → ∀ d, ∃ ch, s = .tree "substitution_spec" ch ∧
    Ensures (buildInput frames d ch) (InputOk P)
  | _, .named ident notResolved output, d => by
    obtain ⟨och, rfl, out⟩ := output.ensures (d + 1)
    refine ⟨_, rfl, (buildInput_named_ensures ident out).mono ?_⟩
    rintro ⟨id, value⟩ ⟨⟨a, rfl, eq⟩, valueOk⟩ clean
    exact ⟨by simp [isIdentText, eq, ident, ne_of_ofText_ne eq notResolved], valueOk clean⟩
  | _, .positional output, d => by
    obtain ⟨och, rfl, out⟩ := output.ensures (d + 1)
    refine ⟨_, rfl, (buildInput_positional_ensures out).mono ?_⟩
    rintro ⟨id, value⟩ ⟨rfl, valueOk⟩ clean
    exact ⟨rfl, valueOk clean⟩

theorem OutputTree.ensures : ∀ {o : Node}, OutputTree P o → ∀ d, ∃ och, o = .tree "output_ref" och ∧
    Ensures (buildOutputRef frames d och) fun out => CleanTexts P → out.representable = true
  | _, .mk subst outputId, d => by
    refine ⟨_, rfl, (buildOutputRef_ensures outputId (subst.ensures (d + 1))).mono ?_⟩
    rintro ⟨sub, output⟩ ⟨⟨-, subOk⟩, outOk⟩ clean
    simp only [OutputRef.representable, subOk clean, outOk, Bool.and_self]

end

theorem NameTree.ensures_buildRoot {nch : List Node} (tree : NameTree P nch) :
    Ensures (buildRoot frames (.tree "name" nch)) fun n => CleanTexts P → n.representable = true := by
  unfold buildRoot
  exact tree.ensures _

end Knot

end ArtifactNames
