import ArtifactNames.Proofs.Name.Render
import ArtifactNames.Name.Build

/-! The walk over a printed tree gives the name back (`Walk.Yields`), one step lemma per builder;
each level of substitution needs five frames of stack. -/

namespace ArtifactNames

open Syntax Text Storage Walk

def WalkState.Granting (s : WalkState) : Prop := s.allocator.refuseFrom = none

/-- From every state whose allocator grants everything, the walk gives `a` and leaves such a
state. -/
def Walk.Yields {α : Type} (w : Walk α) (a : α) : Prop :=
  ∀ s : WalkState, s.Granting → ∃ s', s'.Granting ∧ w.run.run s = (.ok a, s')

def Frames.policy (frames : Frames) (d : Nat) : Nat :=
  if frames.recorded then d + 2 else d + 1

namespace Walk

variable {frames : Frames} {d : Nat}

theorem Yields.pure {α : Type} (a : α) : Yields (Pure.pure a) a :=
  fun s h => ⟨s, h, rfl⟩

theorem Yields.bind {α β : Type} {x : Walk α} {f : α → Walk β} {a : α} {b : β} (hx : Yields x a)
    (hf : Yields (f a) b) : Yields (x >>= f) b := by
  intro s h
  obtain ⟨s1, h1, e1⟩ := hx s h
  obtain ⟨s2, h2, e2⟩ := hf s1 h1
  refine ⟨s2, h2, ?_⟩
  simp only [ExceptT.run_bind, StateT.run_bind, e1]
  exact e2

theorem Yields.map {α β : Type} {x : Walk α} {f : α → β} {a : α} (hx : Yields x a) :
    Yields (f <$> x) (f a) := by
  rw [map_eq_pure_bind]
  exact hx.bind (Yields.pure _)

theorem reach_yields (h : d ≤ frames.limit) : Yields (reach frames d) () := by
  rw [reach, if_pos h]
  exact Yields.pure ()

theorem record_yields (call : FactoryCall) : Yields (record call) () :=
  fun s h => ⟨{ s with trace := s.trace.push call }, h, rfl⟩

theorem request_yields : Yields request true := by
  intro s h
  have refuses : s.allocator.refuses = false := by
    unfold WalkState.Granting at h
    simp [Allocator.refuses, h]
  have run : request.run.run s = (.ok (!s.allocator.refuses), { s with allocator := s.allocator.request.2 }) :=
    rfl
  rw [run, refuses]
  exact ⟨{ s with allocator := s.allocator.request.2 }, h, rfl⟩

theorem enterPolicy_yields (call : FactoryCall) (h : d + 2 ≤ frames.limit) :
    Yields (enterPolicy frames d call) (frames.policy d) := by
  unfold enterPolicy Frames.policy
  split
  · exact (reach_yields (by omega)).bind ((record_yields call).bind ((reach_yields (by omega)).bind (Yields.pure _)))
  · exact (reach_yields (by omega)).bind ((record_yields call).bind (Yields.pure _))

theorem reach_of_le (h : d ≤ frames.limit) : reach frames d = pure () := by
  rw [reach, if_pos h]

theorem orFail_ok {α : Type} (a : α) : orFail (.ok a : Except ParseError α) = pure a := rfl

theorem policy_le (frames : Frames) (d : Nat) : frames.policy d ≤ d + 2 := by
  unfold Frames.policy
  split <;> omega

theorem collection_yields (kind : CollectionKind) (count : Nat)
    (room : d + 5 + frames.requestDepth ≤ frames.limit) : Yields (collection frames d kind count) () := by
  have := policy_le frames d
  unfold collection
  refine (enterPolicy_yields _ (by omega)).bind ?_
  simp (disch := omega) only [reach_of_le, pure_bind]
  split
  · exact request_yields.bind (Yields.pure ())
  · exact Yields.pure ()

theorem node_yields (kind : NodeKind)
    (room : d + 5 + frames.requestDepth ≤ frames.limit) : Yields (node frames d kind) () := by
  have := policy_le frames d
  unfold node
  refine (enterPolicy_yields _ (by omega)).bind ?_
  simp (disch := omega) only [reach_of_le, pure_bind]
  exact request_yields.bind (Yields.pure ())

theorem copy_yields (kind : TextKind) (text : String)
    (room : d + 2 ≤ frames.limit) : Yields (copy frames d kind text) () := by
  unfold copy
  exact (enterPolicy_yields _ room).bind (Yields.pure ())

end Walk

theorem firstSurrogateRun_eq_none {cs : List Nat} (h : ∀ c ∈ cs, c.isValidChar) : firstSurrogateRun cs = none := by
  rw [firstSurrogateRun, List.findIdx?_eq_none_iff.mpr]
  intro c mem
  have := h c mem
  simp only [isSurrogate, Bool.and_eq_false_iff, decide_eq_false_iff_not, Nat.not_le, Nat.isValidChar] at this ⊢
  omega

theorem payloadChars_token (kind : String) {cs : List Nat} (h : ∀ c ∈ cs, c.isValidChar) :
    payloadChars (.token kind cs) = .ok cs := by
  simp [payloadChars, firstSurrogateRun_eq_none h]

section Builders

variable {frames : Frames} {d : Nat}

theorem identifier_yields (s : String) (room : d + 2 ≤ frames.limit) :
    Yields (identifier frames d (identTree s)) s := by
  unfold identifier identTree
  simp (disch := omega) only [reach_of_le, pure_bind, payloadChars_token _ (clean_ofText s), orFail_ok, toText_ofText]
  exact (copy_yields _ _ room).bind (Yields.pure s)

theorem clean_quote (v : String) : ∀ c ∈ quote (ofText v), c.isValidChar := by
  intro c mem
  simp only [quote, List.mem_cons, List.mem_append, List.not_mem_nil, or_false] at mem
  rcases mem with (rfl | inEscape) | rfl
  · decide
  · rcases mem_escape inEscape with h | rfl
    · exact clean_ofText v c h
    · decide
  · decide

theorem buildParameterItems_yields (ps : List Parameter)
    (h : ps.all Parameter.representable = true) (room : d + 5 + frames.requestDepth ≤ frames.limit) :
    Yields (buildParameterItems frames d (ps.map Parameter.tree)) ps := by
  induction ps with
  | nil => rw [List.map_nil, buildParameterItems]; exact Yields.pure []
  | cons p ps ih =>
    simp only [List.all_cons, Bool.and_eq_true] at h
    simp +decide (disch := omega) only [List.map_cons, buildParameterItems, Parameter.tree, identTree,
      reach_of_le, pure_bind, payloadOf, ↓reduceIte, orFail_ok,
      payloadChars_token _ (clean_ofText p.name), payloadChars_token _ (clean_quote p.value), ite_self,
      unquote_quote, toText_ofText]
    exact (copy_yields _ _ (by omega)).bind ((copy_yields _ _ (by omega)).bind ((ih h.2).bind (Yields.pure _)))

theorem buildNoParameters_yields (room : d + 5 + frames.requestDepth ≤ frames.limit) :
    Yields (buildNoParameters frames d) [] := by
  unfold buildNoParameters
  simp (disch := omega) only [reach_of_le, pure_bind]
  exact (collection_yields _ _ room).bind (Yields.pure [])

theorem buildParameters_yields (ps : List Parameter)
    (h : ps.all Parameter.representable = true) (room : d + 5 + frames.requestDepth ≤ frames.limit) :
    Yields (buildParameters frames d [.tree "param_list" (ps.map Parameter.tree)]) ps := by
  unfold buildParameters
  simp (disch := omega) only [reach_of_le, pure_bind]
  exact (collection_yields _ _ room).bind ((buildParameterItems_yields ps h room).bind (Yields.pure ps))

theorem ParameterizedId.builds (p : ParameterizedId) (h : p.representable = true)
    (room : d + 6 + frames.requestDepth ≤ frames.limit) :
    Yields (buildParameterizedId frames d [identTree p.id, paramsTree p.params]) p := by
  simp only [ParameterizedId.representable, Bool.and_eq_true] at h
  unfold buildParameterizedId
  obtain ⟨id, _ | ⟨q, qs⟩⟩ := p
  · simp (disch := omega) only [reach_of_le, pure_bind, paramsTree, identTree, payloadOf, beq_self_eq_true,
      ↓reduceIte, orFail_ok]
    exact (identifier_yields id (by omega)).bind ((buildNoParameters_yields (by omega)).bind (Yields.pure _))
  · simp (disch := omega) only [reach_of_le, pure_bind, paramsTree, identTree, payloadOf, beq_self_eq_true,
      ↓reduceIte, orFail_ok]
    exact (identifier_yields id (by omega)).bind ((buildParameters_yields (q :: qs) h.2 (by omega)).bind
      (Yields.pure _))

theorem buildNoInputs_yields (room : d + 5 + frames.requestDepth ≤ frames.limit) :
    Yields (buildNoInputs frames d) [] := by
  unfold buildNoInputs
  simp (disch := omega) only [reach_of_le, pure_bind]
  exact (collection_yields _ _ room).bind (Yields.pure [])

theorem buildBinding_yields (var : Option String) (room : d + 3 ≤ frames.limit) {tag : String} {children : List Node}
    (tree : bindingTree var = .tree tag children) : Yields (buildBinding frames d tag children) var := by
  cases var with
  | none =>
    cases tree
    unfold buildBinding
    simp (disch := omega) only [reach_of_le, pure_bind, beq_self_eq_true, ↓reduceIte]
    exact Yields.pure none
  | some v =>
    cases tree
    unfold buildBinding
    simp +decide (disch := omega) only [reach_of_le, pure_bind, ↓reduceIte, payloadOf, identTree,
      orFail_ok]
    exact (identifier_yields v (by omega)).map

theorem buildDeclaration_yields (var : Option String) (val : Substitution)
    (hval : Yields (buildSubstitution frames (d + 1) val.parts) val)
    (room : d + 4 ≤ frames.limit) :
    Yields (buildDeclaration frames d [bindingTree var, .tree "substitution" val.parts]) ⟨var, val⟩ := by
  obtain ⟨tag, children, tree⟩ : ∃ tag children, bindingTree var = .tree tag children := by
    cases var <;> simp [bindingTree]
  unfold buildDeclaration
  simp (disch := omega) only [tree, reach_of_le, pure_bind]
  exact (buildBinding_yields var (by omega) tree).bind (hval.bind (Yields.pure _))

theorem buildDeclarationItems_nil (frames : Frames) (d : Nat) : buildDeclarationItems frames d [] = pure [] := by
  simp [buildDeclarationItems]

theorem buildDeclarationItems_cons {children rest : List Node} {decl : Declaration}
    {ds : List Declaration} (hd : Yields (buildDeclaration frames (d + 1) children) decl)
    (hrest : Yields (buildDeclarationItems frames d rest) ds) (room : d + 5 + frames.requestDepth ≤ frames.limit) :
    Yields (buildDeclarationItems frames d (.tree "declaration" children :: rest)) (decl :: ds) := by
  simp (disch := omega) only [buildDeclarationItems, reach_of_le, pure_bind]
  exact hd.bind ((node_yields _ room).bind (hrest.bind (Yields.pure _)))

theorem buildDeclarations_yields {items : List Node} {ds : List Declaration}
    (h : Yields (buildDeclarationItems frames d items) ds) (room : d + 5 + frames.requestDepth ≤ frames.limit) :
    Yields (buildDeclarations frames d items) ds := by
  unfold buildDeclarations
  simp (disch := omega) only [reach_of_le, pure_bind]
  exact (collection_yields _ _ room).bind (h.bind (Yields.pure _))

theorem buildName_yields {items parts : List Node} {ds : List Declaration}
    {t : Substitution} (hds : Yields (buildDeclarations frames (d + 1) items) ds)
    (ht : Yields (buildSubstitution frames (d + 1) parts) t) (room : d + 3 ≤ frames.limit) :
    Yields (buildName frames d [.tree "declarations" items, .tree "substitution" parts]) ⟨ds, t⟩ := by
  unfold buildName
  simp (disch := omega) only [reach_of_le, pure_bind]
  exact hds.bind (ht.bind (Yields.pure _))

theorem buildSubstitution_single {tag : String} {children : List Node} {r : Ref}
    (hr : Yields (buildRef frames (d + 1) tag children) r) (room : d + 6 + frames.requestDepth ≤ frames.limit) :
    Yields (buildSubstitution frames d [.tree tag children]) ⟨r, []⟩ := by
  unfold buildSubstitution
  simp (disch := omega) only [reach_of_le, pure_bind]
  exact hr.bind ((buildNoInputs_yields (by omega)).bind (Yields.pure _))

theorem buildSubstitution_absent {tag : String} {children : List Node} {r : Ref}
    (hr : Yields (buildRef frames (d + 1) tag children) r) (room : d + 6 + frames.requestDepth ≤ frames.limit) :
    Yields (buildSubstitution frames d [.tree tag children, .absent]) ⟨r, []⟩ := by
  unfold buildSubstitution
  simp (disch := omega) only [reach_of_le, pure_bind]
  exact hr.bind ((buildNoInputs_yields (by omega)).bind (Yields.pure _))

theorem buildSubstitution_multiary {tag : String} {children : List Node} {r : Ref}
    (is : List Input) (hr : Yields (buildRef frames (d + 1) tag children) r)
    (hi : Yields (buildInputItems frames (d + 1) (Input.trees is)) is)
    (room : d + 6 + frames.requestDepth ≤ frames.limit) :
    Yields (buildSubstitution frames d [.tree tag children, multiaryTree (Input.trees is)]) ⟨r, is⟩ := by
  unfold buildSubstitution
  cases is with
  | nil =>
    simp (disch := omega) only [Input.trees, multiaryTree, reach_of_le, pure_bind]
    unfold buildInputs
    simp (disch := omega) only [reach_of_le, pure_bind, bind_assoc]
    exact hr.bind ((collection_yields _ _ (by omega)).bind (Yields.pure _))
  | cons i is =>
    simp (disch := omega) only [Input.trees, multiaryTree, reach_of_le, pure_bind]
    unfold buildInputs
    simp (disch := omega) only [reach_of_le, pure_bind, bind_assoc]
    exact hr.bind ((collection_yields _ _ (by omega)).bind (hi.bind (Yields.pure _)))

theorem buildSubstitution_nestedInputs {tag : String} {children : List Node}
    {r : Ref} (is : List Input) (hr : Yields (buildRef frames (d + 1) tag children) r)
    (hi : Yields (buildInputItems frames (d + 1) (Input.trees is)) is)
    (room : d + 6 + frames.requestDepth ≤ frames.limit) :
    Yields (buildSubstitution frames d [.tree tag children, nestedInputsTree (Input.trees is)]) ⟨r, is⟩ := by
  cases is with
  | nil => exact buildSubstitution_absent hr room
  | cons i is => exact buildSubstitution_multiary (i :: is) hr hi room

theorem buildNamespace_builtin (ns : ParameterizedId) (h : ns.representable = true)
    (room : d + 7 + frames.requestDepth ≤ frames.limit) :
    Yields (buildNamespace frames d "builtin_namespace" [ns.tree]) (.builtin ns) := by
  unfold buildNamespace
  simp (disch := omega) only [ParameterizedId.tree, reach_of_le, pure_bind, beq_self_eq_true, ↓reduceIte]
  exact (ParameterizedId.builds ns h (by omega)).map

theorem buildRef_atomic (ns : Option Namespace) (pid : ParameterizedId)
    (h : (Ref.atomic ns pid).representable = true) (room : d + 8 + frames.requestDepth ≤ frames.limit) :
    Yields (buildRef frames d "atomic_ref" [Namespace.treeOpt ns, pid.tree]) (.atomic ns pid) := by
  unfold buildRef
  match ns with
  | none =>
    simp (disch := omega) only [Namespace.treeOpt, ParameterizedId.tree, reach_of_le, pure_bind,
      beq_self_eq_true, ↓reduceIte]
    exact (ParameterizedId.builds pid (by simpa [Ref.representable] using h) (by omega)).map
  | some (.builtin ns) =>
    simp only [Ref.representable, Bool.and_eq_true] at h
    simp (disch := omega) only [Namespace.treeOpt, ParameterizedId.tree, reach_of_le, pure_bind,
      beq_self_eq_true, ↓reduceIte]
    exact (buildNamespace_builtin ns h.1 (by omega)).bind ((ParameterizedId.builds pid h.2 (by omega)).map)
  | some (.computed _) => simp [Ref.representable] at h

theorem buildRef_var (v : String) (room : d + 3 ≤ frames.limit) :
    Yields (buildRef frames d "variable_ref" [identTree v]) (.var v) := by
  unfold buildRef
  simp +decide (disch := omega) only [identTree, reach_of_le, pure_bind, payloadOf, orFail_ok, ↓reduceIte]
  exact (identifier_yields v (by omega)).bind (Yields.pure _)

theorem buildRef_resolved (v : String) (room : d + 3 ≤ frames.limit) :
    Yields (buildRef frames d "resolved_ref" [identTree v]) (.resolved v) := by
  unfold buildRef
  simp +decide (disch := omega) only [identTree, reach_of_le, pure_bind, payloadOf, orFail_ok, ↓reduceIte]
  exact (identifier_yields v (by omega)).bind (Yields.pure _)

theorem buildRef_nested {children : List Node} {n : Name}
    (hn : Yields (buildName frames (d + 1) children) n) (room : d + 5 + frames.requestDepth ≤ frames.limit) :
    Yields (buildRef frames d "nested_ref" [.tree "name" children]) (.nested n) := by
  unfold buildRef
  simp +decide (disch := omega) only [reach_of_le, pure_bind, ↓reduceIte]
  exact hn.bind ((node_yields _ room).bind (Yields.pure _))

theorem buildInputItems_cons {children rest : List Node} {i : Input}
    {is : List Input} (hi : Yields (buildInput frames (d + 1) children) i)
    (hrest : Yields (buildInputItems frames d rest) is) (room : d + 3 ≤ frames.limit) :
    Yields (buildInputItems frames d (.tree "substitution_spec" children :: rest)) (i :: is) := by
  simp (disch := omega) only [buildInputItems, reach_of_le, pure_bind]
  exact hi.bind (hrest.bind (Yields.pure _))

theorem buildInput_yields {children : List Node} {out : OutputRef}
    (id : Option String) (ho : Yields (buildOutputRef frames (d + 1) children) out) (room : d + 3 ≤ frames.limit) :
    Yields (buildInput frames d [optIdentTree id, .tree "output_ref" children]) ⟨id, out⟩ := by
  unfold buildInput
  cases id with
  | none =>
    simp (disch := omega) only [optIdentTree, optionalPayloadOf, reach_of_le, pure_bind, orFail_ok]
    exact ho.bind (Yields.pure _)
  | some a =>
    simp +decide (disch := omega) only [optIdentTree, identTree, optionalPayloadOf, payloadOf, Except.map,
      reach_of_le, pure_bind, orFail_ok, ↓reduceIte]
    exact (identifier_yields a (by omega)).map.bind (ho.bind (Yields.pure _))

theorem buildOutputRef_yields {parts : List Node} {sub : Substitution}
    (out : Option String) (hs : Yields (buildSubstitution frames (d + 1) parts) sub)
    (room : d + 5 + frames.requestDepth ≤ frames.limit) :
    Yields (buildOutputRef frames d [.tree "substitution" parts, optIdentTree out]) ⟨sub, out⟩ := by
  unfold buildOutputRef
  cases out with
  | none =>
    simp (disch := omega) only [optIdentTree, optionalPayloadOf, reach_of_le, pure_bind, orFail_ok]
    exact hs.bind ((node_yields _ room).bind (Yields.pure _))
  | some a =>
    simp +decide (disch := omega) only [optIdentTree, identTree, optionalPayloadOf, payloadOf, Except.map,
      reach_of_le, pure_bind, orFail_ok, ↓reduceIte]
    exact hs.bind ((node_yields _ room).bind ((identifier_yields a (by omega)).map.bind (Yields.pure _)))

end Builders

theorem Name.tree_eq (n : Name) :
    n.tree = .tree "name" [.tree "declarations" (Declaration.trees n.decls), .tree "substitution" n.term.parts] := by
  cases n
  simp [Name.tree]

theorem buildInputItems_nil (frames : Frames) (d : Nat) : buildInputItems frames d [] = pure [] := by
  simp [buildInputItems]

section Knot

variable {frames : Frames}

-- The room each lemma asks for is what its builder reaches below `d`: five frames per level of
-- substitution, and a fixed tail for the parameters, the identifiers and the storage calls.
mutual

theorem Name.builds : ∀ (n : Name), n.representable = true → ∀ d : Nat,
    d + 5 * n.depth + 7 + frames.requestDepth ≤ frames.limit →
    Yields (buildName frames d [.tree "declarations" (Declaration.trees n.decls),
      .tree "substitution" n.term.parts]) n
  | ⟨ds, t⟩, h, d, room => by
    simp only [Name.representable, Bool.and_eq_true] at h
    simp only [Name.depth] at room
    have decls := Declaration.buildsItems ds h.1.1 (d + 1) (by omega)
    have term := Substitution.builds t h.1.2 (d + 1) (by omega)
    exact buildName_yields (buildDeclarations_yields decls (by omega)) term (by omega)

theorem Declaration.buildsItems : ∀ (ds : List Declaration), Declaration.representableList ds = true →
    ∀ d : Nat, d + 5 * Declaration.depthList ds + 6 + frames.requestDepth ≤ frames.limit →
    Yields (buildDeclarationItems frames d (Declaration.trees ds)) ds
  | [], _, d, _ => by
    rw [Declaration.trees, buildDeclarationItems_nil]
    exact Yields.pure []
  | ⟨var, val⟩ :: ds, h, d, room => by
    simp only [Declaration.representableList, Bool.and_eq_true] at h
    simp only [Declaration.depthList] at room
    have first := buildDeclaration_yields var val (Substitution.builds val h.1.2 (d + 2) (by omega)) (by omega)
    have rest := Declaration.buildsItems ds h.2 d (by omega)
    simp only [Declaration.trees, Declaration.tree]
    exact buildDeclarationItems_cons first rest (by omega)

theorem Substitution.builds : ∀ (s : Substitution), s.representable = true → ∀ d : Nat,
    d + 5 * s.depth + 4 + frames.requestDepth ≤ frames.limit →
    Yields (buildSubstitution frames d s.parts) s
  | ⟨.atomic ns pid, is⟩, h, d, room => by
    simp only [Substitution.representable, Bool.and_eq_true] at h
    simp only [Substitution.depth] at room
    simp only [Substitution.parts]
    exact buildSubstitution_multiary is (buildRef_atomic ns pid h.1.1.1 (by omega))
      (Input.buildsItems is h.2 (d + 1) (by omega)) (by omega)
  | ⟨.var v, is⟩, h, d, room => by
    simp only [Substitution.representable, Ref.takesInputs, Bool.false_or, List.isEmpty_iff,
      Bool.and_eq_true] at h
    obtain ⟨⟨⟨-, rfl⟩, -⟩, -⟩ := h
    simp only [Substitution.depth] at room
    exact buildSubstitution_single (buildRef_var v (by omega)) (by omega)
  | ⟨.resolved v, is⟩, h, d, room => by
    simp only [Substitution.representable, Ref.takesInputs, Bool.false_or, List.isEmpty_iff,
      Bool.and_eq_true] at h
    obtain ⟨⟨⟨-, rfl⟩, -⟩, -⟩ := h
    simp only [Substitution.depth] at room
    exact buildSubstitution_single (buildRef_resolved v (by omega)) (by omega)
  | ⟨.nested n, is⟩, h, d, room => by
    simp only [Substitution.representable, Ref.representable, Bool.and_eq_true] at h
    simp only [Substitution.depth, Ref.depth] at room
    simp only [Substitution.parts, Name.tree_eq]
    exact buildSubstitution_nestedInputs is (buildRef_nested (Name.builds n h.1.1.1 (d + 2) (by omega))
      (by omega)) (Input.buildsItems is h.2 (d + 1) (by omega)) (by omega)

theorem Input.buildsItems : ∀ (is : List Input), Input.representableList is = true → ∀ d : Nat,
    d + 5 * Input.depthList is + 7 + frames.requestDepth ≤ frames.limit →
    Yields (buildInputItems frames d (Input.trees is)) is
  | [], _, d, _ => by
    rw [Input.trees, buildInputItems_nil]
    exact Yields.pure []
  | ⟨id, ⟨sub, out⟩⟩ :: is, h, d, room => by
    simp only [Input.representableList, OutputRef.representable, Bool.and_eq_true] at h
    simp only [Input.depthList] at room
    have output := buildOutputRef_yields out (Substitution.builds sub h.1.2.1 (d + 3) (by omega)) (by omega)
    have rest := Input.buildsItems is h.2 d (by omega)
    simp only [Input.trees, Input.tree, OutputRef.tree]
    exact buildInputItems_cons (buildInput_yields id output (by omega)) rest (by omega)

end

theorem Name.builds_tree (n : Name) (h : n.representable = true)
    (room : frames.entry + 5 * n.depth + 8 + frames.requestDepth ≤ frames.limit) :
    Yields (buildRoot frames n.tree) n := by
  rw [Name.tree_eq]
  exact Name.builds n h (frames.entry + 1) (by omega)

end Knot

end ArtifactNames
