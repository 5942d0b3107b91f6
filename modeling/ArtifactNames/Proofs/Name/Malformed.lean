import ArtifactNames.Proofs.Name.Shape

/-! Where the walk reports a malformed tree: outside `TreeShape`, a plain tree with room on the stack
and a granting allocator is malformed, which fixes the language's edge (`parseWith_shape_checks`). -/

namespace ArtifactNames

open Syntax Text Storage Walk

/-! ## Plain trees -/

namespace Syntax

mutual

def Node.Plain : Node → Prop
  | .tree tag children => tag ≠ "named_namespace" ∧ tag ≠ "graph_index" ∧ Node.PlainOf children
  | .token _ cs => firstSurrogateRun cs = none
  | .text cs => firstSurrogateRun cs = none
  | .bytes bs => ∃ cs, decodeStrict bs = .ok cs
  | .absent => True
  | .value _ => True

def Node.PlainOf : List Node → Prop
  | [] => True
  | n :: ns => n.Plain ∧ Node.PlainOf ns

end

@[simp] theorem Node.plain_tree (tag : String) (children : List Node) :
    (Node.tree tag children).Plain ↔
      tag ≠ "named_namespace" ∧ tag ≠ "graph_index" ∧ Node.PlainOf children := by
  simp [Node.Plain]

@[simp] theorem Node.plain_absent : Node.absent.Plain := by
  simp [Node.Plain]

@[simp] theorem Node.plainOf_nil : Node.PlainOf [] := by
  simp [Node.PlainOf]

@[simp] theorem Node.plainOf_cons (n : Node) (ns : List Node) :
    Node.PlainOf (n :: ns) ↔ n.Plain ∧ Node.PlainOf ns := by
  simp [Node.PlainOf]

theorem Node.Plain.children {tag : String} {cs : List Node} (h : (Node.tree tag cs).Plain) :
    Node.PlainOf cs :=
  ((Node.plain_tree tag cs).mp h).2.2

theorem Node.plainOf_single {a : Node} : Node.PlainOf [a] ↔ a.Plain := by
  simp

theorem Node.plainOf_pair {a b : Node} : Node.PlainOf [a, b] ↔ a.Plain ∧ b.Plain := by
  simp

end Syntax

def ParseError.OfShape (e : ParseError) : Prop :=
  (∃ m, e = .malformed m) ∨ e = .outOfMemory .stack

theorem ofShape_mismatch (expected : String) (node : Node) : (mismatch expected node).OfShape :=
  .inl ⟨_, rfl⟩

theorem ofShape_arity (tag : String) (count expected : Nat) :
    (arity tag count expected).OfShape :=
  .inl ⟨_, rfl⟩

theorem ofShape_stack : (ParseError.outOfMemory .stack).OfShape :=
  .inr rfl

theorem optionalPayloadOf_ok_mem {kind : String} {n p : Node} {o : Option Node}
    (h : optionalPayloadOf kind n = .ok o) (mem : p ∈ o) : p = n := by
  rcases optionalPayloadOf_eq_ok h with ⟨-, rfl⟩ | ⟨-, rfl⟩
  · cases mem
  · cases mem
    rfl

theorem payloadOf_ofShape {kind : String} {node : Node} {e : ParseError}
    (h : payloadOf kind node = .error e) : e.OfShape :=
  payloadOf_error h ▸ ofShape_mismatch _ _

theorem optionalPayloadOf_ofShape {kind : String} {node : Node} {e : ParseError}
    (h : optionalPayloadOf kind node = .error e) : e.OfShape :=
  optionalPayloadOf_error h ▸ ofShape_mismatch _ _

theorem payloadChars_ofShape {node : Node} (plain : node.Plain) {e : ParseError}
    (h : payloadChars node = .error e) : e.OfShape := by
  cases node with
  | token kind cs =>
    simp only [payloadChars, show firstSurrogateRun cs = none from plain] at h
    cases h
  | text cs =>
    simp only [payloadChars, show firstSurrogateRun cs = none from plain] at h
    cases h
  | bytes bs =>
    obtain ⟨cs, decoded⟩ := plain
    simp only [payloadChars, decoded] at h
    cases h
  | _ =>
    simp only [payloadChars] at h
    cases h
    exact ofShape_mismatch _ _

/-- From every state whose allocator grants everything, the walk fails only for the shape of the
tree or the depth of the stack, and leaves an allocator that still grants everything. -/
def Walk.Settles {α : Type} (w : Walk α) : Prop :=
  ∀ s, s.Granting → (w.run.run s).2.Granting ∧ ∀ e, (w.run.run s).1 = .error e → e.OfShape

namespace Walk.Settles

variable {α β : Type} {frames : Frames} {d : Nat}

theorem pure (a : α) : Settles (Pure.pure a : Walk α) := by
  intro s granting
  rw [run_pure]
  exact ⟨granting, fun e same => by cases same⟩

theorem throw {e : ParseError} (h : e.OfShape) : Settles (MonadExcept.throw e : Walk α) := by
  intro s granting
  rw [run_throw]
  exact ⟨granting, fun e' same => by cases same; exact h⟩

theorem throw_bind {e : ParseError} (h : e.OfShape) (f : α → Walk β) :
    Settles (MonadExcept.throw e >>= f) := by
  intro s granting
  rw [run_bind, run_throw]
  exact ⟨granting, fun e' same => by cases same; exact h⟩

theorem bind {x : Walk α} {f : α → Walk β} (hx : Settles x) (hf : ∀ a, Settles (f a)) :
    Settles (x >>= f) := by
  intro s granting
  rw [run_bind]
  obtain ⟨granting₁, failure⟩ := hx s granting
  rcases ran : x.run.run s with ⟨_ | a, s₁⟩
  · rw [ran] at granting₁ failure
    exact ⟨granting₁, fun e same => by cases same; exact failure _ rfl⟩
  · rw [ran] at granting₁
    exact hf a s₁ granting₁

theorem map {x : Walk α} (f : α → β) (h : Settles x) : Settles (f <$> x) := by
  rw [map_eq_pure_bind]
  exact h.bind fun a => pure (f a)

theorem orFail {x : Except ParseError α} (h : ∀ e, x = .error e → e.OfShape) :
    Settles (Walk.orFail x) := by
  cases x with
  | ok a => exact pure a
  | error e => exact throw (h e rfl)

theorem reach : Settles (Walk.reach frames d) := by
  intro s granting
  simp only [run_reach]
  split
  · exact ⟨granting, fun e same => by cases same⟩
  · exact ⟨granting, fun e same => by cases same; exact ofShape_stack⟩

theorem callRun {c : FactoryCall} {enters asks : Bool} {done after : Except ParseError Unit}
    (settled : ∀ e, done = .error e → e.OfShape) (fits : ∀ e, after = .error e → e.OfShape) :
    ∀ s : WalkState, s.Granting → (callRun c enters asks done after s).2.Granting ∧
      ∀ e, (callRun c enters asks done after s).1 = .error e → e.OfShape := by
  intro s granting
  have refuses : s.allocator.refuses = false := by
    unfold WalkState.Granting at granting
    simp [Allocator.refuses, granting]
  unfold ArtifactNames.Walk.callRun
  split
  · split
    · simp only [refuses, Bool.false_eq_true, ↓reduceIte]
      exact ⟨granting, fits⟩
    · exact ⟨granting, settled⟩
  · exact ⟨granting, fun e same => by cases same; exact ofShape_stack⟩

theorem collection (kind : CollectionKind) (count : Nat) :
    Settles (Walk.collection frames d kind count) := by
  intro s granting
  rw [run_collection]
  refine callRun (fun e same => ?_) (fun e same => by cases same) s granting
  split at same
  · cases same
  · cases same
    exact ofShape_stack

theorem node (kind : NodeKind) : Settles (Walk.node frames d kind) := by
  intro s granting
  rw [run_node]
  refine callRun (fun e same => by cases same; exact ofShape_stack) (fun e same => ?_) s granting
  split at same
  · cases same
  · cases same
    exact ofShape_stack

theorem copy (kind : TextKind) (text : String) : Settles (Walk.copy frames d kind text) := by
  intro s granting
  rw [run_copy]
  refine callRun (fun e same => ?_) (fun e same => by cases same) s granting
  split at same
  · cases same
  · cases same
    exact ofShape_stack

theorem identifier {n : Node} (plain : n.Plain) : Settles (ArtifactNames.identifier frames d n) := by
  unfold ArtifactNames.identifier
  exact reach.bind fun _ => reach.bind fun _ => (orFail fun _ => payloadChars_ofShape plain).bind
    fun _ => (copy _ _).bind fun _ => reach.bind fun _ => pure _

theorem payload_bind {kind : String} {n : Node} {f : Node → Walk β} (plain : n.Plain)
    (hf : ∀ p, p.Plain → Settles (f p)) : Settles (Walk.orFail (payloadOf kind n) >>= f) := by
  cases read : payloadOf kind n with
  | ok p =>
    obtain rfl := payloadOf_ok_eq read
    rw [orFail_ok, pure_bind]
    exact hf p plain
  | error e => exact throw_bind (payloadOf_ofShape read) f

theorem optional_bind {kind : String} {n : Node} {f : Option Node → Walk β} (plain : n.Plain)
    (hf : ∀ o, (∀ p ∈ o, p.Plain) → Settles (f o)) :
    Settles (Walk.orFail (optionalPayloadOf kind n) >>= f) := by
  cases read : optionalPayloadOf kind n with
  | ok o =>
    rw [orFail_ok, pure_bind]
    exact hf o fun p mem => optionalPayloadOf_ok_mem read mem ▸ plain
  | error e => exact throw_bind (optionalPayloadOf_ofShape read) f

theorem buildNoParameters : Settles (ArtifactNames.buildNoParameters frames d) := by
  unfold ArtifactNames.buildNoParameters
  exact reach.bind fun _ => reach.bind fun _ => (collection _ _).bind fun _ => reach.bind fun _ =>
    pure _

theorem buildNoInputs : Settles (ArtifactNames.buildNoInputs frames d) := by
  unfold ArtifactNames.buildNoInputs
  exact reach.bind fun _ => reach.bind fun _ => (collection _ _).bind fun _ => reach.bind fun _ =>
    pure _

theorem buildBinding {tag : String} {children : List Node} (plain : Node.PlainOf children) :
    Settles (ArtifactNames.buildBinding frames d tag children) := by
  unfold ArtifactNames.buildBinding
  refine reach.bind fun _ => reach.bind fun _ => ?_
  split
  · exact pure _
  · split
    · refine reach.bind fun _ => ?_
      split
      · exact payload_bind (Node.plainOf_single.mp plain) fun _ ident => map _ (identifier ident)
      · exact throw (ofShape_arity _ _ _)
    · exact throw (ofShape_mismatch _ _)

theorem buildParameterItems : ∀ {items : List Node}, Node.PlainOf items →
    Settles (ArtifactNames.buildParameterItems frames d items)
  | [], _ => pure []
  | item :: rest, plain => by
    obtain ⟨itemPlain, restPlain⟩ := (Node.plainOf_cons _ _).mp plain
    have tail := buildParameterItems restPlain
    unfold ArtifactNames.buildParameterItems
    refine reach.bind fun _ => ?_
    split
    · refine reach.bind fun _ => ?_
      split
      · obtain ⟨keyPlain, valuePlain⟩ := Node.plainOf_pair.mp itemPlain.children
        with_reducible repeat' first
          | exact pure _
          | exact reach
          | exact copy _ _
          | exact tail
          | exact throw (ofShape_mismatch _ _)
          | exact orFail fun _ => payloadChars_ofShape ‹_›
          | refine payload_bind ‹_› fun _ _ => ?_
          | refine bind ?_ fun _ => ?_
          | split
          | dsimp only
      · exact throw (ofShape_arity _ _ _)
    · exact throw (ofShape_mismatch _ _)

theorem buildParameters {children : List Node} (plain : Node.PlainOf children) :
    Settles (ArtifactNames.buildParameters frames d children) := by
  unfold ArtifactNames.buildParameters
  refine reach.bind fun _ => reach.bind fun _ => ?_
  split
  · split
    · exact (collection _ _).bind fun _ => reach.bind fun _ => pure _
    · have items := (Node.plainOf_single.mp plain).children
      exact (collection _ _).bind fun _ => (buildParameterItems items).bind fun _ =>
        reach.bind fun _ => pure _
    · exact throw (ofShape_mismatch _ _)
  · exact throw (ofShape_arity _ _ _)

theorem buildParameterizedId {children : List Node} (plain : Node.PlainOf children) :
    Settles (ArtifactNames.buildParameterizedId frames d children) := by
  unfold ArtifactNames.buildParameterizedId
  refine reach.bind fun _ => reach.bind fun _ => ?_
  split
  · obtain ⟨identPlain, paramsPlain⟩ := Node.plainOf_pair.mp plain
    split
    · exact payload_bind identPlain fun _ ident => (identifier ident).bind fun _ =>
        buildNoParameters.bind fun _ => pure _
    · exact payload_bind identPlain fun _ ident => (identifier ident).bind fun _ =>
        (buildParameters paramsPlain.children).bind fun _ => pure _
    · exact throw (ofShape_mismatch _ _)
  · exact throw (ofShape_arity _ _ _)

theorem buildNamespace {tag : String} {children : List Node}
    (plain : (Node.tree tag children).Plain) :
    Settles (ArtifactNames.buildNamespace frames d tag children) := by
  obtain ⟨notComputed, -, childrenPlain⟩ := (Node.plain_tree tag children).mp plain
  unfold ArtifactNames.buildNamespace
  refine reach.bind fun _ => reach.bind fun _ => ?_
  split
  · refine reach.bind fun _ => ?_
    split
    · split
      · exact map _ (buildParameterizedId (Node.plainOf_single.mp childrenPlain).children)
      · exact throw (ofShape_mismatch _ _)
    · exact throw (ofShape_arity _ _ _)
  · split
    · rename_i computed
      exact absurd (beq_iff_eq.mp computed) notComputed
    · exact throw (ofShape_mismatch _ _)

end Walk.Settles

theorem builders_settle (frames : Frames) :
    (∀ d cs, Node.PlainOf cs → Settles (buildName frames d cs)) ∧
    (∀ d cs, Node.PlainOf cs → Settles (buildSubstitution frames d cs)) ∧
    (∀ d cs, Node.PlainOf cs → Settles (buildInputs frames d cs)) ∧
    (∀ d cs, Node.PlainOf cs → Settles (buildInputItems frames d cs)) ∧
    (∀ d cs, Node.PlainOf cs → Settles (buildInput frames d cs)) ∧
    (∀ d cs, Node.PlainOf cs → Settles (buildOutputRef frames d cs)) ∧
    (∀ d tag cs, Node.PlainOf cs → Settles (buildRef frames d tag cs)) ∧
    (∀ d cs, Node.PlainOf cs → Settles (buildDeclarations frames d cs)) ∧
    (∀ d cs, Node.PlainOf cs → Settles (buildDeclarationItems frames d cs)) ∧
    (∀ d cs, Node.PlainOf cs → Settles (buildDeclaration frames d cs)) := by
  apply buildName.mutual_induct
  -- a name: its declarations, then its substitution
  · intro d cs ih plain
    unfold buildName
    refine Settles.reach.bind fun _ => Settles.reach.bind fun _ => ?_
    split
    · obtain ⟨declsPlain, subPlain⟩ := Node.plainOf_pair.mp plain
      split
      · obtain ⟨decls, sub⟩ := ih
        exact (decls declsPlain.children).bind fun _ => (sub subPlain.children).bind fun _ =>
          Settles.pure _
      · exact Settles.throw (ofShape_mismatch _ _)
      · exact Settles.throw (ofShape_mismatch _ _)
    · exact Settles.throw (ofShape_arity _ _ _)
  -- a substitution: a reference, then its inputs when it has them
  · intro d parts ih plain
    unfold buildSubstitution
    refine Settles.reach.bind fun _ => Settles.reach.bind fun _ => ?_
    split
    · split
      · exact (ih (Node.plainOf_single.mp plain).children).bind fun _ =>
          Settles.buildNoInputs.bind fun _ => Settles.pure _
      · exact Settles.throw (ofShape_mismatch _ _)
    · obtain ⟨refPlain, inputsPlain⟩ := Node.plainOf_pair.mp plain
      split
      · exact (ih refPlain.children).bind fun _ => Settles.buildNoInputs.bind fun _ => Settles.pure _
      · obtain ⟨ref, inputs⟩ := ih
        exact (ref refPlain.children).bind fun _ => (inputs inputsPlain.children).bind fun _ =>
          Settles.pure _
      · exact Settles.throw (ofShape_mismatch _ _)
      · exact Settles.throw (ofShape_mismatch _ _)
    · exact Settles.throw (ofShape_mismatch _ _)
  -- the inputs of a `multiary` tree; an explicit index is no part of a plain tree
  · intro d cs ih plain
    unfold buildInputs
    refine Settles.reach.bind fun _ => Settles.reach.bind fun _ => ?_
    split
    · obtain ⟨indexPlain, specsPlain⟩ := Node.plainOf_pair.mp plain
      split
      · exact Settles.reach.bind fun _ => (Settles.collection _ _).bind fun _ =>
          Settles.reach.bind fun _ => Settles.pure _
      · exact Settles.reach.bind fun _ => (Settles.collection _ _).bind fun _ =>
          (ih specsPlain.children).bind fun _ => Settles.reach.bind fun _ => Settles.pure _
      · simp at indexPlain
      · simp at indexPlain
      all_goals exact Settles.throw (ofShape_mismatch _ _)
    · exact Settles.throw (ofShape_arity _ _ _)
  -- the items of a `spec_list` tree
  · intro d _
    unfold buildInputItems
    exact Settles.pure _
  · intro d item rest ih plain
    obtain ⟨itemPlain, restPlain⟩ := (Node.plainOf_cons _ _).mp plain
    unfold buildInputItems
    refine Settles.reach.bind fun _ => ?_
    split
    · obtain ⟨spec, tail⟩ := ih
      exact (spec itemPlain.children).bind fun _ => Settles.reach.bind fun _ =>
        (tail restPlain).bind fun _ => Settles.pure _
    · exact Settles.throw (ofShape_mismatch _ _)
  -- a spec: its optional input id, then its output reference
  · intro d cs ih plain
    unfold buildInput
    refine Settles.reach.bind fun _ => Settles.reach.bind fun _ => ?_
    split
    · obtain ⟨inputPlain, outputPlain⟩ := Node.plainOf_pair.mp plain
      refine Settles.optional_bind inputPlain fun _ idPlain => ?_
      split
      · dsimp only
        split
        · exact (Settles.map _ (Settles.identifier (idPlain _ rfl))).bind fun _ =>
            (ih outputPlain.children).bind fun _ => Settles.pure _
        · exact (Settles.pure _).bind fun _ => (ih outputPlain.children).bind fun _ =>
            Settles.pure _
      · exact Settles.throw (ofShape_mismatch _ _)
    · exact Settles.throw (ofShape_arity _ _ _)
  -- an output reference: its optional output id, then its substitution
  · intro d cs ih plain
    unfold buildOutputRef
    refine Settles.reach.bind fun _ => Settles.reach.bind fun _ => ?_
    split
    · obtain ⟨subPlain, outputPlain⟩ := Node.plainOf_pair.mp plain
      split
      · refine Settles.optional_bind outputPlain fun _ idPlain => ?_
        refine (ih subPlain.children).bind fun _ => (Settles.node _).bind fun _ => ?_
        dsimp only
        split
        · exact (Settles.map _ (Settles.identifier (idPlain _ rfl))).bind fun _ => Settles.pure _
        · exact (Settles.pure _).bind fun _ => Settles.pure _
      · exact Settles.throw (ofShape_mismatch _ _)
    · exact Settles.throw (ofShape_arity _ _ _)
  -- a reference, by its tag
  · intro d tag cs ih plain
    unfold buildRef
    refine Settles.reach.bind fun _ => Settles.reach.bind fun _ => ?_
    split
    · refine Settles.reach.bind fun _ => ?_
      split
      · obtain ⟨nsPlain, pidPlain⟩ := Node.plainOf_pair.mp plain
        split
        · exact (Settles.buildParameterizedId pidPlain.children).bind fun _ => Settles.pure _
        · exact (Settles.buildNamespace nsPlain).bind fun _ =>
            (Settles.buildParameterizedId pidPlain.children).bind fun _ => Settles.pure _
        all_goals exact Settles.throw (ofShape_mismatch _ _)
      · exact Settles.throw (ofShape_arity _ _ _)
    · split
      · split
        · exact Settles.payload_bind (Node.plainOf_single.mp plain) fun _ ident =>
            (Settles.identifier ident).bind fun _ => Settles.pure _
        · exact Settles.throw (ofShape_arity _ _ _)
      · split
        · refine Settles.reach.bind fun _ => ?_
          split
          · split
            · exact (ih (Node.plainOf_single.mp plain).children).bind fun _ =>
                (Settles.node _).bind fun _ => Settles.pure _
            · exact Settles.throw (ofShape_mismatch _ _)
          · exact Settles.throw (ofShape_arity _ _ _)
        · exact Settles.throw (ofShape_mismatch _ _)
  -- the declarations of a name: a reservation, then the items
  · intro d items ih plain
    unfold buildDeclarations
    exact Settles.reach.bind fun _ => Settles.reach.bind fun _ => (Settles.collection _ _).bind
      fun _ => (ih plain).bind fun _ => Settles.reach.bind fun _ => Settles.pure _
  · intro d _
    unfold buildDeclarationItems
    exact Settles.pure _
  · intro d item rest ih plain
    obtain ⟨itemPlain, restPlain⟩ := (Node.plainOf_cons _ _).mp plain
    unfold buildDeclarationItems
    refine Settles.reach.bind fun _ => ?_
    split
    · obtain ⟨decl, tail⟩ := ih
      exact (decl itemPlain.children).bind fun _ => (Settles.node _).bind fun _ =>
        Settles.reach.bind fun _ => (tail restPlain).bind fun _ => Settles.pure _
    · exact Settles.throw (ofShape_mismatch _ _)
  -- a declaration: its binding, then its substitution
  · intro d cs ih plain
    unfold buildDeclaration
    refine Settles.reach.bind fun _ => Settles.reach.bind fun _ => ?_
    split
    · obtain ⟨bindingPlain, subPlain⟩ := Node.plainOf_pair.mp plain
      split
      · exact (Settles.buildBinding bindingPlain.children).bind fun _ =>
          (ih subPlain.children).bind fun _ => Settles.pure _
      · exact Settles.throw (ofShape_mismatch _ _)
      · exact Settles.throw (ofShape_mismatch _ _)
    · exact Settles.throw (ofShape_arity _ _ _)

theorem Walk.Settles.buildRoot (frames : Frames) {root : Node} (plain : root.Plain) :
    Settles (ArtifactNames.buildRoot frames root) := by
  unfold ArtifactNames.buildRoot
  split
  · exact (builders_settle frames).1 _ _ plain.children
  · exact Settles.throw (ofShape_mismatch _ _)

/-! ## The boundary of the language -/

section Reading

variable {compiler : Compiler} {frames : Frames} {allocator : Allocator} {source : Source}
  {buffer : List UInt8} {root : Node}

theorem parseWith_ne_malformed_of_shape (toBuf : source.toBuffer = .ok buffer)
    (compiled : compiler buffer = some (.tree root)) (shape : TreeShape root) (m : Mismatch) :
    (parseWith compiler frames allocator source).outcome ≠ .error (.malformed m) := by
  rw [parseWith_of_tree toBuf compiled]
  exact shape.fits frames _ m

theorem parseWith_shape_of_ok {name : Name} (toBuf : source.toBuffer = .ok buffer)
    (compiled : compiler buffer = some (.tree root))
    (ok : (parseWith compiler frames allocator source).outcome = .ok name) : TreeShape root := by
  rw [parseWith_of_tree toBuf compiled] at ok
  exact buildRoot_demands frames root _ name _ (Prod.ext ok rfl)

theorem parseWith_malformed_of_not_shape (grants : allocator.refuseFrom = none)
    (toBuf : source.toBuffer = .ok buffer) (compiled : compiler buffer = some (.tree root))
    (plain : root.Plain)
    (room : frames.entry + 5 * root.nesting + 13 + frames.requestDepth ≤ frames.limit)
    (outside : ¬TreeShape root) :
    ∃ m, (parseWith compiler frames allocator source).outcome = .error (.malformed m) := by
  rw [parseWith_of_tree toBuf compiled]
  have settled := (Settles.buildRoot frames plain ⟨allocator, #[]⟩ grants).2
  have safe := Safe.buildRoot root room ⟨allocator, #[]⟩
  rcases ran : (buildRoot frames root).run.run ⟨allocator, #[]⟩ with ⟨_ | name, s⟩
  · rw [ran] at settled safe
    rcases settled _ rfl with ⟨m, rfl⟩ | rfl
    · exact ⟨m, rfl⟩
    · exact absurd rfl safe
  · exact absurd (buildRoot_demands frames root _ _ _ ran) outside

end Reading

/-- The walk faults exactly at the edge of the language the views enforce. A tree of the language
is never reported malformed, whatever the stack and the allocator; a name comes only from a tree
of the language; and a tree outside it is reported malformed when nothing else can stop the
reading first: its texts are UTF-8, it holds no computed namespace and no explicit index, every
request is granted and the stack has room for its nesting. -/
theorem parseWith_shape_checks :
    (∀ (compiler : Compiler) (frames : Frames) (allocator : Allocator) (source : Source) buffer
      root, source.toBuffer = .ok buffer → compiler buffer = some (.tree root) → TreeShape root →
      ∀ m, (parseWith compiler frames allocator source).outcome ≠ .error (.malformed m)) ∧
    (∀ (compiler : Compiler) (frames : Frames) (allocator : Allocator) (source : Source) buffer
      root name, source.toBuffer = .ok buffer → compiler buffer = some (.tree root) →
      (parseWith compiler frames allocator source).outcome = .ok name → TreeShape root) ∧
    (∀ (compiler : Compiler) (frames : Frames) (allocator : Allocator) (source : Source) buffer
      (root : Node), allocator.refuseFrom = none → source.toBuffer = .ok buffer →
      compiler buffer = some (.tree root) → root.Plain →
      frames.entry + 5 * root.nesting + 13 + frames.requestDepth ≤ frames.limit →
      ¬TreeShape root →
      ∃ m, (parseWith compiler frames allocator source).outcome = .error (.malformed m)) :=
  ⟨fun _ _ _ _ _ _ toBuf compiled shape => parseWith_ne_malformed_of_shape toBuf compiled shape,
    fun _ _ _ _ _ _ _ toBuf compiled ok => parseWith_shape_of_ok toBuf compiled ok,
    fun _ _ _ _ _ _ grants toBuf compiled plain room outside =>
      parseWith_malformed_of_not_shape grants toBuf compiled plain room outside⟩

theorem parseWith_shape_checks_hand_built :
    (∀ m, (parseWith (handMade (.tree "name" [.tree "declarations" [],
        .tree "substitution" [.tree "variable_ref" [.token "IDENT" [0x78]]]])) Frames.granting {}
        (.text [0x66, 0x28, 0x29])).outcome ≠ .error (.malformed m)) ∧
    ¬TreeShape (.tree "name" [.tree "declarations" []]) ∧
    ∃ m, (parseWith (handMade (.tree "name" [.tree "declarations" []])) Frames.granting {}
      (.text [0x66, 0x28, 0x29])).outcome = .error (.malformed m) := by
  have outside : ¬TreeShape (.tree "name" [.tree "declarations" []]) := by
    rintro ⟨⟨⟩⟩
  have inside : TreeShape (.tree "name" [.tree "declarations" [],
      .tree "substitution" [.tree "variable_ref" [.token "IDENT" [0x78]]]]) :=
    .name (.mk .nil (.single (.var (.token _))))
  exact ⟨parseWith_shape_checks.1 _ _ _ _ _ _ rfl rfl inside, outside,
    parseWith_shape_checks.2.2 _ _ _ _ _ _ rfl rfl rfl (by simp) (by decide) outside⟩

end ArtifactNames
