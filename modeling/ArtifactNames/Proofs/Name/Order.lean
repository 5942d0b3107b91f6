import ArtifactNames.Proofs.Syntax.Marks
import ArtifactNames.Proofs.Name.Refusal
import ArtifactNames.Proofs.Name.ParseSound

/-! The walk goes in source order (`Walk.Meets`): it copies the texts of the tokens before the first
`@`, `{` or string that is not UTF-8, which decides its error (`parseWith_meets_tokens`). -/

namespace ArtifactNames

open Syntax Text Storage Walk

namespace Syntax

mutual

def Node.height : Node → Nat
  | .tree _ children => Node.heightOf children + 1
  | _ => 0

def Node.heightOf : List Node → Nat
  | [] => 0
  | n :: ns => max n.height (Node.heightOf ns)

end

@[simp] theorem Node.height_tree (tag : String) (children : List Node) :
    (Node.tree tag children).height = Node.heightOf children + 1 := by
  simp [Node.height]

@[simp] theorem Node.height_token (kind : String) (cs : List Nat) : (Node.token kind cs).height = 0 := by
  simp [Node.height]

@[simp] theorem Node.height_absent : Node.absent.height = 0 := by
  simp [Node.height]

@[simp] theorem Node.heightOf_nil : Node.heightOf [] = 0 := by
  simp [Node.heightOf]

@[simp] theorem Node.heightOf_cons (n : Node) (ns : List Node) :
    Node.heightOf (n :: ns) = max n.height (Node.heightOf ns) := by
  simp [Node.heightOf]

end Syntax

def FactoryCall.copied : FactoryCall → Option String
  | .text _ copied => some copied
  | _ => none

/-- From every state whose allocator grants everything, the walk copies the texts that `ms`
copies before its first construct that ends the walk, in order and with other calls between them,
and leaves such a state; it then ends in that construct's error, or gives a value when there is
none. -/
def Walk.Meets {α : Type} (w : Walk α) (ms : List Mark) : Prop :=
  ∀ s : WalkState, s.Granting → ∃ N s', s'.Granting ∧ s'.trace.toList = s.trace.toList ++ N ∧
    N.filterMap FactoryCall.copied = (Mark.run ms).1.map toText ∧
    match (Mark.run ms).2 with
    | none => ∃ a, w.run.run s = (.ok a, s')
    | some e => w.run.run s = (.error e, s')

/-- A reading copies the texts that `ms` copies before its first construct that ends the walk, in
order and with other calls between them, and ends in that construct's error, or gives a name when
there is none. -/
def Report.Meets (r : Report) (ms : List Mark) : Prop :=
  r.trace.filterMap FactoryCall.copied = (Mark.run ms).1.map toText ∧
    match (Mark.run ms).2 with
    | none => ∃ n, r.outcome = .ok n
    | some e => r.outcome = .error e

theorem Report.Meets.congr {r : Report} {ms ms' : List Mark} (same : Mark.run ms = Mark.run ms')
    (h : r.Meets ms) : r.Meets ms' := by
  unfold Report.Meets
  rw [← same]
  exact h

namespace Walk.Meets

variable {α β : Type} {frames : Frames} {d : Nat}

theorem congr {w : Walk α} {ms ms' : List Mark} (same : Mark.run ms = Mark.run ms')
    (h : Meets w ms) : Meets w ms' := by
  unfold Meets
  rw [← same]
  exact h

theorem pure (a : α) : Meets (Pure.pure a : Walk α) [] :=
  fun s granting => ⟨[], s, granting, by simp, rfl, a, rfl⟩

theorem throw (e : ParseError) : Meets (MonadExcept.throw e : Walk α) [.fail e] :=
  fun s granting => ⟨[], s, granting, by simp, rfl, rfl⟩

theorem bind {x : Walk α} {f : α → Walk β} {ms ms' : List Mark} (hx : Meets x ms)
    (hf : ∀ a, Meets (f a) ms') : Meets (x >>= f) (ms ++ ms') := by
  intro s granting
  obtain ⟨N, s₁, granting₁, trace₁, copies₁, ran₁⟩ := hx s granting
  rw [Mark.run_append, run_bind]
  cases stops : (Mark.run ms).2 with
  | some e =>
    rw [stops] at ran₁
    exact ⟨N, s₁, granting₁, trace₁, copies₁, by rw [ran₁]⟩
  | none =>
    rw [stops] at ran₁
    obtain ⟨a, ran₁⟩ := ran₁
    obtain ⟨N', s₂, granting₂, trace₂, copies₂, ran₂⟩ := hf a s₁ granting₁
    refine ⟨N ++ N', s₂, granting₂, by rw [trace₂, trace₁, List.append_assoc], ?_, ?_⟩
    · rw [List.filterMap_append, copies₁, copies₂, List.map_append]
    · rw [ran₁]
      exact ran₂

theorem seq {x : Walk Unit} {w : Walk α} {ms : List Mark} (hx : Meets x []) (hw : Meets w ms) :
    Meets (x >>= fun _ => w) ms := by
  simpa using hx.bind fun _ => hw

theorem map {x : Walk α} {f : α → β} {ms : List Mark} (hx : Meets x ms) : Meets (f <$> x) ms := by
  rw [map_eq_pure_bind]
  simpa using hx.bind fun a => pure (f a)

theorem reach (room : d ≤ frames.limit) : Meets (Walk.reach frames d) [] := by
  rw [reach_of_le room]
  exact pure ()

theorem callRun_granted {c : FactoryCall} {asks : Bool} {done : Except ParseError Unit}
    {s : WalkState} (granting : s.Granting) (finished : asks = true ∨ done = .ok ()) :
    ∃ s', s'.Granting ∧ s'.trace.toList = s.trace.toList ++ [c] ∧
      callRun c true asks done (.ok ()) s = (.ok (), s') := by
  have refuses : s.allocator.refuses = false := by
    unfold WalkState.Granting at granting
    simp [Allocator.refuses, granting]
  cases asks with
  | false =>
    obtain rfl : done = .ok () := by simpa using finished
    exact ⟨⟨s.allocator, s.trace.push c⟩, granting, by simp, by simp [callRun]⟩
  | true =>
    exact ⟨⟨s.allocator.request.2, s.trace.push c⟩, granting, by simp, by simp [callRun, refuses]⟩

theorem call {w : Walk Unit} {c : FactoryCall} (quiet : c.copied = none)
    (ran : ∀ s, ∃ asks done, (asks = true ∨ done = .ok ()) ∧
      w.run.run s = callRun c true asks done (.ok ()) s) : Meets w [] := by
  intro s granting
  obtain ⟨asks, done, finished, ran⟩ := ran s
  obtain ⟨s', granting', trace, called⟩ := @callRun_granted c asks done s granting finished
  exact ⟨[c], s', granting', trace, by simp [quiet, Mark.run], (), by rw [ran, called]⟩

theorem settles_of_room (room : d + 2 ≤ frames.limit) : settles frames d = true := by
  simp [settles, room]

theorem policyDepth_le : policyDepth frames d ≤ d + 2 := by
  unfold policyDepth
  split <;> omega

theorem collection (kind : CollectionKind) (count : Nat)
    (room : d + 5 + frames.requestDepth ≤ frames.limit) :
    Meets (Walk.collection frames d kind count) [] := by
  have deep : policyDepth frames d ≤ d + 2 := policyDepth_le
  refine call (c := .collection kind count) rfl fun s => ?_
  simp (disch := omega) only [run_collection, settles_of_room, decide_eq_true, Bool.and_true,
    Bool.true_and, Bool.or_true, ↓reduceIte]
  exact ⟨_, _, .inr rfl, rfl⟩

theorem node (kind : NodeKind) (room : d + 5 + frames.requestDepth ≤ frames.limit) :
    Meets (Walk.node frames d kind) [] := by
  have deep : policyDepth frames d ≤ d + 2 := policyDepth_le
  refine call (c := .node kind) rfl fun s => ?_
  simp (disch := omega) only [run_node, settles_of_room, decide_eq_true, Bool.and_true, if_pos]
  exact ⟨_, _, .inl rfl, rfl⟩

theorem copy (kind : TextKind) (cs : List Nat) (room : d + 2 ≤ frames.limit) :
    Meets (Walk.copy frames d kind (toText cs)) [.copy cs] := by
  intro s granting
  obtain ⟨s', granting', trace, called⟩ :=
    @callRun_granted (.text kind (toText cs)) false (.ok ()) s granting (.inr rfl)
  refine ⟨[.text kind (toText cs)], s', granting', trace, rfl, (), ?_⟩
  simp (disch := omega) only [run_copy, settles_of_room, decide_eq_true, ↓reduceIte]
  exact called

theorem throw_bind (e : ParseError) (f : α → Walk β) :
    Meets (MonadExcept.throw e >>= f) [.fail e] :=
  fun s granting => ⟨[], s, granting, by simp, rfl, rfl⟩

theorem payloadChars_bind {k : String} {cs : List Nat} {f : List Nat → Walk β} {ms : List Mark}
    (kind : String)
    (hf : firstSurrogateRun cs = none →
      Meets (f cs) (.copy (if kind == "STRING" then unquote cs else cs) :: ms)) :
    Meets (orFail (payloadChars (.token k cs)) >>= f) (leafMark kind cs :: ms) := by
  unfold payloadChars leafMark
  dsimp only
  cases free : firstSurrogateRun cs with
  | some run =>
    obtain ⟨start, length⟩ := run
    exact congr (by simp [Mark.run]) (throw_bind _ f)
  | none =>
    rw [orFail_ok, pure_bind]
    exact hf free

theorem identifier (k : String) (cs : List Nat) (room : d + 2 ≤ frames.limit) :
    Meets (ArtifactNames.identifier frames d (.token k cs)) [leafMark "IDENT" cs] := by
  unfold ArtifactNames.identifier
  simp (disch := omega) only [reach_of_le, pure_bind]
  refine payloadChars_bind "IDENT" fun _ => ?_
  simpa using (copy .identifier cs room).bind fun _ => pure (toText cs)

end Walk.Meets

/-! ## One step of the walk

Each builder on a tree of the grammar's shape, given what the builders it calls meet, meets its
leaves in order. The hypotheses `room` give the stack what the step itself reaches. -/

section Steps

variable {P : List Nat → Prop} {frames : Frames} {d : Nat}

theorem buildParameterItems_meets {ps : List Node} (trees : ParamTrees P ps)
    (room : d + 3 ≤ frames.limit) : Meets (buildParameterItems frames d ps) (Node.marksOf ps) := by
  induction trees with
  | nil =>
    simp only [buildParameterItems]
    exact .pure []
  | @cons k v ps key leaf rest ih =>
    obtain ⟨kind, t, rfl, -, isValue⟩ := leaf.token
    simp +decide only [buildParameterItems, payloadOf, orFail_ok, pure_bind, isValue, ↓reduceIte]
    simp (disch := omega) only [reach_of_le, pure_bind]
    refine Meets.congr
      (show Mark.run (leafMark "IDENT" k :: leafMark kind t :: Node.marksOf ps) = _ by simp) ?_
    -- the key's text is copied, then the value's, then the other parameters are built
    refine Meets.payloadChars_bind "IDENT" fun _ => ?_
    refine (Meets.copy .parameterName k (by omega)).bind fun _ => ?_
    refine Meets.payloadChars_bind kind fun _ => ?_
    have copied : ∀ x : List Nat, Meets (do
        copy frames d .parameterValue (toText x)
        let params ← buildParameterItems frames d ps
        pure ({ name := toText k, value := toText x } :: params)) (.copy x :: Node.marksOf ps) := by
      intro x
      have built : Meets (do
          let params ← buildParameterItems frames d ps
          pure ({ name := toText k, value := toText x } :: params)) (Node.marksOf ps) := by
        simpa using ih.bind fun params => Meets.pure ((⟨toText k, toText x⟩ : Parameter) :: params)
      exact (Meets.copy .parameterValue x (by omega)).bind fun _ => built
    -- a string's value is copied without its quotes and escapes
    split
    · rename_i text same
      obtain ⟨rfl, rfl⟩ := Node.token.inj same
      split <;> simpa using copied (unquote t)
    · rename_i notString
      have other : kind ≠ "STRING" := fun h => notString t (h ▸ rfl)
      simpa [other] using copied t

theorem buildNoParameters_meets (room : d + 5 + frames.requestDepth ≤ frames.limit) :
    Meets (buildNoParameters frames d) [] := by
  unfold buildNoParameters
  simp (disch := omega) only [reach_of_le, pure_bind]
  exact (Meets.collection _ _ (by omega)).seq (.pure [])

theorem buildParameterizedId_meets {w : List Nat} {pch : List Node} (tree : PidTree P w pch)
    (room : d + 6 + frames.requestDepth ≤ frames.limit) :
    Meets (buildParameterizedId frames d pch) (Node.marksOf pch) := by
  obtain ⟨ident, params⟩ := tree
  unfold buildParameterizedId
  simp (disch := omega) only [reach_of_le, pure_bind, payloadOf, beq_self_eq_true, ↓reduceIte,
    orFail_ok]
  -- the id is copied before the parameters are built
  have named : ∀ {ms : List Mark} {ps : Walk (List Parameter)}, Meets ps ms →
      Meets (do let id ← ArtifactNames.identifier frames (d + 1) (.token "IDENT" w)
                let params ← ps
                Pure.pure (⟨id, params⟩ : ParameterizedId)) (leafMark "IDENT" w :: ms) :=
    fun built => (Meets.identifier "IDENT" w (by omega)).bind fun id => by
      simpa using built.bind fun params => Meets.pure (⟨id, params⟩ : ParameterizedId)
  cases params with
  | absent =>
    simpa [Node.marks] using named (@buildNoParameters_meets frames (d + 1) (by omega))
  | empty =>
    refine Meets.congr (by simp) (@named [] _ ?_)
    unfold buildParameters
    simp (disch := omega) only [reach_of_le, pure_bind]
    exact (Meets.collection _ _ (by omega)).seq (.pure [])
  | @list ps trees =>
    refine Meets.congr (by simp) (@named (Node.marksOf ps) _ ?_)
    unfold buildParameters
    simp (disch := omega) only [reach_of_le, pure_bind]
    simpa using (Meets.collection _ _ (by omega)).seq
      ((buildParameterItems_meets trees (by omega)).bind fun params => .pure params)

theorem buildNoInputs_meets (room : d + 5 + frames.requestDepth ≤ frames.limit) :
    Meets (buildNoInputs frames d) [] := by
  unfold buildNoInputs
  simp (disch := omega) only [reach_of_le, pure_bind]
  exact (Meets.collection _ _ (by omega)).seq (.pure [])

theorem buildRef_var_meets {tag : String} {w : List Nat}
    (var : tag = "variable_ref" ∨ tag = "resolved_ref") (room : d + 3 ≤ frames.limit) :
    Meets (buildRef frames d tag [.token "IDENT" w]) (Node.tree tag [.token "IDENT" w]).marks := by
  unfold buildRef
  rcases var with rfl | rfl <;>
  · simp +decide only [payloadOf, orFail_ok, pure_bind, ↓reduceIte]
    simp (disch := omega) only [reach_of_le, pure_bind]
    exact Meets.congr (by simp)
      ((Meets.identifier "IDENT" w (by omega)).bind fun v => .pure _)

theorem buildRef_atomic_meets {w : List Nat} {pch : List Node} (tree : PidTree P w pch)
    (room : d + 7 + frames.requestDepth ≤ frames.limit) :
    Meets (buildRef frames d "atomic_ref" [.absent, .tree "parameterized_id" pch])
      (Node.tree "atomic_ref" [.absent, .tree "parameterized_id" pch]).marks := by
  unfold buildRef
  simp +decide only [↓reduceIte]
  simp (disch := omega) only [reach_of_le, pure_bind]
  exact Meets.congr (by simp)
    ((buildParameterizedId_meets tree (by omega)).bind fun pid => .pure _)

theorem buildNamespace_builtin_meets {w : List Nat} {nch : List Node} (tree : PidTree P w nch)
    (room : d + 7 + frames.requestDepth ≤ frames.limit) :
    Meets (buildNamespace frames d "builtin_namespace" [.tree "parameterized_id" nch])
      (Node.marksOf nch) := by
  unfold buildNamespace
  simp +decide only [↓reduceIte]
  simp (disch := omega) only [reach_of_le, pure_bind]
  exact (buildParameterizedId_meets tree (by omega)).map

theorem buildRef_builtin_meets {w v : List Nat} {nch pch : List Node} (nsTree : PidTree P w nch)
    (tree : PidTree P v pch) (room : d + 8 + frames.requestDepth ≤ frames.limit) :
    Meets (buildRef frames d "atomic_ref"
      [.tree "builtin_namespace" [.tree "parameterized_id" nch], .tree "parameterized_id" pch])
      (Node.tree "atomic_ref"
        [.tree "builtin_namespace" [.tree "parameterized_id" nch], .tree "parameterized_id" pch]).marks := by
  unfold buildRef
  simp +decide only [↓reduceIte]
  simp (disch := omega) only [reach_of_le, pure_bind]
  exact Meets.congr (by simp) ((buildNamespace_builtin_meets nsTree (by omega)).bind
    fun ns => (buildParameterizedId_meets tree (by omega)).bind fun pid => .pure _)

theorem buildRef_computed_meets {out : Node} {pch : List Node} (room : d + 3 ≤ frames.limit) :
    Meets (buildRef frames d "atomic_ref" [.tree "named_namespace" [out], .tree "parameterized_id" pch])
      (Node.tree "atomic_ref" [.tree "named_namespace" [out], .tree "parameterized_id" pch]).marks := by
  unfold buildRef buildNamespace
  simp +decide only [↓reduceIte]
  simp (disch := omega) only [reach_of_le, pure_bind]
  exact Meets.congr (by simp [Mark.run]) (Meets.throw_bind _ _)

theorem buildRef_nested_meets {nch : List Node}
    (hn : Meets (buildName frames (d + 1) nch) (Node.marksOf nch))
    (room : d + 5 + frames.requestDepth ≤ frames.limit) :
    Meets (buildRef frames d "nested_ref" [.tree "name" nch]) (Node.tree "nested_ref" [.tree "name" nch]).marks := by
  unfold buildRef
  simp +decide only [↓reduceIte]
  simp (disch := omega) only [reach_of_le, pure_bind]
  exact Meets.congr (by simp) (hn.bind fun n => (Meets.node _ (by omega)).seq (.pure _))

theorem buildSubstitution_single_meets {tag : String} {ch : List Node}
    (hr : Meets (buildRef frames (d + 1) tag ch) (Node.tree tag ch).marks)
    (room : d + 6 + frames.requestDepth ≤ frames.limit) :
    Meets (buildSubstitution frames d [.tree tag ch]) (Node.marksOf [.tree tag ch]) := by
  unfold buildSubstitution
  simp (disch := omega) only [reach_of_le, pure_bind]
  exact Meets.congr (by simp) (hr.bind fun r => (buildNoInputs_meets (by omega)).bind fun is => .pure _)

theorem buildSubstitution_absent_meets {tag : String} {ch : List Node}
    (hr : Meets (buildRef frames (d + 1) tag ch) (Node.tree tag ch).marks)
    (room : d + 6 + frames.requestDepth ≤ frames.limit) :
    Meets (buildSubstitution frames d [.tree tag ch, .absent]) (Node.marksOf [.tree tag ch, .absent]) := by
  unfold buildSubstitution
  simp (disch := omega) only [reach_of_le, pure_bind]
  exact Meets.congr (by simp) (hr.bind fun r => (buildNoInputs_meets (by omega)).bind fun is => .pure _)

theorem buildSubstitution_multiary_meets {tag : String} {ch mch : List Node}
    (hr : Meets (buildRef frames (d + 1) tag ch) (Node.tree tag ch).marks)
    (hi : Meets (buildInputs frames (d + 1) mch) (Node.marksOf mch)) (room : d + 3 ≤ frames.limit) :
    Meets (buildSubstitution frames d [.tree tag ch, .tree "multiary" mch])
      (Node.marksOf [.tree tag ch, .tree "multiary" mch]) := by
  unfold buildSubstitution
  simp (disch := omega) only [reach_of_le, pure_bind]
  exact Meets.congr (by simp) (hr.bind fun r => hi.bind fun is => .pure _)

theorem buildInputs_none_meets {index : Node} (tree : IndexTree index)
    (room : d + 5 + frames.requestDepth ≤ frames.limit) :
    Meets (buildInputs frames d [index, .absent]) (Node.marksOf [index, .absent]) := by
  unfold buildInputs
  cases tree with
  | absent =>
    simp (disch := omega) only [reach_of_le, pure_bind]
    exact Meets.congr (by simp) ((Meets.collection _ _ (by omega)).seq (.pure []))
  | index =>
    simp (disch := omega) only [reach_of_le, pure_bind]
    exact Meets.congr (by simp [Mark.run]) (Meets.throw _)

theorem buildInputs_specs_meets {index : Node} {items : List Node} (tree : IndexTree index)
    (h : Meets (buildInputItems frames d items) (Node.marksOf items))
    (room : d + 5 + frames.requestDepth ≤ frames.limit) :
    Meets (buildInputs frames d [index, .tree "spec_list" items])
      (Node.marksOf [index, .tree "spec_list" items]) := by
  unfold buildInputs
  cases tree with
  | absent =>
    simp (disch := omega) only [reach_of_le, pure_bind]
    exact Meets.congr (by simp) ((Meets.collection _ _ (by omega)).seq
      (h.bind fun is => .pure is))
  | index =>
    simp (disch := omega) only [reach_of_le, pure_bind]
    exact Meets.congr (by simp [Mark.run]) (Meets.throw _)

theorem buildInputItems_nil_meets : Meets (buildInputItems frames d []) [] := by
  unfold buildInputItems
  exact .pure []

theorem buildInputItems_cons_meets {ch rest : List Node}
    (hi : Meets (buildInput frames (d + 1) ch) (Node.marksOf ch))
    (hrest : Meets (buildInputItems frames d rest) (Node.marksOf rest)) (room : d + 3 ≤ frames.limit) :
    Meets (buildInputItems frames d (.tree "substitution_spec" ch :: rest))
      (Node.marksOf (.tree "substitution_spec" ch :: rest)) := by
  unfold buildInputItems
  simp (disch := omega) only [reach_of_le, pure_bind]
  exact Meets.congr (by simp) (hi.bind fun i => hrest.bind fun is => .pure _)

theorem buildInput_named_meets {t : List Nat} {och : List Node}
    (ho : Meets (buildOutputRef frames (d + 1) och) (Node.marksOf och)) (room : d + 3 ≤ frames.limit) :
    Meets (buildInput frames d [.token "IDENT" t, .tree "output_ref" och])
      (Node.marksOf [.token "IDENT" t, .tree "output_ref" och]) := by
  unfold buildInput
  simp +decide only [optionalPayloadOf, payloadOf, Except.map, orFail_ok, pure_bind, ↓reduceIte]
  simp (disch := omega) only [reach_of_le, pure_bind]
  exact Meets.congr (by simp) (((Meets.identifier "IDENT" t (by omega)).map).bind
    fun id => ho.bind fun out => .pure _)

theorem buildInput_positional_meets {och : List Node}
    (ho : Meets (buildOutputRef frames (d + 1) och) (Node.marksOf och)) (room : d + 3 ≤ frames.limit) :
    Meets (buildInput frames d [.absent, .tree "output_ref" och])
      (Node.marksOf [.absent, .tree "output_ref" och]) := by
  unfold buildInput
  simp only [optionalPayloadOf, orFail_ok, pure_bind]
  simp (disch := omega) only [reach_of_le, pure_bind]
  exact Meets.congr (by simp) (ho.bind fun out => .pure _)

theorem buildOutputRef_meets {parts : List Node} {o : Node} (tree : OutputIdTree o)
    (hs : Meets (buildSubstitution frames (d + 1) parts) (Node.marksOf parts))
    (room : d + 5 + frames.requestDepth ≤ frames.limit) :
    Meets (buildOutputRef frames d [.tree "substitution" parts, o])
      (Node.marksOf [.tree "substitution" parts, o]) := by
  unfold buildOutputRef
  cases tree with
  | absent =>
    simp only [optionalPayloadOf, orFail_ok, pure_bind]
    simp (disch := omega) only [reach_of_le, pure_bind]
    exact Meets.congr (by simp)
      (hs.bind fun s => (Meets.node _ (by omega)).seq (.pure _))
  | ident _ =>
    simp +decide only [optionalPayloadOf, payloadOf, Except.map, orFail_ok, pure_bind, ↓reduceIte]
    simp (disch := omega) only [reach_of_le, pure_bind]
    exact Meets.congr (by simp) (hs.bind fun s => (Meets.node _ (by omega)).seq
      (((Meets.identifier "IDENT" _ (by omega)).map).bind fun out => .pure _))

theorem buildDeclaration_meets {b : Node} {parts : List Node} (binding : BindingTree b)
    (hval : Meets (buildSubstitution frames (d + 1) parts) (Node.marksOf parts))
    (room : d + 4 ≤ frames.limit) :
    Meets (buildDeclaration frames d [b, .tree "substitution" parts])
      (Node.marksOf [b, .tree "substitution" parts]) := by
  unfold buildDeclaration
  cases binding with
  | unbound =>
    unfold buildBinding
    simp +decide only [↓reduceIte]
    simp (disch := omega) only [reach_of_le, pure_bind]
    exact Meets.congr (by simp) (hval.bind fun val => .pure _)
  | bound _ =>
    unfold buildBinding
    simp +decide only [payloadOf, orFail_ok, pure_bind, ↓reduceIte]
    simp (disch := omega) only [reach_of_le, pure_bind]
    exact Meets.congr (by simp) (((Meets.identifier "IDENT" _ (by omega)).map).bind
      fun var => hval.bind fun val => .pure _)

theorem buildDeclarationItems_nil_meets : Meets (buildDeclarationItems frames d []) [] := by
  unfold buildDeclarationItems
  exact .pure []

theorem buildDeclarationItems_cons_meets {ch rest : List Node}
    (hd : Meets (buildDeclaration frames (d + 1) ch) (Node.marksOf ch))
    (hrest : Meets (buildDeclarationItems frames d rest) (Node.marksOf rest))
    (room : d + 5 + frames.requestDepth ≤ frames.limit) :
    Meets (buildDeclarationItems frames d (.tree "declaration" ch :: rest))
      (Node.marksOf (.tree "declaration" ch :: rest)) := by
  unfold buildDeclarationItems
  simp (disch := omega) only [reach_of_le, pure_bind]
  exact Meets.congr (by simp) (hd.bind fun decl => (Meets.node _ (by omega)).seq
    (hrest.bind fun ds => .pure _))

theorem buildName_meets {items parts : List Node}
    (hds : Meets (buildDeclarationItems frames (d + 1) items) (Node.marksOf items))
    (ht : Meets (buildSubstitution frames (d + 1) parts) (Node.marksOf parts))
    (room : d + 6 + frames.requestDepth ≤ frames.limit) :
    Meets (buildName frames d [.tree "declarations" items, .tree "substitution" parts])
      (Node.marksOf [.tree "declarations" items, .tree "substitution" parts]) := by
  unfold buildName buildDeclarations
  simp (disch := omega) only [reach_of_le, pure_bind]
  exact Meets.congr (by simp) (((Meets.collection _ _ (by omega)).seq
    (hds.bind fun ds => .pure ds)).bind fun ds => ht.bind fun t => .pure _)

end Steps

/-! ## The whole walk -/

section Knot

variable {P : List Nat → Prop} {frames : Frames}

mutual

theorem NameTree.meets : ∀ {nch : List Node}, NameTree P nch → ∀ d,
    d + Node.heightOf nch + 6 + frames.requestDepth ≤ frames.limit →
      Meets (buildName frames d nch) (Node.marksOf nch)
  | _, .mk decls subst _, d, room => by
    simp only [Node.heightOf_cons, Node.height_tree, Node.heightOf_nil] at room
    exact buildName_meets (decls.meets (d + 1) (by omega)) (subst.meets (d + 1) (by omega)) (by omega)

theorem DeclTrees.meets : ∀ {items : List Node}, DeclTrees P items → ∀ d,
    d + Node.heightOf items + 6 + frames.requestDepth ≤ frames.limit →
      Meets (buildDeclarationItems frames d items) (Node.marksOf items)
  | _, .nil, _, _ => buildDeclarationItems_nil_meets
  | _, .cons binding subst rest, d, room => by
    simp only [Node.heightOf_cons, Node.height_tree, Node.heightOf_nil] at room
    exact buildDeclarationItems_cons_meets
      (buildDeclaration_meets binding (subst.meets (d + 2) (by omega)) (by omega))
      (rest.meets d (by omega)) (by omega)

theorem SubstTree.meets : ∀ {lead : Option (List Nat)} {parts : List Node}, SubstTree P lead parts →
    ∀ d, d + Node.heightOf parts + 6 + frames.requestDepth ≤ frames.limit →
      Meets (buildSubstitution frames d parts) (Node.marksOf parts)
  | _, _, .var _ _, d, room => by
    simp only [Node.heightOf_cons, Node.height_tree, Node.height_token, Node.heightOf_nil] at room
    exact buildSubstitution_single_meets (buildRef_var_meets (.inl rfl) (by omega)) (by omega)
  | _, _, .resolved _, d, room => by
    simp only [Node.heightOf_cons, Node.height_tree, Node.height_token, Node.heightOf_nil] at room
    exact buildSubstitution_single_meets (buildRef_var_meets (.inr rfl) (by omega)) (by omega)
  | _, _, .atomic pidTree _ inputs, d, room => by
    simp only [Node.heightOf_cons, Node.height_tree, Node.height_absent, Node.heightOf_nil] at room
    obtain ⟨mch, rfl, hi⟩ := inputs.meets (d + 1) (by omega)
    exact buildSubstitution_multiary_meets (buildRef_atomic_meets pidTree (by omega)) hi (by omega)
  | _, _, .builtin nsTree _ pidTree inputs, d, room => by
    simp only [Node.heightOf_cons, Node.height_tree, Node.heightOf_nil] at room
    obtain ⟨mch, rfl, hi⟩ := inputs.meets (d + 1) (by omega)
    exact buildSubstitution_multiary_meets (buildRef_builtin_meets nsTree pidTree (by omega)) hi
      (by omega)
  | _, _, .computed _ _ inputs, d, room => by
    simp only [Node.heightOf_cons, Node.height_tree, Node.heightOf_nil] at room
    obtain ⟨mch, rfl, hi⟩ := inputs.meets (d + 1) (by omega)
    exact buildSubstitution_multiary_meets (buildRef_computed_meets (by omega)) hi (by omega)
  | _, _, .nested nameTree, d, room => by
    simp only [Node.heightOf_cons, Node.height_tree, Node.height_absent, Node.heightOf_nil] at room
    exact buildSubstitution_absent_meets
      (buildRef_nested_meets (nameTree.meets (d + 2) (by omega)) (by omega)) (by omega)
  | _, _, .nestedInputs nameTree inputs, d, room => by
    simp only [Node.heightOf_cons, Node.height_tree, Node.heightOf_nil] at room
    obtain ⟨mch, rfl, hi⟩ := inputs.meets (d + 1) (by omega)
    exact buildSubstitution_multiary_meets
      (buildRef_nested_meets (nameTree.meets (d + 2) (by omega)) (by omega)) hi (by omega)

theorem InputsTree.meets : ∀ {m : Node}, InputsTree P m → ∀ d,
    d + m.height + 5 + frames.requestDepth ≤ frames.limit →
      ∃ mch, m = .tree "multiary" mch ∧ Meets (buildInputs frames d mch) (Node.marksOf mch)
  | _, .none index, _, _ => ⟨_, rfl, buildInputs_none_meets index (by omega)⟩
  | _, .specs index specs, d, room => by
    simp only [Node.heightOf_cons, Node.height_tree, Node.heightOf_nil] at room
    exact ⟨_, rfl, buildInputs_specs_meets index (specs.meets d (by omega)) (by omega)⟩

theorem SpecTrees.meets : ∀ {specs : List Node}, SpecTrees P specs → ∀ d,
    d + Node.heightOf specs + 6 + frames.requestDepth ≤ frames.limit →
      Meets (buildInputItems frames d specs) (Node.marksOf specs)
  | _, .nil, _, _ => buildInputItems_nil_meets
  | _, .cons spec rest, d, room => by
    simp only [Node.heightOf_cons] at room
    obtain ⟨ch, rfl, first⟩ := spec.meets (d + 1) (by omega)
    exact buildInputItems_cons_meets first (rest.meets d (by omega)) (by omega)

theorem SpecTree.meets : ∀ {s : Node}, SpecTree P s → ∀ d,
    d + s.height + 5 + frames.requestDepth ≤ frames.limit →
      ∃ ch, s = .tree "substitution_spec" ch ∧ Meets (buildInput frames d ch) (Node.marksOf ch)
  | _, .named _ _ output, d, room => by
    simp only [Node.heightOf_cons, Node.height_tree, Node.height_token, Node.heightOf_nil] at room
    obtain ⟨och, rfl, out⟩ := output.meets (d + 1) (by omega)
    exact ⟨_, rfl, buildInput_named_meets out (by omega)⟩
  | _, .positional output, d, room => by
    simp only [Node.heightOf_cons, Node.height_tree, Node.height_absent, Node.heightOf_nil] at room
    obtain ⟨och, rfl, out⟩ := output.meets (d + 1) (by omega)
    exact ⟨_, rfl, buildInput_positional_meets out (by omega)⟩

theorem OutputTree.meets : ∀ {o : Node}, OutputTree P o → ∀ d,
    d + o.height + 5 + frames.requestDepth ≤ frames.limit →
      ∃ och, o = .tree "output_ref" och ∧ Meets (buildOutputRef frames d och) (Node.marksOf och)
  | _, .mk subst outputId, d, room => by
    simp only [Node.heightOf_cons, Node.height_tree, Node.heightOf_nil] at room
    exact ⟨_, rfl, buildOutputRef_meets outputId (subst.meets (d + 1) (by omega)) (by omega)⟩

end

end Knot

end ArtifactNames
