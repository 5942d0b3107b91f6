import ArtifactNames.Proofs.Name.Stack

/-! A chain of nested substitutions that the walk reaches runs it out of stack, three frames a level
at least (`SubstChain.stacks`); hence `parseWith_stack_refines`. -/

namespace ArtifactNames

open Syntax Text Storage Walk

/-! ## Chains of nesting -/

mutual

/-- The walk over a substitution with these parts reaches, through spec values and nested names, a
substitution `k` levels deeper, with nothing on the way that ends it first. -/
inductive SubstChain : Nat → List Node → Prop
  | reached (parts : List Node) : SubstChain 0 parts
  | spec {ref index : Node} {specs : List Node} {k : Nat} : (Mark.run ref.marks).2 = none →
      (Mark.run index.marks).2 = none → SpecsChain k specs →
      SubstChain k [ref, .tree "multiary" [index, .tree "spec_list" specs]]
  | nested {nch : List Node} {m : Node} {k : Nat} : NameChain k nch →
      SubstChain (k + 1) [.tree "nested_ref" [.tree "name" nch], m]

/-- The chain goes through one of the specs, and the specs before it end nothing. -/
inductive SpecsChain : Nat → List Node → Prop
  | here {spec : Node} {rest : List Node} {k : Nat} : SpecChain k spec → SpecsChain k (spec :: rest)
  | later {spec : Node} {rest : List Node} {k : Nat} : (Mark.run spec.marks).2 = none →
      SpecsChain k rest → SpecsChain k (spec :: rest)

/-- A spec value is one level of nesting; the input's name before it ends nothing. -/
inductive SpecChain : Nat → Node → Prop
  | mk {id out : Node} {parts : List Node} {k : Nat} : (Mark.run id.marks).2 = none →
      SubstChain k parts →
      SpecChain (k + 1)
        (.tree "substitution_spec" [id, .tree "output_ref" [.tree "substitution" parts, out]])

/-- The chain goes through one of the declarations of a name, or through its last substitution
after declarations that end nothing. -/
inductive NameChain : Nat → List Node → Prop
  | decls {items : List Node} {sub : Node} {k : Nat} : DeclsChain k items →
      NameChain k [.tree "declarations" items, sub]
  | last {items parts : List Node} {k : Nat} : (Mark.run (Node.marksOf items)).2 = none →
      SubstChain k parts → NameChain k [.tree "declarations" items, .tree "substitution" parts]

/-- The chain goes through the value of one of the declarations, and the declarations before it
and its binding end nothing. -/
inductive DeclsChain : Nat → List Node → Prop
  | here {b : Node} {parts rest : List Node} {k : Nat} : (Mark.run b.marks).2 = none →
      SubstChain k parts → DeclsChain k (.tree "declaration" [b, .tree "substitution" parts] :: rest)
  | later {item : Node} {rest : List Node} {k : Nat} : (Mark.run item.marks).2 = none →
      DeclsChain k rest → DeclsChain k (item :: rest)

end

/-! ## Walks that run out of stack, and walks that let it go on -/

def Walk.Stacks {α : Type} (w : Walk α) : Prop :=
  ∀ s : WalkState, s.Granting → (w.run.run s).1 = .error (.outOfMemory .stack)

/-- From every state whose allocator grants everything, the walk runs out of stack, or gives a
value and leaves such a state. -/
def Walk.Passes {α : Type} (w : Walk α) : Prop :=
  ∀ s : WalkState, s.Granting → (w.run.run s).1 = .error (.outOfMemory .stack) ∨
    ∃ a s', s'.Granting ∧ w.run.run s = (.ok a, s')

theorem Walk.run_bind_of_stack {α β : Type} {x : Walk α} {s : WalkState} (f : α → Walk β)
    (short : (x.run.run s).1 = .error (.outOfMemory .stack)) :
    ((x >>= f).run.run s).1 = .error (.outOfMemory .stack) := by
  rw [run_bind]
  rcases ran : x.run.run s with ⟨r, s'⟩
  rw [ran] at short
  subst short
  rfl

namespace Walk.Passes

variable {α β : Type}

theorem pure (a : α) : Passes (Pure.pure a : Walk α) :=
  fun s granting => .inr ⟨a, s, granting, rfl⟩

theorem bind {x : Walk α} {f : α → Walk β} (hx : Passes x) (hf : ∀ a, Passes (f a)) :
    Passes (x >>= f) := by
  intro s granting
  rcases hx s granting with short | ⟨a, s', granting', ran⟩
  · exact .inl (run_bind_of_stack f short)
  · rw [run_bind, ran]
    exact hf a s' granting'

theorem map {x : Walk α} (f : α → β) (hx : Passes x) : Passes (f <$> x) := by
  rw [map_eq_pure_bind]
  exact hx.bind fun a => pure (f a)

theorem reach (frames : Frames) (d : Nat) : Passes (Walk.reach frames d) := by
  intro s granting
  rw [run_reach]
  split
  · exact .inr ⟨(), s, granting, rfl⟩
  · exact .inl rfl

theorem of_deeper {w w' : Walk α} {ms : List Mark} (deeper : Deeper w w') (meets : Meets w' ms)
    (quiet : (Mark.run ms).2 = none) : Passes w := by
  intro s granting
  rcases deeper.run s with short | same
  · exact .inl short
  · obtain ⟨N, s', granting', -, -, ran⟩ := meets s granting
    rw [quiet] at ran
    obtain ⟨a, ran⟩ := ran
    exact .inr ⟨a, s', granting', same.trans ran⟩

theorem collection (frames : Frames) (d : Nat) (kind : CollectionKind) (count : Nat) :
    Passes (Walk.collection frames d kind count) :=
  of_deeper (Deeper.collection frames (Nat.le_add_right _ (d + 5 + frames.requestDepth)) d kind count)
    (Meets.collection kind count (by simp only [Frames.withLimit_limit,
      Frames.withLimit_requestDepth]; omega)) rfl

theorem node (frames : Frames) (d : Nat) (kind : NodeKind) : Passes (Walk.node frames d kind) :=
  of_deeper (Deeper.node frames (Nat.le_add_right _ (d + 5 + frames.requestDepth)) d kind)
    (Meets.node kind (by simp only [Frames.withLimit_limit, Frames.withLimit_requestDepth]; omega)) rfl

theorem identifier (frames : Frames) (d : Nat) (k : String) {cs : List Nat}
    (quiet : (Mark.run [leafMark "IDENT" cs]).2 = none) :
    Passes (ArtifactNames.identifier frames d (.token k cs)) :=
  of_deeper (Deeper.identifier frames (Nat.le_add_right _ (d + 2)) d _)
    (Meets.identifier k cs (by simp only [Frames.withLimit_limit]; omega)) quiet

theorem after {x : Walk α} {f : α → Walk β} (hx : Passes x) (hf : ∀ a, Stacks (f a)) :
    Stacks (x >>= f) := by
  intro s granting
  rcases hx s granting with short | ⟨a, s', granting', ran⟩
  · exact run_bind_of_stack f short
  · rw [run_bind, ran]
    exact hf a s' granting'

end Walk.Passes

namespace Walk.Stacks

variable {α β : Type}

theorem bind {x : Walk α} {f : α → Walk β} (hx : Stacks x) : Stacks (x >>= f) :=
  fun s granting => run_bind_of_stack f (hx s granting)

theorem reach {frames : Frames} {d : Nat} (short : frames.limit < d) : Stacks (Walk.reach frames d) := by
  intro s _
  rw [run_reach, if_neg (by omega)]

end Walk.Stacks

/-! ## One step down a chain

Each builder on the way down a chain, given that the builder it calls next runs out of stack and
that what it builds before lets the walk go on, runs out of stack. -/

section Steps

variable {frames : Frames} {d : Nat}

theorem buildSubstitution_stacks (parts : List Node) (short : frames.limit < d + 3) :
    Stacks (buildSubstitution frames d parts) := by
  unfold buildSubstitution
  exact (Passes.reach _ _).after fun _ => (Stacks.reach short).bind

theorem buildSubstitution_inputs_stacks {tag : String} {ch mch : List Node}
    (ref : Passes (buildRef frames (d + 1) tag ch)) (inputs : Stacks (buildInputs frames (d + 1) mch)) :
    Stacks (buildSubstitution frames d [.tree tag ch, .tree "multiary" mch]) := by
  unfold buildSubstitution
  dsimp only
  exact (Passes.reach _ _).after fun _ => (Passes.reach _ _).after fun _ =>
    ref.after fun _ => inputs.bind

theorem buildSubstitution_ref_stacks {tag : String} {ch : List Node} {m : Node}
    (inputs : m = .absent ∨ ∃ mch, m = .tree "multiary" mch) (ref : Stacks (buildRef frames (d + 1) tag ch)) :
    Stacks (buildSubstitution frames d [.tree tag ch, m]) := by
  unfold buildSubstitution
  rcases inputs with rfl | ⟨mch, rfl⟩ <;> dsimp only <;>
    exact (Passes.reach _ _).after fun _ => (Passes.reach _ _).after fun _ => ref.bind

theorem buildRef_nested_stacks {nch : List Node} (name : Stacks (buildName frames (d + 1) nch)) :
    Stacks (buildRef frames d "nested_ref" [.tree "name" nch]) := by
  unfold buildRef
  simp +decide only [↓reduceIte]
  exact (Passes.reach _ _).after fun _ => (Passes.reach _ _).after fun _ =>
    (Passes.reach _ _).after fun _ => name.bind

theorem buildInputs_specs_stacks {items : List Node} (specs : Stacks (buildInputItems frames d items)) :
    Stacks (buildInputs frames d [.absent, .tree "spec_list" items]) := by
  unfold buildInputs
  dsimp only
  exact (Passes.reach _ _).after fun _ => (Passes.reach _ _).after fun _ =>
    (Passes.reach _ _).after fun _ => (Passes.collection _ _ _ _).after fun _ => specs.bind

theorem buildInputItems_here_stacks {ch rest : List Node} (input : Stacks (buildInput frames (d + 1) ch)) :
    Stacks (buildInputItems frames d (.tree "substitution_spec" ch :: rest)) := by
  unfold buildInputItems
  exact (Passes.reach _ _).after fun _ => input.bind

theorem buildInputItems_later_stacks {ch rest : List Node} (input : Passes (buildInput frames (d + 1) ch))
    (later : Stacks (buildInputItems frames d rest)) :
    Stacks (buildInputItems frames d (.tree "substitution_spec" ch :: rest)) := by
  unfold buildInputItems
  exact (Passes.reach _ _).after fun _ => input.after fun _ =>
    (Passes.reach _ _).after fun _ => later.bind

theorem buildOutputRef_stacks {out : Node} {parts : List Node} (outId : OutputIdTree out)
    (sub : Stacks (buildSubstitution frames (d + 1) parts)) :
    Stacks (buildOutputRef frames d [.tree "substitution" parts, out]) := by
  unfold buildOutputRef
  cases outId with
  | absent =>
    simp only [optionalPayloadOf, orFail_ok, pure_bind]
    exact (Passes.reach _ _).after fun _ => (Passes.reach _ _).after fun _ => sub.bind
  | ident _ =>
    simp +decide only [optionalPayloadOf, payloadOf, Except.map, orFail_ok, pure_bind, ↓reduceIte]
    exact (Passes.reach _ _).after fun _ => (Passes.reach _ _).after fun _ => sub.bind

theorem buildInput_stacks {id out : Node} {parts : List Node}
    (named : id = .absent ∨ ∃ t, id = .token "IDENT" t ∧ (Mark.run [leafMark "IDENT" t]).2 = none)
    (outId : OutputIdTree out) (sub : Stacks (buildSubstitution frames (d + 2) parts)) :
    Stacks (buildInput frames d [id, .tree "output_ref" [.tree "substitution" parts, out]]) := by
  have output : Stacks (buildOutputRef frames (d + 1) [.tree "substitution" parts, out]) :=
    buildOutputRef_stacks outId sub
  unfold buildInput
  rcases named with rfl | ⟨t, rfl, quiet⟩
  · simp only [optionalPayloadOf, orFail_ok, pure_bind]
    exact (Passes.reach _ _).after fun _ => (Passes.reach _ _).after fun _ => output.bind
  · simp +decide only [optionalPayloadOf, payloadOf, Except.map, orFail_ok, pure_bind, ↓reduceIte]
    exact (Passes.reach _ _).after fun _ => (Passes.reach _ _).after fun _ =>
      ((Passes.identifier _ _ _ quiet).map _).after fun _ => output.bind

theorem buildDeclarations_stacks {items : List Node}
    (decls : Stacks (buildDeclarationItems frames d items)) :
    Stacks (buildDeclarations frames d items) := by
  unfold buildDeclarations
  exact (Passes.reach _ _).after fun _ => (Passes.reach _ _).after fun _ =>
    (Passes.collection _ _ _ _).after fun _ => decls.bind

theorem buildName_decls_stacks {items parts : List Node}
    (decls : Stacks (buildDeclarations frames (d + 1) items)) :
    Stacks (buildName frames d [.tree "declarations" items, .tree "substitution" parts]) := by
  unfold buildName
  dsimp only
  exact (Passes.reach _ _).after fun _ => (Passes.reach _ _).after fun _ => decls.bind

theorem buildName_last_stacks {items parts : List Node}
    (decls : Passes (buildDeclarations frames (d + 1) items))
    (last : Stacks (buildSubstitution frames (d + 1) parts)) :
    Stacks (buildName frames d [.tree "declarations" items, .tree "substitution" parts]) := by
  unfold buildName
  dsimp only
  exact (Passes.reach _ _).after fun _ => (Passes.reach _ _).after fun _ =>
    decls.after fun _ => last.bind

theorem buildDeclarationItems_here_stacks {btag : String} {bch parts rest : List Node}
    (binding : Passes (buildBinding frames (d + 2) btag bch))
    (value : Stacks (buildSubstitution frames (d + 2) parts)) :
    Stacks (buildDeclarationItems frames d
      (.tree "declaration" [.tree btag bch, .tree "substitution" parts] :: rest)) := by
  unfold buildDeclarationItems buildDeclaration
  exact (Passes.reach _ _).after fun _ => ((Passes.reach _ _).after fun _ =>
    (Passes.reach _ _).after fun _ => binding.after fun _ => value.bind).bind

theorem buildDeclarationItems_later_stacks {ch rest : List Node}
    (decl : Passes (buildDeclaration frames (d + 1) ch))
    (later : Stacks (buildDeclarationItems frames d rest)) :
    Stacks (buildDeclarationItems frames d (.tree "declaration" ch :: rest)) := by
  unfold buildDeclarationItems
  exact (Passes.reach _ _).after fun _ => decl.after fun _ => (Passes.node _ _ _).after fun _ =>
    (Passes.reach _ _).after fun _ => later.bind

end Steps

/-! ## What the grammar builds before a chain lets the walk go on

A tree of the grammar whose marks end nothing is built without fault once the stack has room for
it (`Order`); on any stack it runs out of stack or lets the walk go on. -/

section Grammar

variable {P : List Nat → Prop} (frames : Frames) (d : Nat)

theorem SubstTree.passes_ref {lead : Option (List Nat)} {ref : Node} {mch : List Node}
    (tree : SubstTree P lead [ref, .tree "multiary" mch]) (quiet : (Mark.run ref.marks).2 = none) :
    ∃ tag ch, ref = .tree tag ch ∧ Passes (buildRef frames d tag ch) ∧
      InputsTree P (.tree "multiary" mch) := by
  cases tree with
  | atomic pidTree _ inputs =>
    let deep := frames.withLimit (frames.limit + (d + 7 + frames.requestDepth))
    have room : d + 7 + deep.requestDepth ≤ deep.limit := by
      simp only [deep, Frames.withLimit_limit, Frames.withLimit_requestDepth]
      omega
    exact ⟨_, _, rfl, Passes.of_deeper (Deeper.buildRef frames (Nat.le_add_right _ _) _ _ _)
      (buildRef_atomic_meets pidTree room) quiet, inputs⟩
  | builtin nsTree _ pidTree inputs =>
    let deep := frames.withLimit (frames.limit + (d + 8 + frames.requestDepth))
    have room : d + 8 + deep.requestDepth ≤ deep.limit := by
      simp only [deep, Frames.withLimit_limit, Frames.withLimit_requestDepth]
      omega
    exact ⟨_, _, rfl, Passes.of_deeper (Deeper.buildRef frames (Nat.le_add_right _ _) _ _ _)
      (buildRef_builtin_meets nsTree pidTree room) quiet, inputs⟩
  | computed => simp [Mark.run] at quiet
  | @nestedInputs nch _ nameTree inputs =>
    let deep := frames.withLimit (frames.limit + (d + Node.heightOf nch + 7 + frames.requestDepth))
    have room : d + 1 + Node.heightOf nch + 6 + deep.requestDepth ≤ deep.limit := by
      simp only [deep, Frames.withLimit_limit, Frames.withLimit_requestDepth]
      omega
    have stored : d + 5 + deep.requestDepth ≤ deep.limit := by
      simp only [deep, Frames.withLimit_limit, Frames.withLimit_requestDepth]
      omega
    exact ⟨_, _, rfl, Passes.of_deeper (Deeper.buildRef frames (Nat.le_add_right _ _) _ _ _)
      (buildRef_nested_meets (nameTree.meets (d + 1) room) stored) quiet, inputs⟩

theorem SubstTree.of_nested {lead : Option (List Nat)} {nch : List Node} {m : Node}
    (tree : SubstTree P lead [.tree "nested_ref" [.tree "name" nch], m]) :
    NameTree P nch ∧ (m = .absent ∨ ∃ mch, m = .tree "multiary" mch) := by
  generalize same : [Node.tree "nested_ref" [.tree "name" nch], m] = parts at tree
  cases tree with
  | nested nameTree =>
    simp only [List.cons.injEq, Node.tree.injEq, and_true, true_and] at same
    obtain ⟨rfl, rfl⟩ := same
    exact ⟨nameTree, .inl rfl⟩
  | nestedInputs nameTree inputs =>
    simp only [List.cons.injEq, Node.tree.injEq, and_true, true_and] at same
    obtain ⟨rfl, rfl⟩ := same
    cases inputs <;> exact ⟨nameTree, .inr ⟨_, rfl⟩⟩
  | _ => simp at same

theorem SpecTree.passes {spec : Node} (tree : SpecTree P spec) (quiet : (Mark.run spec.marks).2 = none) :
    ∃ ch, spec = .tree "substitution_spec" ch ∧ Passes (buildInput frames d ch) := by
  let deep := frames.withLimit (frames.limit + (d + spec.height + 5 + frames.requestDepth))
  have room : d + spec.height + 5 + deep.requestDepth ≤ deep.limit := by
    simp only [deep, Frames.withLimit_limit, Frames.withLimit_requestDepth]
    omega
  obtain ⟨ch, rfl, meets⟩ := tree.meets d room
  refine ⟨ch, rfl, Passes.of_deeper (Deeper.buildInput frames (Nat.le_add_right _ _) d ch) meets ?_⟩
  simpa using quiet

theorem DeclTrees.passes {items : List Node} (trees : DeclTrees P items)
    (quiet : (Mark.run (Node.marksOf items)).2 = none) : Passes (buildDeclarations frames d items) := by
  let deep := frames.withLimit (frames.limit + (d + Node.heightOf items + 6 + frames.requestDepth))
  have room : d + Node.heightOf items + 6 + deep.requestDepth ≤ deep.limit := by
    simp only [deep, Frames.withLimit_limit, Frames.withLimit_requestDepth]
    omega
  have built : Passes (buildDeclarationItems frames d items) :=
    Passes.of_deeper (Deeper.buildDeclarationItems frames (Nat.le_add_right _ _) d items)
      (trees.meets d room) quiet
  unfold buildDeclarations
  exact (Passes.reach _ _).bind fun _ => (Passes.reach _ _).bind fun _ =>
    (Passes.collection _ _ _ _).bind fun _ => built.bind fun _ =>
      (Passes.reach _ _).bind fun _ => Passes.pure _

theorem DeclTrees.passes_head {item : Node} {rest : List Node} (trees : DeclTrees P (item :: rest))
    (quiet : (Mark.run item.marks).2 = none) :
    ∃ ch, item = .tree "declaration" ch ∧ Passes (buildDeclaration frames d ch) ∧ DeclTrees P rest := by
  cases trees with
  | @cons b parts _ _ binding value rest =>
    let deep := frames.withLimit (frames.limit + (d + Node.heightOf parts + 8 + frames.requestDepth))
    have room : d + 1 + Node.heightOf parts + 6 + deep.requestDepth ≤ deep.limit := by
      simp only [deep, Frames.withLimit_limit, Frames.withLimit_requestDepth]
      omega
    have bound : d + 4 ≤ deep.limit := by
      simp only [deep, Frames.withLimit_limit]
      omega
    refine ⟨_, rfl, Passes.of_deeper (Deeper.buildDeclaration frames (Nat.le_add_right _ _) d _)
      (buildDeclaration_meets binding (value.meets (d + 1) room) bound) ?_, rest⟩
    simpa using quiet

theorem BindingTree.passes {b : Node} (tree : BindingTree b) (quiet : (Mark.run b.marks).2 = none) :
    ∃ btag bch, b = .tree btag bch ∧ Passes (buildBinding frames d btag bch) := by
  cases tree with
  | unbound =>
    refine ⟨_, _, rfl, ?_⟩
    unfold buildBinding
    simp +decide only [↓reduceIte]
    exact (Passes.reach _ _).bind fun _ => (Passes.reach _ _).bind fun _ => Passes.pure _
  | bound _ =>
    refine ⟨_, _, rfl, ?_⟩
    unfold buildBinding
    simp +decide only [payloadOf, orFail_ok, pure_bind, ↓reduceIte]
    exact (Passes.reach _ _).bind fun _ => (Passes.reach _ _).bind fun _ =>
      (Passes.reach _ _).bind fun _ => (Passes.identifier _ _ _ (by simpa using quiet)).map _

end Grammar

/-! ## Down the whole chain -/

section Knot

variable {P : List Nat → Prop}

mutual

theorem SubstChain.stacks : ∀ {k : Nat} {parts : List Node}, SubstChain k parts →
    ∀ {lead : Option (List Nat)}, SubstTree P lead parts → ∀ (frames : Frames) (d : Nat),
      frames.limit < d + 3 * k + 3 → Stacks (buildSubstitution frames d parts)
  | _, _, .reached parts, _, _, _, _, short => buildSubstitution_stacks parts (by omega)
  | _, _, .spec quietRef quietIndex chain, _, tree, frames, d, short => by
    obtain ⟨tag, ch, rfl, ref, inputs⟩ := tree.passes_ref frames (d + 1) quietRef
    cases inputs with
    | specs indexTree specTrees =>
      cases indexTree with
      | absent =>
        exact buildSubstitution_inputs_stacks ref
          (buildInputs_specs_stacks (chain.stacks specTrees frames (d + 1) (by omega)))
      | index => simp [Mark.run] at quietIndex
  | _, _, .nested chain, _, tree, frames, d, short => by
    obtain ⟨nameTree, inputs⟩ := tree.of_nested
    exact buildSubstitution_ref_stacks inputs
      (buildRef_nested_stacks (chain.stacks nameTree frames (d + 2) (by omega)))

theorem SpecsChain.stacks : ∀ {k : Nat} {specs : List Node}, SpecsChain k specs →
    SpecTrees P specs → ∀ (frames : Frames) (d : Nat),
      frames.limit < d + 3 * k + 3 → Stacks (buildInputItems frames d specs)
  | _, _, .here chain, trees, frames, d, short => by
    cases trees with
    | cons specTree _ =>
      obtain ⟨ch, rfl, runsOut⟩ := chain.stacks specTree frames (d + 1) (by omega)
      exact buildInputItems_here_stacks runsOut
  | _, _, .later quiet chain, trees, frames, d, short => by
    cases trees with
    | cons specTree restTrees =>
      obtain ⟨ch, rfl, passes⟩ := specTree.passes frames (d + 1) quiet
      exact buildInputItems_later_stacks passes (chain.stacks restTrees frames d short)

theorem SpecChain.stacks : ∀ {k : Nat} {spec : Node}, SpecChain k spec → SpecTree P spec →
    ∀ (frames : Frames) (d : Nat), frames.limit < d + 3 * k + 2 →
      ∃ ch, spec = .tree "substitution_spec" ch ∧ Stacks (buildInput frames d ch)
  | _, _, .mk quiet chain, tree, frames, d, short => by
    refine ⟨_, rfl, ?_⟩
    cases tree with
    | named _ _ output =>
      cases output with
      | mk substTree outId =>
        exact buildInput_stacks (.inr ⟨_, rfl, by simpa using quiet⟩) outId
          (chain.stacks substTree frames (d + 2) (by omega))
    | positional output =>
      cases output with
      | mk substTree outId =>
        exact buildInput_stacks (.inl rfl) outId (chain.stacks substTree frames (d + 2) (by omega))

theorem NameChain.stacks : ∀ {k : Nat} {nch : List Node}, NameChain k nch → NameTree P nch →
    ∀ (frames : Frames) (d : Nat), frames.limit < d + 3 * k + 4 → Stacks (buildName frames d nch)
  | _, _, .decls chain, tree, frames, d, short => by
    cases tree with
    | mk declTrees _ _ =>
      exact buildName_decls_stacks
        (buildDeclarations_stacks (chain.stacks declTrees frames (d + 1) (by omega)))
  | _, _, .last quiet chain, tree, frames, d, short => by
    cases tree with
    | mk declTrees substTree _ =>
      exact buildName_last_stacks (declTrees.passes frames (d + 1) quiet)
        (chain.stacks substTree frames (d + 1) (by omega))

theorem DeclsChain.stacks : ∀ {k : Nat} {items : List Node}, DeclsChain k items →
    DeclTrees P items → ∀ (frames : Frames) (d : Nat),
      frames.limit < d + 3 * k + 5 → Stacks (buildDeclarationItems frames d items)
  | _, _, .here quiet chain, trees, frames, d, short => by
    cases trees with
    | cons binding substTree _ =>
      obtain ⟨btag, bch, rfl, passes⟩ := binding.passes frames (d + 2) quiet
      exact buildDeclarationItems_here_stacks passes (chain.stacks substTree frames (d + 2) (by omega))
  | _, _, .later quiet chain, trees, frames, d, short => by
    obtain ⟨ch, rfl, passes, restTrees⟩ := trees.passes_head frames (d + 1) quiet
    exact buildDeclarationItems_later_stacks passes (chain.stacks restTrees frames d short)

end

end Knot

theorem NameChain.stacks_buildRoot {P : List Nat → Prop} {k : Nat} {nch : List Node}
    (chain : NameChain k nch) (tree : NameTree P nch) (frames : Frames)
    (short : frames.limit < frames.entry + 3 * k + 5) : Stacks (buildRoot frames (.tree "name" nch)) := by
  unfold buildRoot
  exact chain.stacks tree frames _ (by omega)

/-! ## Reading on the real stack -/

theorem parseWith_shallow {compiler : Compiler} {frames : Frames} {allocator : Allocator}
    {source : Source} {buffer : List UInt8} {root : Node}
    (real : frames = Frames.counting ∨ frames = Frames.recording ∨ frames = Frames.granting)
    (toBuf : source.toBuffer = .ok buffer) (compiled : compiler buffer = some (.tree root))
    (shallow : root.nesting ≤ 100) :
    (parseWith compiler frames allocator source).outcome ≠ .error (.outOfMemory .stack) := by
  have room : frames.entry + 5 * root.nesting + 13 + frames.requestDepth ≤ frames.limit := by
    rcases real with rfl | rfl | rfl <;>
      simp only [Frames.counting, Frames.recording, Frames.granting, Frames.stackLimit] <;> omega
  rw [parseWith_of_tree toBuf compiled]
  exact Walk.Safe.buildRoot root room _

theorem parseWith_chain_stacks {frames : Frames} {allocator : Allocator} {source : Source}
    {buffer : List UInt8} {nch : List Node} {k : Nat} (grants : allocator.refuseFrom = none)
    (toBuf : source.toBuffer = .ok buffer)
    (accepted : grammarCompiler buffer = some (.tree (.tree "name" nch))) (chain : NameChain k nch)
    (short : frames.limit < frames.entry + 3 * k + 5) :
    (parseWith grammarCompiler frames allocator source).outcome = .error (.outOfMemory .stack) ∧
      (parseWith grammarCompiler frames allocator source).releases = [1] := by
  obtain ⟨nch', same, tree⟩ := grammarCompiler_nameTree accepted
  obtain ⟨-, rfl⟩ := Node.tree.inj same
  rw [parseWith_of_tree toBuf accepted]
  exact ⟨chain.stacks_buildRoot tree frames short ⟨allocator, #[]⟩ grants, rfl⟩

/-- The walk on a stack whose deepest frame allowed is `L` refines the walk on an unbounded one.

* For every compiler, source and allocator there is a depth `peak`, the deepest frame the walk
  reaches: the reading runs out of stack exactly when `L < peak`, and from `peak` on every reading
  is the same, with the same outcome, allocator and its request count, trace and releases. So
  running out of stack at one bound means running out of it at every smaller bound.
* On the real stack of a thousand frames, a tree whose spec values `f(...)` and nested names
  `(...)` nest at most a hundred deep never runs out of it.
* A source whose tree holds a chain of `k + 1` substitutions, each a spec value or nested name of
  the one before (or the value of a declaration of a nested name), that the walk reaches before
  anything else ends it, runs out of a stack of a thousand frames once `k + 1` is a thousand, with
  an allocator that grants everything, and its tree is released once. -/
theorem parseWith_stack_refines :
    (∀ (compiler : Compiler) (frames : Frames) (allocator : Allocator) (source : Source),
      ∃ peak, ∀ L,
        ((parseWith compiler (frames.withLimit L) allocator source).outcome =
          .error (.outOfMemory .stack) ↔ L < peak) ∧
        (peak ≤ L → parseWith compiler (frames.withLimit L) allocator source =
          parseWith compiler (frames.withLimit peak) allocator source)) ∧
    (∀ (compiler : Compiler) (frames : Frames) (allocator : Allocator) (source : Source)
      (L L' : Nat), L' ≤ L →
      (parseWith compiler (frames.withLimit L) allocator source).outcome =
        .error (.outOfMemory .stack) →
      (parseWith compiler (frames.withLimit L') allocator source).outcome =
        .error (.outOfMemory .stack)) ∧
    (∀ (compiler : Compiler) (frames : Frames) (allocator : Allocator) (source : Source)
      (buffer : List UInt8) (root : Node),
      (frames = Frames.counting ∨ frames = Frames.recording ∨ frames = Frames.granting) →
      source.toBuffer = .ok buffer → compiler buffer = some (.tree root) → root.nesting ≤ 100 →
      (parseWith compiler frames allocator source).outcome ≠ .error (.outOfMemory .stack)) ∧
    (∀ (frames : Frames) (allocator : Allocator) (source : Source) (buffer : List UInt8)
      (nch : List Node) (k : Nat),
      frames.limit = Frames.stackLimit → allocator.refuseFrom = none →
      source.toBuffer = .ok buffer → grammarCompiler buffer = some (.tree (.tree "name" nch)) →
      NameChain k nch → 999 ≤ k →
      (parseWith grammarCompiler frames allocator source).outcome = .error (.outOfMemory .stack) ∧
        (parseWith grammarCompiler frames allocator source).releases = [1]) := by
  refine ⟨parseWith_peak, fun compiler frames allocator source L L' le short => ?_,
    fun _ _ _ _ _ _ real toBuf compiled shallow => parseWith_shallow real toBuf compiled shallow,
    fun frames _ _ _ _ _ limit grants toBuf accepted chain deep =>
      parseWith_chain_stacks grants toBuf accepted chain (by simp only [limit, Frames.stackLimit]; omega)⟩
  -- below the peak at a bound, the walk is below it at every smaller bound
  obtain ⟨peak, reaches⟩ := parseWith_peak compiler frames allocator source
  exact (reaches L').1.mpr (Nat.lt_of_le_of_lt le ((reaches L).1.mp short))

theorem parseWith_stack_refines_shallow : ∃ buffer root,
    (Source.text [0x66, 0x28, 0x67, 0x28, 0x29, 0x29]).toBuffer = .ok buffer ∧
    grammarCompiler buffer = some (.tree root) ∧ root.nesting ≤ 100 ∧
    (parseWith grammarCompiler Frames.granting {} (.text [0x66, 0x28, 0x67, 0x28, 0x29, 0x29])).outcome ≠
      .error (.outOfMemory .stack) := by
  have toBuf : (Source.text [0x66, 0x28, 0x67, 0x28, 0x29, 0x29]).toBuffer =
      .ok ([0x66, 0x28, 0x67, 0x28, 0x29, 0x29] ++ [terminator]) := by
    rfl
  -- the tree is read and measured by evaluation; it is then named, not written out
  have measured : ((readName (scan (decodeEscaped [0x66, 0x28, 0x67, 0x28, 0x29, 0x29]))).toOption.map
      fun root => decide (root.nesting ≤ 100)) = some true := by
    decide +kernel
  cases read : readName (scan (decodeEscaped [0x66, 0x28, 0x67, 0x28, 0x29, 0x29])) with
  | error r => simp [read, Except.toOption] at measured
  | ok root =>
    have shallow : root.nesting ≤ 100 := by simpa [read, Except.toOption] using measured
    have compiled : grammarCompiler ([0x66, 0x28, 0x67, 0x28, 0x29, 0x29] ++ [terminator]) =
        some (.tree root) := by
      simp [grammarCompiler, compile, compileText, read]
    exact ⟨_, root, toBuf, compiled, shallow, parseWith_stack_refines.2.2.1 grammarCompiler
      Frames.granting {} _ _ root (.inr (.inr rfl)) toBuf compiled shallow⟩

end ArtifactNames
