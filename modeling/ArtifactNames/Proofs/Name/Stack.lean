import ArtifactNames.Name.Parse
import ArtifactNames.Proofs.Name.WalkSteps
import ArtifactNames.Proofs.Name.Order
import Mathlib.Data.Nat.Find

/-! A deeper stack only lets the walk go further: on a shallower stack it runs as on a deeper one
until it reaches a frame it has no room for, and stops there (`Walk.Deeper`). -/

namespace ArtifactNames

open Syntax Storage Walk

def Frames.withLimit (frames : Frames) (limit : Nat) : Frames := { frames with limit := limit }

@[simp] theorem Frames.withLimit_limit (frames : Frames) (L : Nat) : (frames.withLimit L).limit = L := rfl

@[simp] theorem Frames.withLimit_requestDepth (frames : Frames) (L : Nat) :
    (frames.withLimit L).requestDepth = frames.requestDepth := rfl

/-- The two walks take the same steps, the second on a stack at least as deep as the first. -/
inductive Walk.Deeper : {α : Type} → Walk α → Walk α → Prop
  | pure {α : Type} (a : α) : Deeper (Pure.pure a : Walk α) (Pure.pure a)
  | throw {α : Type} (e : ParseError) : e ≠ .outOfMemory .stack →
      Deeper (MonadExcept.throw e : Walk α) (MonadExcept.throw e)
  | bind {α β : Type} {x y : Walk α} {f g : α → Walk β} : Deeper x y → (∀ a, Deeper (f a) (g a)) →
      Deeper (x >>= f) (y >>= g)
  | reach (frames : Frames) {L L' : Nat} (d : Nat) : L ≤ L' →
      Deeper (reach (frames.withLimit L) d) (reach (frames.withLimit L') d)
  | record (c : FactoryCall) : Deeper (record c) (record c)
  | request : Deeper request request

theorem payloadOf_ne_stack {kind : String} {node : Node} {e : ParseError}
    (h : payloadOf kind node = .error e) : e ≠ .outOfMemory .stack := by
  rw [payloadOf_error h]
  simp [mismatch]

theorem optionalPayloadOf_ne_stack {kind : String} {node : Node} {e : ParseError}
    (h : optionalPayloadOf kind node = .error e) : e ≠ .outOfMemory .stack := by
  rw [optionalPayloadOf_error h]
  simp [mismatch]

theorem payloadChars_ne_stack {node : Node} {e : ParseError} (h : payloadChars node = .error e) :
    e ≠ .outOfMemory .stack := by
  unfold payloadChars at h
  dsimp only at h
  repeat' split at h
  all_goals cases h
  all_goals simp [mismatch]

theorem mismatch_ne_stack (expected : String) (node : Node) :
    mismatch expected node ≠ .outOfMemory .stack := by
  simp [mismatch]

theorem arity_ne_stack (tag : String) (count expected : Nat) :
    arity tag count expected ≠ .outOfMemory .stack := by
  simp [arity]

theorem notSupported_ne_stack (c : Construct) :
    ParseError.notSupported c ≠ .outOfMemory .stack := by
  simp

namespace Walk.Deeper

theorem run {α : Type} {x y : Walk α} (h : Deeper x y) (s : WalkState) :
    (x.run.run s).1 = .error (.outOfMemory .stack) ∨ x.run.run s = y.run.run s := by
  induction h generalizing s with
  | pure a => exact .inr rfl
  | throw e _ => exact .inr rfl
  | record c => exact .inr rfl
  | request => exact .inr rfl
  | @reach frames L L' d le =>
    simp only [run_reach, Frames.withLimit]
    by_cases room : d ≤ L
    · exact .inr (by rw [if_pos room, if_pos (Nat.le_trans room le)])
    · exact .inl (by rw [if_neg room])
  | @bind β γ x y f g _ _ ihx ihf =>
    rw [run_bind, run_bind]
    rcases ihx s with short | same
    · -- the first part runs out of stack, and so does the whole
      left
      rcases ran : x.run.run s with ⟨r, s'⟩
      rw [ran] at short
      subst short
      rfl
    · rw [← same]
      rcases x.run.run s with ⟨_ | a, s'⟩
      · exact .inr rfl
      · exact ihf a s'

theorem orFail {β : Type} {x : Except ParseError β} (h : ∀ e, x = .error e → e ≠ .outOfMemory .stack) :
    Deeper (Walk.orFail x) (Walk.orFail x) := by
  cases x with
  | ok a => exact .pure a
  | error e => exact .throw e (h e rfl)

theorem map {α β : Type} {x y : Walk α} (f : α → β) (h : Deeper x y) : Deeper (f <$> x) (f <$> y) := by
  rw [map_eq_pure_bind, map_eq_pure_bind]
  exact h.bind fun a => .pure (f a)

theorem payload_bind {β : Type} {kind : String} {n : Node} {f g : Node → Walk β}
    (h : ∀ p, Deeper (f p) (g p)) :
    Deeper (Walk.orFail (payloadOf kind n) >>= f) (Walk.orFail (payloadOf kind n) >>= g) :=
  .bind (orFail fun _ => payloadOf_ne_stack) h

theorem optional_bind {β : Type} {kind : String} {n : Node} {f g : Option Node → Walk β}
    (h : ∀ o, Deeper (f o) (g o)) :
    Deeper (Walk.orFail (optionalPayloadOf kind n) >>= f)
      (Walk.orFail (optionalPayloadOf kind n) >>= g) :=
  .bind (orFail fun _ => optionalPayloadOf_ne_stack) h

variable (frames : Frames) {L L' : Nat} (le : L ≤ L')
include le

theorem enterPolicy (d : Nat) (c : FactoryCall) :
    Deeper (enterPolicy (frames.withLimit L) d c) (enterPolicy (frames.withLimit L') d c) := by
  unfold Walk.enterPolicy
  by_cases recorded : frames.recorded = true
  · rw [if_pos (show (frames.withLimit L).recorded = true from recorded),
      if_pos (show (frames.withLimit L').recorded = true from recorded)]
    exact .bind (.reach frames _ le) fun _ => .bind (.record c) fun _ =>
      .bind (.reach frames _ le) fun _ => .pure _
  · rw [if_neg (show ¬(frames.withLimit L).recorded = true from recorded),
      if_neg (show ¬(frames.withLimit L').recorded = true from recorded)]
    exact .bind (.reach frames _ le) fun _ => .bind (.record c) fun _ => .pure _

theorem collection (d : Nat) (kind : CollectionKind) (count : Nat) :
    Deeper (collection (frames.withLimit L) d kind count)
      (collection (frames.withLimit L') d kind count) := by
  unfold Walk.collection
  refine .bind (enterPolicy frames le d _) fun p => .bind (.reach frames _ le) fun _ => ?_
  by_cases some : 0 < count
  · rw [if_pos some, if_pos some]
    refine .bind (.reach frames _ le) fun _ => .bind .request fun granted => ?_
    cases granted
    · exact .throw _ (by simp)
    · exact .pure ()
  · rw [if_neg some, if_neg some]
    exact .pure ()

theorem node (d : Nat) (kind : NodeKind) :
    Deeper (node (frames.withLimit L) d kind) (node (frames.withLimit L') d kind) := by
  unfold Walk.node
  refine .bind (enterPolicy frames le d _) fun p => .bind (.reach frames _ le) fun _ =>
    .bind .request fun granted => ?_
  cases granted
  · exact .bind (.throw _ (by simp)) fun _ => .reach frames _ le
  · exact .reach frames _ le

theorem copy (d : Nat) (kind : TextKind) (text : String) :
    Deeper (copy (frames.withLimit L) d kind text) (copy (frames.withLimit L') d kind text) := by
  unfold Walk.copy
  exact .bind (enterPolicy frames le d _) fun _ => .pure ()

theorem buildParameterItems (d : Nat) (items : List Node) :
    Deeper (ArtifactNames.buildParameterItems (frames.withLimit L) d items)
      (ArtifactNames.buildParameterItems (frames.withLimit L') d items) :=
  (show ItemSteps (frames.withLimit L) (frames.withLimit L') d Deeper from
    { pure := .pure
      bind := fun hx hf => .bind hx hf
      reach := fun _ _ => .reach frames _ le
      copy := fun _ _ => copy frames le _ _ _
      mismatch := fun _ _ => .throw _ (mismatch_ne_stack _ _)
      arity := fun _ _ _ => .throw _ (arity_ne_stack _ _ _)
      payload := fun _ => orFail fun _ => payloadOf_ne_stack
      chars := fun _ => orFail fun _ => payloadChars_ne_stack }).buildParameterItems items

theorem identifier (d : Nat) (payload : Node) :
    Deeper (ArtifactNames.identifier (frames.withLimit L) d payload)
      (ArtifactNames.identifier (frames.withLimit L') d payload) := by
  unfold ArtifactNames.identifier
  exact .bind (.reach frames _ le) fun _ => .bind (.reach frames _ le) fun _ =>
    .bind (orFail fun _ => payloadChars_ne_stack) fun _ => .bind (copy frames le _ _ _) fun _ =>
      .bind (.reach frames _ le) fun _ => .pure _

theorem buildBinding (d : Nat) (tag : String) (children : List Node) :
    Deeper (ArtifactNames.buildBinding (frames.withLimit L) d tag children)
      (ArtifactNames.buildBinding (frames.withLimit L') d tag children) := by
  unfold ArtifactNames.buildBinding
  refine .bind (.reach frames _ le) fun _ => .bind (.reach frames _ le) fun _ => ?_
  split
  · exact .pure _
  · split
    · refine .bind (.reach frames _ le) fun _ => ?_
      split
      · exact payload_bind fun _ => map _ (identifier frames le _ _)
      · exact .throw _ (arity_ne_stack _ _ _)
    · exact .throw _ (mismatch_ne_stack _ _)

theorem buildNoParameters (d : Nat) :
    Deeper (ArtifactNames.buildNoParameters (frames.withLimit L) d)
      (ArtifactNames.buildNoParameters (frames.withLimit L') d) := by
  unfold ArtifactNames.buildNoParameters
  exact .bind (.reach frames _ le) fun _ => .bind (.reach frames _ le) fun _ =>
    .bind (collection frames le _ _ _) fun _ => .bind (.reach frames _ le) fun _ => .pure _

theorem buildParameters (d : Nat) (children : List Node) :
    Deeper (ArtifactNames.buildParameters (frames.withLimit L) d children)
      (ArtifactNames.buildParameters (frames.withLimit L') d children) := by
  unfold ArtifactNames.buildParameters
  refine .bind (.reach frames _ le) fun _ => .bind (.reach frames _ le) fun _ => ?_
  split
  · split
    · exact .bind (collection frames le _ _ _) fun _ => .bind (.reach frames _ le) fun _ => .pure _
    · exact .bind (collection frames le _ _ _) fun _ => .bind (buildParameterItems frames le _ _)
        fun _ => .bind (.reach frames _ le) fun _ => .pure _
    · exact .throw _ (mismatch_ne_stack _ _)
  · exact .throw _ (arity_ne_stack _ _ _)

theorem buildParameterizedId (d : Nat) (children : List Node) :
    Deeper (ArtifactNames.buildParameterizedId (frames.withLimit L) d children)
      (ArtifactNames.buildParameterizedId (frames.withLimit L') d children) := by
  unfold ArtifactNames.buildParameterizedId
  refine .bind (.reach frames _ le) fun _ => .bind (.reach frames _ le) fun _ => ?_
  split
  · split
    · exact payload_bind fun _ => .bind (identifier frames le _ _) fun _ =>
        .bind (buildNoParameters frames le _) fun _ => .pure _
    · exact payload_bind fun _ => .bind (identifier frames le _ _) fun _ =>
        .bind (buildParameters frames le _ _) fun _ => .pure _
    · exact .throw _ (mismatch_ne_stack _ _)
  · exact .throw _ (arity_ne_stack _ _ _)

theorem buildNamespace (d : Nat) (tag : String) (children : List Node) :
    Deeper (ArtifactNames.buildNamespace (frames.withLimit L) d tag children)
      (ArtifactNames.buildNamespace (frames.withLimit L') d tag children) := by
  unfold ArtifactNames.buildNamespace
  refine .bind (.reach frames _ le) fun _ => .bind (.reach frames _ le) fun _ => ?_
  split
  · refine .bind (.reach frames _ le) fun _ => ?_
    split
    · split
      · exact map _ (buildParameterizedId frames le _ _)
      · exact .throw _ (mismatch_ne_stack _ _)
    · exact .throw _ (arity_ne_stack _ _ _)
  · split
    · exact .throw _ (notSupported_ne_stack _)
    · exact .throw _ (mismatch_ne_stack _ _)

theorem buildNoInputs (d : Nat) :
    Deeper (ArtifactNames.buildNoInputs (frames.withLimit L) d)
      (ArtifactNames.buildNoInputs (frames.withLimit L') d) := by
  unfold ArtifactNames.buildNoInputs
  exact .bind (.reach frames _ le) fun _ => .bind (.reach frames _ le) fun _ =>
    .bind (collection frames le _ _ _) fun _ => .bind (.reach frames _ le) fun _ => .pure _

theorem builders :
    (∀ d cs, Deeper (buildName (frames.withLimit L) d cs) (buildName (frames.withLimit L') d cs)) ∧
    (∀ d cs, Deeper (buildSubstitution (frames.withLimit L) d cs)
      (buildSubstitution (frames.withLimit L') d cs)) ∧
    (∀ d cs, Deeper (buildInputs (frames.withLimit L) d cs) (buildInputs (frames.withLimit L') d cs)) ∧
    (∀ d cs, Deeper (buildInputItems (frames.withLimit L) d cs)
      (buildInputItems (frames.withLimit L') d cs)) ∧
    (∀ d cs, Deeper (buildInput (frames.withLimit L) d cs) (buildInput (frames.withLimit L') d cs)) ∧
    (∀ d cs, Deeper (buildOutputRef (frames.withLimit L) d cs)
      (buildOutputRef (frames.withLimit L') d cs)) ∧
    (∀ d tag cs, Deeper (buildRef (frames.withLimit L) d tag cs)
      (buildRef (frames.withLimit L') d tag cs)) ∧
    (∀ d cs, Deeper (buildDeclarations (frames.withLimit L) d cs)
      (buildDeclarations (frames.withLimit L') d cs)) ∧
    (∀ d cs, Deeper (buildDeclarationItems (frames.withLimit L) d cs)
      (buildDeclarationItems (frames.withLimit L') d cs)) ∧
    (∀ d cs, Deeper (buildDeclaration (frames.withLimit L) d cs)
      (buildDeclaration (frames.withLimit L') d cs)) := by
  apply buildName.mutual_induct
  -- a name: its declarations, then its substitution
  · intro d cs ih
    unfold ArtifactNames.buildName
    refine .bind (.reach frames _ le) fun _ => .bind (.reach frames _ le) fun _ => ?_
    split
    · split
      · obtain ⟨decls, sub⟩ := ih
        exact .bind decls fun _ => .bind sub fun _ => .pure _
      · exact .throw _ (mismatch_ne_stack _ _)
      · exact .throw _ (mismatch_ne_stack _ _)
    · exact .throw _ (arity_ne_stack _ _ _)
  -- a substitution: a reference, then its inputs when it has them
  · intro d parts ih
    unfold ArtifactNames.buildSubstitution
    refine .bind (.reach frames _ le) fun _ => .bind (.reach frames _ le) fun _ => ?_
    split
    · split
      · exact .bind ih fun _ => .bind (buildNoInputs frames le _) fun _ => .pure _
      · exact .throw _ (mismatch_ne_stack _ _)
    · split
      · exact .bind ih fun _ => .bind (buildNoInputs frames le _) fun _ => .pure _
      · obtain ⟨ref, inputs⟩ := ih
        exact .bind ref fun _ => .bind inputs fun _ => .pure _
      · exact .throw _ (mismatch_ne_stack _ _)
      · exact .throw _ (mismatch_ne_stack _ _)
    · exact .throw _ (mismatch_ne_stack _ _)
  -- the inputs of a `multiary` tree
  · intro d cs ih
    unfold ArtifactNames.buildInputs
    refine .bind (.reach frames _ le) fun _ => .bind (.reach frames _ le) fun _ => ?_
    split
    · split
      · exact .bind (.reach frames _ le) fun _ => .bind (collection frames le _ _ _) fun _ =>
          .bind (.reach frames _ le) fun _ => .pure _
      · exact .bind (.reach frames _ le) fun _ => .bind (collection frames le _ _ _) fun _ =>
          .bind ih fun _ => .bind (.reach frames _ le) fun _ => .pure _
      · exact .throw _ (notSupported_ne_stack _)
      · exact .throw _ (notSupported_ne_stack _)
      all_goals exact .throw _ (mismatch_ne_stack _ _)
    · exact .throw _ (arity_ne_stack _ _ _)
  -- the items of a `spec_list` tree
  · intro d
    unfold ArtifactNames.buildInputItems
    exact .pure _
  · intro d item rest ih
    unfold ArtifactNames.buildInputItems
    refine .bind (.reach frames _ le) fun _ => ?_
    split
    · obtain ⟨spec, tail⟩ := ih
      exact .bind spec fun _ => .bind (.reach frames _ le) fun _ => .bind tail fun _ => .pure _
    · exact .throw _ (mismatch_ne_stack _ _)
  -- a spec: its optional input id, then its output reference
  · intro d cs ih
    unfold ArtifactNames.buildInput
    refine .bind (.reach frames _ le) fun _ => .bind (.reach frames _ le) fun _ => ?_
    split
    · refine optional_bind fun _ => ?_
      split
      · dsimp only
        split
        · exact .bind (map _ (identifier frames le _ _)) fun _ => .bind ih fun _ => .pure _
        · exact .bind (.pure _) fun _ => .bind ih fun _ => .pure _
      · exact .throw _ (mismatch_ne_stack _ _)
    · exact .throw _ (arity_ne_stack _ _ _)
  -- an output reference: its substitution in a node, then its optional output id
  · intro d cs ih
    unfold ArtifactNames.buildOutputRef
    refine .bind (.reach frames _ le) fun _ => .bind (.reach frames _ le) fun _ => ?_
    split
    · split
      · refine optional_bind fun _ => .bind ih fun _ => .bind (node frames le _ _) fun _ => ?_
        dsimp only
        split
        · exact .bind (map _ (identifier frames le _ _)) fun _ => .pure _
        · exact .bind (.pure _) fun _ => .pure _
      · exact .throw _ (mismatch_ne_stack _ _)
    · exact .throw _ (arity_ne_stack _ _ _)
  -- a reference, by its tag
  · intro d tag cs ih
    unfold ArtifactNames.buildRef
    refine .bind (.reach frames _ le) fun _ => .bind (.reach frames _ le) fun _ => ?_
    split
    · refine .bind (.reach frames _ le) fun _ => ?_
      split
      · split
        · exact .bind (buildParameterizedId frames le _ _) fun _ => .pure _
        · exact .bind (buildNamespace frames le _ _ _) fun _ =>
            .bind (buildParameterizedId frames le _ _) fun _ => .pure _
        all_goals exact .throw _ (mismatch_ne_stack _ _)
      · exact .throw _ (arity_ne_stack _ _ _)
    · split
      · split
        · exact payload_bind fun _ => .bind (identifier frames le _ _) fun _ => .pure _
        · exact .throw _ (arity_ne_stack _ _ _)
      · split
        · refine .bind (.reach frames _ le) fun _ => ?_
          split
          · split
            · exact .bind ih fun _ => .bind (node frames le _ _) fun _ => .pure _
            · exact .throw _ (mismatch_ne_stack _ _)
          · exact .throw _ (arity_ne_stack _ _ _)
        · exact .throw _ (mismatch_ne_stack _ _)
  -- the declarations of a name: a reservation, then the items
  · intro d items ih
    unfold ArtifactNames.buildDeclarations
    exact .bind (.reach frames _ le) fun _ => .bind (.reach frames _ le) fun _ =>
      .bind (collection frames le _ _ _) fun _ => .bind ih fun _ => .bind (.reach frames _ le) fun _ =>
        .pure _
  · intro d
    unfold ArtifactNames.buildDeclarationItems
    exact .pure _
  · intro d item rest ih
    unfold ArtifactNames.buildDeclarationItems
    refine .bind (.reach frames _ le) fun _ => ?_
    split
    · obtain ⟨decl, tail⟩ := ih
      exact .bind decl fun _ => .bind (node frames le _ _) fun _ => .bind (.reach frames _ le) fun _ =>
        .bind tail fun _ => .pure _
    · exact .throw _ (mismatch_ne_stack _ _)
  -- a declaration: its binding, then its substitution
  · intro d cs ih
    unfold ArtifactNames.buildDeclaration
    refine .bind (.reach frames _ le) fun _ => .bind (.reach frames _ le) fun _ => ?_
    split
    · split
      · exact .bind (buildBinding frames le _ _ _) fun _ => .bind ih fun _ => .pure _
      · exact .throw _ (mismatch_ne_stack _ _)
      · exact .throw _ (mismatch_ne_stack _ _)
    · exact .throw _ (arity_ne_stack _ _ _)

theorem buildName (d : Nat) (cs : List Node) :
    Deeper (ArtifactNames.buildName (frames.withLimit L) d cs)
      (ArtifactNames.buildName (frames.withLimit L') d cs) :=
  (builders frames le).1 d cs

theorem buildRef (d : Nat) (tag : String) (cs : List Node) :
    Deeper (ArtifactNames.buildRef (frames.withLimit L) d tag cs)
      (ArtifactNames.buildRef (frames.withLimit L') d tag cs) :=
  (builders frames le).2.2.2.2.2.2.1 d tag cs

theorem buildInput (d : Nat) (cs : List Node) :
    Deeper (ArtifactNames.buildInput (frames.withLimit L) d cs)
      (ArtifactNames.buildInput (frames.withLimit L') d cs) :=
  (builders frames le).2.2.2.2.1 d cs

theorem buildDeclarationItems (d : Nat) (cs : List Node) :
    Deeper (ArtifactNames.buildDeclarationItems (frames.withLimit L) d cs)
      (ArtifactNames.buildDeclarationItems (frames.withLimit L') d cs) :=
  (builders frames le).2.2.2.2.2.2.2.2.1 d cs

theorem buildDeclaration (d : Nat) (cs : List Node) :
    Deeper (ArtifactNames.buildDeclaration (frames.withLimit L) d cs)
      (ArtifactNames.buildDeclaration (frames.withLimit L') d cs) :=
  (builders frames le).2.2.2.2.2.2.2.2.2 d cs

theorem buildRoot (root : Node) :
    Deeper (ArtifactNames.buildRoot (frames.withLimit L) root)
      (ArtifactNames.buildRoot (frames.withLimit L') root) := by
  unfold ArtifactNames.buildRoot
  split
  · exact (builders frames le).1 _ _
  · exact .throw _ (mismatch_ne_stack _ _)

end Walk.Deeper

/-! ## How much stack a walk needs -/

namespace Syntax

mutual

/-- How deeply spec values and nested names nest in a tree: the most `substitution_spec` and
`nested_ref` trees on a way down from it. -/
def Node.nesting : Node → Nat
  | .tree tag children =>
    (if tag = "substitution_spec" ∨ tag = "nested_ref" then 1 else 0) + Node.nestingOf children
  | _ => 0

def Node.nestingOf : List Node → Nat
  | [] => 0
  | n :: ns => max n.nesting (Node.nestingOf ns)

end

@[simp] theorem Node.nesting_spec (children : List Node) :
    (Node.tree "substitution_spec" children).nesting = Node.nestingOf children + 1 := by
  simp [Node.nesting, Nat.add_comm]

@[simp] theorem Node.nesting_nested (children : List Node) :
    (Node.tree "nested_ref" children).nesting = Node.nestingOf children + 1 := by
  simp [Node.nesting, Nat.add_comm]

@[simp] theorem Node.nesting_plain {tag : String} (children : List Node)
    (notSpec : tag ≠ "substitution_spec") (notNested : tag ≠ "nested_ref") :
    (Node.tree tag children).nesting = Node.nestingOf children := by
  simp [Node.nesting, notSpec, notNested]

@[simp] theorem Node.nesting_token (kind : String) (cs : List Nat) : (Node.token kind cs).nesting = 0 := by
  simp [Node.nesting]

@[simp] theorem Node.nesting_absent : Node.absent.nesting = 0 := by
  simp [Node.nesting]

@[simp] theorem Node.nestingOf_nil : Node.nestingOf [] = 0 := by
  simp [Node.nestingOf]

@[simp] theorem Node.nestingOf_cons (n : Node) (ns : List Node) :
    Node.nestingOf (n :: ns) = max n.nesting (Node.nestingOf ns) := by
  simp [Node.nestingOf]

theorem Node.nestingOf_le_nesting (tag : String) (children : List Node) :
    Node.nestingOf children ≤ (Node.tree tag children).nesting := by
  simp only [Node.nesting]
  omega

end Syntax

def Walk.Safe {α : Type} (w : Walk α) : Prop :=
  ∀ s, (w.run.run s).1 ≠ .error (.outOfMemory .stack)

namespace Walk.Safe

variable {α β : Type} {frames : Frames} {d : Nat}

theorem pure (a : α) : Safe (Pure.pure a : Walk α) := by
  intro s
  simp

theorem throw {e : ParseError} (h : e ≠ .outOfMemory .stack) : Safe (MonadExcept.throw e : Walk α) := by
  intro s
  rw [run_throw]
  simpa using h

theorem bind {x : Walk α} {f : α → Walk β} (hx : Safe x) (hf : ∀ a, Safe (f a)) : Safe (x >>= f) := by
  intro s
  rw [run_bind]
  have first := hx s
  rcases ran : x.run.run s with ⟨_ | a, s'⟩
  · rw [ran] at first
    simpa using first
  · exact hf a s'

theorem map {x : Walk α} (f : α → β) (h : Safe x) : Safe (f <$> x) := by
  rw [map_eq_pure_bind]
  exact h.bind fun a => pure (f a)

theorem orFail {x : Except ParseError α} (h : ∀ e, x = .error e → e ≠ .outOfMemory .stack) :
    Safe (Walk.orFail x) := by
  cases x with
  | ok a => exact pure a
  | error e => exact throw (h e rfl)

theorem reach (room : d ≤ frames.limit) : Safe (Walk.reach frames d) := by
  rw [reach_of_le room]
  exact pure ()

theorem collection (kind : CollectionKind) (count : Nat)
    (room : d + 5 + frames.requestDepth ≤ frames.limit) : Safe (Walk.collection frames d kind count) := by
  have deep : policyDepth frames d ≤ d + 2 := Meets.policyDepth_le
  intro s
  simp (disch := omega) only [run_collection, Meets.settles_of_room, decide_eq_true, Bool.and_true,
    Bool.true_and, Bool.or_true, ↓reduceIte]
  simp only [callRun, ↓reduceIte]
  split <;> (try split) <;> simp [FactoryCall.shortage]

theorem node (kind : NodeKind) (room : d + 5 + frames.requestDepth ≤ frames.limit) :
    Safe (Walk.node frames d kind) := by
  have deep : policyDepth frames d ≤ d + 2 := Meets.policyDepth_le
  intro s
  simp (disch := omega) only [run_node, Meets.settles_of_room, decide_eq_true, Bool.and_true, if_pos]
  simp only [callRun, ↓reduceIte]
  split <;> simp [FactoryCall.shortage]

theorem copy (kind : TextKind) (text : String) (room : d + 2 ≤ frames.limit) :
    Safe (Walk.copy frames d kind text) := by
  intro s
  simp (disch := omega) only [run_copy, Meets.settles_of_room, decide_eq_true, ↓reduceIte]
  simp [callRun]

theorem identifier (payload : Node) (room : d + 2 ≤ frames.limit) :
    Safe (ArtifactNames.identifier frames d payload) := by
  unfold ArtifactNames.identifier
  exact (reach (by omega)).bind fun _ => (reach (by omega)).bind fun _ =>
    (orFail fun _ => payloadChars_ne_stack).bind fun _ => (copy _ _ (by omega)).bind fun _ =>
      (reach room).bind fun _ => pure _

theorem buildParameterItems (room : d + 3 ≤ frames.limit) (items : List Node) :
    Safe (ArtifactNames.buildParameterItems frames d items) :=
  -- as for a deeper stack: each step is a frame within `room`, a copy, a check or the other items
  (show ItemSteps frames frames d fun x _ => Safe x from
    { pure := pure
      bind := fun hx hf => bind hx hf
      reach := fun _ within => reach (by omega)
      copy := fun _ _ => copy _ _ (by omega)
      mismatch := fun _ _ => throw (mismatch_ne_stack _ _)
      arity := fun _ _ _ => throw (arity_ne_stack _ _ _)
      payload := fun _ => orFail fun _ => payloadOf_ne_stack
      chars := fun _ => orFail fun _ => payloadChars_ne_stack }).buildParameterItems items

theorem payload_bind {kind : String} {n : Node} {f : Node → Walk β} (h : ∀ p, Safe (f p)) :
    Safe (Walk.orFail (payloadOf kind n) >>= f) :=
  (orFail fun _ => payloadOf_ne_stack).bind h

theorem buildParameters (children : List Node) (room : d + 5 + frames.requestDepth ≤ frames.limit) :
    Safe (ArtifactNames.buildParameters frames d children) := by
  unfold ArtifactNames.buildParameters
  refine (reach (by omega)).bind fun _ => (reach (by omega)).bind fun _ => ?_
  split
  · split
    · exact (collection _ _ room).bind fun _ => (reach (by omega)).bind fun _ => pure _
    · exact (collection _ _ room).bind fun _ => (buildParameterItems (by omega) _).bind fun _ =>
        (reach (by omega)).bind fun _ => pure _
    · exact throw (mismatch_ne_stack _ _)
  · exact throw (arity_ne_stack _ _ _)

theorem buildNoParameters (room : d + 5 + frames.requestDepth ≤ frames.limit) :
    Safe (ArtifactNames.buildNoParameters frames d) := by
  unfold ArtifactNames.buildNoParameters
  exact (reach (by omega)).bind fun _ => (reach (by omega)).bind fun _ =>
    (collection _ _ room).bind fun _ => (reach (by omega)).bind fun _ => pure _

theorem buildParameterizedId (children : List Node)
    (room : d + 6 + frames.requestDepth ≤ frames.limit) :
    Safe (ArtifactNames.buildParameterizedId frames d children) := by
  unfold ArtifactNames.buildParameterizedId
  refine (reach (by omega)).bind fun _ => (reach (by omega)).bind fun _ => ?_
  split
  · split
    · exact payload_bind fun _ => (identifier _ (by omega)).bind fun _ =>
        (buildNoParameters (by omega)).bind fun _ => pure _
    · exact payload_bind fun _ => (identifier _ (by omega)).bind fun _ =>
        (buildParameters _ (by omega)).bind fun _ => pure _
    · exact throw (mismatch_ne_stack _ _)
  · exact throw (arity_ne_stack _ _ _)

theorem buildNoInputs (room : d + 5 + frames.requestDepth ≤ frames.limit) :
    Safe (ArtifactNames.buildNoInputs frames d) := by
  unfold ArtifactNames.buildNoInputs
  exact (reach (by omega)).bind fun _ => (reach (by omega)).bind fun _ =>
    (collection _ _ room).bind fun _ => (reach (by omega)).bind fun _ => pure _

theorem buildBinding (tag : String) (children : List Node) (room : d + 3 ≤ frames.limit) :
    Safe (ArtifactNames.buildBinding frames d tag children) := by
  unfold ArtifactNames.buildBinding
  refine (reach (by omega)).bind fun _ => (reach (by omega)).bind fun _ => ?_
  split
  · exact pure _
  · split
    · refine (reach room).bind fun _ => ?_
      split
      · exact payload_bind fun _ => map _ (identifier _ (by omega))
      · exact throw (arity_ne_stack _ _ _)
    · exact throw (mismatch_ne_stack _ _)

theorem buildNamespace (tag : String) (children : List Node)
    (room : d + 7 + frames.requestDepth ≤ frames.limit) :
    Safe (ArtifactNames.buildNamespace frames d tag children) := by
  unfold ArtifactNames.buildNamespace
  refine (reach (by omega)).bind fun _ => (reach (by omega)).bind fun _ => ?_
  split
  · refine (reach (by omega)).bind fun _ => ?_
    split
    · split
      · exact map _ (buildParameterizedId _ (by omega))
      · exact throw (mismatch_ne_stack _ _)
    · exact throw (arity_ne_stack _ _ _)
  · split
    · exact throw (notSupported_ne_stack _)
    · exact throw (mismatch_ne_stack _ _)

theorem buildRef {tag : String} {cs : List Node}
    (name : ∀ nch, cs = [.tree "name" nch] →
      d + 1 + 5 * Node.nestingOf nch + 12 + frames.requestDepth ≤ frames.limit →
        Safe (buildName frames (d + 1) nch))
    (room : d + 5 * (Node.tree tag cs).nesting + 8 + frames.requestDepth ≤ frames.limit) :
    Safe (ArtifactNames.buildRef frames d tag cs) := by
  have plain : d + 5 * Node.nestingOf cs + 8 + frames.requestDepth ≤ frames.limit := by
    have := Node.nestingOf_le_nesting tag cs
    omega
  unfold ArtifactNames.buildRef
  refine (reach (by omega)).bind fun _ => (reach (by omega)).bind fun _ => ?_
  split
  · -- an atomic reference: its namespace and its id
    refine (reach (by omega)).bind fun _ => ?_
    split
    · split
      · exact (buildParameterizedId _ (by omega)).bind fun _ => pure _
      · exact (buildNamespace _ _ (by omega)).bind fun _ =>
          (buildParameterizedId _ (by omega)).bind fun _ => pure _
      all_goals exact throw (mismatch_ne_stack _ _)
    · exact throw (arity_ne_stack _ _ _)
  · split
    · -- a variable or a resolved variable: one identifier
      split
      · exact payload_bind fun _ => (identifier _ (by omega)).bind fun _ => pure _
      · exact throw (arity_ne_stack _ _ _)
    · split
      · -- a nested name, one level of nesting deeper
        rename_i nested
        rw [beq_iff_eq.mp nested, Node.nesting_nested] at room
        refine (reach (by omega)).bind fun _ => ?_
        split
        · split
          · rename_i nch
            simp (disch := decide) only [Node.nestingOf_cons, Node.nestingOf_nil,
              Node.nesting_plain] at room
            exact (name nch rfl (by omega)).bind fun _ => (node _ (by omega)).bind fun _ => pure _
          · exact throw (mismatch_ne_stack _ _)
        · exact throw (arity_ne_stack _ _ _)
      · exact throw (mismatch_ne_stack _ _)

theorem builders :
    (∀ d cs, d + 5 * Node.nestingOf cs + 12 + frames.requestDepth ≤ frames.limit →
      Safe (buildName frames d cs)) ∧
    (∀ d cs, d + 5 * Node.nestingOf cs + 9 + frames.requestDepth ≤ frames.limit →
      Safe (buildSubstitution frames d cs)) ∧
    (∀ d cs, d + 5 * Node.nestingOf cs + 8 + frames.requestDepth ≤ frames.limit →
      Safe (buildInputs frames d cs)) ∧
    (∀ d cs, d + 5 * Node.nestingOf cs + 8 + frames.requestDepth ≤ frames.limit →
      Safe (buildInputItems frames d cs)) ∧
    (∀ d cs, d + 5 * Node.nestingOf cs + 11 + frames.requestDepth ≤ frames.limit →
      Safe (buildInput frames d cs)) ∧
    (∀ d cs, d + 5 * Node.nestingOf cs + 10 + frames.requestDepth ≤ frames.limit →
      Safe (buildOutputRef frames d cs)) ∧
    (∀ d tag cs, d + 5 * (Node.tree tag cs).nesting + 8 + frames.requestDepth ≤ frames.limit →
      Safe (ArtifactNames.buildRef frames d tag cs)) ∧
    (∀ d cs, d + 5 * Node.nestingOf cs + 11 + frames.requestDepth ≤ frames.limit →
      Safe (buildDeclarations frames d cs)) ∧
    (∀ d cs, d + 5 * Node.nestingOf cs + 11 + frames.requestDepth ≤ frames.limit →
      Safe (buildDeclarationItems frames d cs)) ∧
    (∀ d cs, d + 5 * Node.nestingOf cs + 10 + frames.requestDepth ≤ frames.limit →
      Safe (buildDeclaration frames d cs)) := by
  apply buildName.mutual_induct
  -- a name: its declarations, then its substitution
  · intro d cs ih room
    unfold ArtifactNames.buildName
    refine (reach (by omega)).bind fun _ => (reach (by omega)).bind fun _ => ?_
    split
    · split
      · obtain ⟨decls, sub⟩ := ih
        simp (disch := decide) only [Node.nestingOf_cons, Node.nesting_plain, Node.nestingOf_nil] at room
        exact (decls (by omega)).bind fun _ => (sub (by omega)).bind fun _ => pure _
      · exact throw (mismatch_ne_stack _ _)
      · exact throw (mismatch_ne_stack _ _)
    · exact throw (arity_ne_stack _ _ _)
  -- a substitution: a reference, then its inputs when it has them
  · intro d parts ih room
    unfold ArtifactNames.buildSubstitution
    refine (reach (by omega)).bind fun _ => (reach (by omega)).bind fun _ => ?_
    split
    · split
      · simp only [Node.nestingOf_cons, Node.nestingOf_nil] at room
        exact (ih (by omega)).bind fun _ => (buildNoInputs (by omega)).bind fun _ => pure _
      · exact throw (mismatch_ne_stack _ _)
    · split
      · simp only [Node.nestingOf_cons, Node.nestingOf_nil] at room
        exact (ih (by omega)).bind fun _ => (buildNoInputs (by omega)).bind fun _ => pure _
      · obtain ⟨ref, inputs⟩ := ih
        simp (disch := decide) only [Node.nestingOf_cons, Node.nesting_plain, Node.nestingOf_nil] at room
        exact (ref (by omega)).bind fun _ => (inputs (by omega)).bind fun _ => pure _
      · exact throw (mismatch_ne_stack _ _)
      · exact throw (mismatch_ne_stack _ _)
    · exact throw (mismatch_ne_stack _ _)
  -- the inputs of a `multiary` tree
  · intro d cs ih room
    unfold ArtifactNames.buildInputs
    refine (reach (by omega)).bind fun _ => (reach (by omega)).bind fun _ => ?_
    split
    · split
      · exact (reach (by omega)).bind fun _ => (collection _ _ (by omega)).bind fun _ =>
          (reach (by omega)).bind fun _ => pure _
      · simp (disch := decide) only [Node.nestingOf_cons, Node.nesting_plain, Node.nesting_absent,
          Node.nestingOf_nil] at room
        exact (reach (by omega)).bind fun _ => (collection _ _ (by omega)).bind fun _ =>
          (ih (by omega)).bind fun _ => (reach (by omega)).bind fun _ => pure _
      · exact throw (notSupported_ne_stack _)
      · exact throw (notSupported_ne_stack _)
      all_goals exact throw (mismatch_ne_stack _ _)
    · exact throw (arity_ne_stack _ _ _)
  -- the items of a `spec_list` tree, each a level of nesting
  · intro d _
    unfold ArtifactNames.buildInputItems
    exact pure _
  · intro d item rest ih room
    unfold ArtifactNames.buildInputItems
    refine (reach (by omega)).bind fun _ => ?_
    split
    · obtain ⟨spec, tail⟩ := ih
      simp only [Node.nestingOf_cons, Node.nesting_spec] at room
      exact (spec (by omega)).bind fun _ => (reach (by omega)).bind fun _ =>
        (tail (by omega)).bind fun _ => pure _
    · exact throw (mismatch_ne_stack _ _)
  -- a spec: its optional input id, then its output reference
  · intro d cs ih room
    unfold ArtifactNames.buildInput
    refine (reach (by omega)).bind fun _ => (reach (by omega)).bind fun _ => ?_
    split
    · refine (orFail fun _ => optionalPayloadOf_ne_stack).bind fun _ => ?_
      split
      · simp (disch := decide) only [Node.nestingOf_cons, Node.nesting_plain, Node.nestingOf_nil] at room
        dsimp only
        split
        · exact (map _ (identifier _ (by omega))).bind fun _ => (ih (by omega)).bind fun _ => pure _
        · exact (pure _).bind fun _ => (ih (by omega)).bind fun _ => pure _
      · exact throw (mismatch_ne_stack _ _)
    · exact throw (arity_ne_stack _ _ _)
  -- an output reference: its substitution in a node, then its optional output id
  · intro d cs ih room
    unfold ArtifactNames.buildOutputRef
    refine (reach (by omega)).bind fun _ => (reach (by omega)).bind fun _ => ?_
    split
    · split
      · simp (disch := decide) only [Node.nestingOf_cons, Node.nesting_plain, Node.nestingOf_nil] at room
        refine (orFail fun _ => optionalPayloadOf_ne_stack).bind fun _ => (ih (by omega)).bind fun _ =>
          (node _ (by omega)).bind fun _ => ?_
        dsimp only
        split
        · exact (map _ (identifier _ (by omega))).bind fun _ => pure _
        · exact (pure _).bind fun _ => pure _
      · exact throw (mismatch_ne_stack _ _)
    · exact throw (arity_ne_stack _ _ _)
  -- a reference, by its own lemma, with the induction for the nested name
  · intro d tag cs ih room
    refine buildRef (fun nch same => ?_) room
    subst same
    exact ih
  -- the declarations of a name: a reservation, then the items
  · intro d items ih room
    unfold ArtifactNames.buildDeclarations
    exact (reach (by omega)).bind fun _ => (reach (by omega)).bind fun _ =>
      (collection _ _ (by omega)).bind fun _ => (ih room).bind fun _ => (reach (by omega)).bind fun _ =>
        pure _
  · intro d _
    unfold ArtifactNames.buildDeclarationItems
    exact pure _
  · intro d item rest ih room
    unfold ArtifactNames.buildDeclarationItems
    refine (reach (by omega)).bind fun _ => ?_
    split
    · obtain ⟨decl, tail⟩ := ih
      simp (disch := decide) only [Node.nestingOf_cons, Node.nesting_plain] at room
      exact (decl (by omega)).bind fun _ => (node _ (by omega)).bind fun _ =>
        (reach (by omega)).bind fun _ => (tail (by omega)).bind fun _ => pure _
    · exact throw (mismatch_ne_stack _ _)
  -- a declaration: its binding, then its substitution
  · intro d cs ih room
    unfold ArtifactNames.buildDeclaration
    refine (reach (by omega)).bind fun _ => (reach (by omega)).bind fun _ => ?_
    split
    · split
      · simp (disch := decide) only [Node.nestingOf_cons, Node.nesting_plain, Node.nestingOf_nil] at room
        exact (buildBinding _ _ (by omega)).bind fun _ => (ih (by omega)).bind fun _ => pure _
      · exact throw (mismatch_ne_stack _ _)
      · exact throw (mismatch_ne_stack _ _)
    · exact throw (arity_ne_stack _ _ _)

theorem buildRoot (root : Node)
    (room : frames.entry + 5 * root.nesting + 13 + frames.requestDepth ≤ frames.limit) :
    Safe (ArtifactNames.buildRoot frames root) := by
  unfold ArtifactNames.buildRoot
  split
  · simp (disch := decide) only [Node.nesting_plain] at room
    exact (@builders frames).1 _ _ (by omega)
  · exact throw (mismatch_ne_stack _ _)

end Walk.Safe

theorem buildRoot_peak (frames : Frames) (root : Node) (s : WalkState) :
    ∃ peak, ∀ L,
      (((buildRoot (frames.withLimit L) root).run.run s).1 = .error (.outOfMemory .stack) ↔ L < peak) ∧
      (peak ≤ L →
        (buildRoot (frames.withLimit L) root).run.run s = (buildRoot (frames.withLimit peak) root).run.run s) := by
  -- on a stack with room for the tree's nesting, the walk never runs out
  have enough : ∃ L, ((buildRoot (frames.withLimit L) root).run.run s).1 ≠ .error (.outOfMemory .stack) :=
    ⟨frames.entry + 5 * root.nesting + 13 + frames.requestDepth, Walk.Safe.buildRoot root le_rfl s⟩
  classical
  refine ⟨Nat.find enough, fun L => ?_⟩
  have atPeak := Nat.find_spec enough
  -- from the least depth that does not run out on, a deeper stack changes nothing
  have same : Nat.find enough ≤ L →
      (buildRoot (frames.withLimit L) root).run.run s =
        (buildRoot (frames.withLimit (Nat.find enough)) root).run.run s := by
    intro deeper
    rcases (Walk.Deeper.buildRoot frames deeper root).run s with short | same
    · exact absurd short atPeak
    · exact same.symm
  refine ⟨⟨fun short => ?_, fun shallow => ?_⟩, same⟩
  · by_contra deep
    rw [same (Nat.not_lt.mp deep)] at short
    exact atPeak short
  · by_contra fits
    exact Nat.find_min enough shallow fits

/-! ## Reading on a bounded stack -/

theorem parseWith_peak (compiler : Compiler) (frames : Frames) (allocator : Allocator)
    (source : Source) : ∃ peak, ∀ L,
      ((parseWith compiler (frames.withLimit L) allocator source).outcome =
        .error (.outOfMemory .stack) ↔ L < peak) ∧
      (peak ≤ L → parseWith compiler (frames.withLimit L) allocator source =
        parseWith compiler (frames.withLimit peak) allocator source) := by
  cases toBuf : source.toBuffer with
  | error fault => exact ⟨0, fun L => by simp [parseWith, toBuf]⟩
  | ok buffer =>
    cases compiled : compiler buffer with
    | none => exact ⟨0, fun L => by simp [parseWith, toBuf, compiled]⟩
    | some result =>
      cases result with
      | rejected span => exact ⟨0, fun L => by simp [parseWith, toBuf, compiled]⟩
      | tree root =>
        obtain ⟨peak, reaches⟩ := buildRoot_peak frames root ⟨allocator, #[]⟩
        refine ⟨peak, fun L => ⟨?_, fun deeper => ?_⟩⟩
        · rw [parseWith_of_tree toBuf compiled]
          exact (reaches L).1
        · rw [parseWith_of_tree toBuf compiled, parseWith_of_tree toBuf compiled,
            (reaches L).2 deeper]

end ArtifactNames
