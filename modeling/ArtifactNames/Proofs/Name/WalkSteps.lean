import ArtifactNames.Name.Build

/-! The walk is made of its steps: `Walk.Built` holds the walk's steps and own failures and is closed
under `pure` and `bind`, and every builder is in it (`Walk.Built.builders`). -/

namespace ArtifactNames

open Syntax Text Storage Walk

/-- The failures a walk over a tree can end in: every failure but the two that come before there
is a tree, an input that cannot be handed over and a rejected text. -/
def ParseError.OfWalk : ParseError → Prop
  | .invalidInput _ => False
  | .rejected _ => False
  | _ => True

theorem ofWalk_mismatch (expected : String) (node : Node) : (mismatch expected node).OfWalk :=
  trivial

theorem ofWalk_arity (tag : String) (count expected : Nat) : (arity tag count expected).OfWalk :=
  trivial

theorem ofWalk_notSupported (c : Construct) : (ParseError.notSupported c).OfWalk := trivial

theorem payloadOf_error {kind : String} {node : Node} {e : ParseError}
    (h : payloadOf kind node = .error e) : e = mismatch kind node := by
  unfold payloadOf at h
  split at h <;> (try split at h) <;> cases h <;> rfl

theorem optionalPayloadOf_error {kind : String} {node : Node} {e : ParseError}
    (h : optionalPayloadOf kind node = .error e) : e = mismatch kind node := by
  unfold optionalPayloadOf at h
  split at h
  · cases h
  · cases read : payloadOf kind node with
    | ok p => simp [read, Except.map] at h
    | error e' =>
      simp only [read, Except.map, Except.error.injEq] at h
      exact h ▸ payloadOf_error read

theorem payloadOf_ofWalk {kind : String} {node : Node} {e : ParseError}
    (h : payloadOf kind node = .error e) : e.OfWalk :=
  payloadOf_error h ▸ ofWalk_mismatch _ _

theorem optionalPayloadOf_ofWalk {kind : String} {node : Node} {e : ParseError}
    (h : optionalPayloadOf kind node = .error e) : e.OfWalk :=
  optionalPayloadOf_error h ▸ ofWalk_mismatch _ _

theorem payloadChars_ofWalk {node : Node} {e : ParseError} (h : payloadChars node = .error e) :
    e.OfWalk := by
  unfold payloadChars at h
  dsimp only at h
  repeat' split at h
  all_goals cases h
  all_goals trivial

namespace FactoryCall

def asks : FactoryCall → Bool
  | .collection _ count => 0 < count
  | .node _ => true
  | .text _ _ => false

def shortage : FactoryCall → AllocationKind
  | .collection _ _ => .collection
  | _ => .node

end FactoryCall

namespace Walk

variable {α β : Type}

/-! ## Running the steps -/

theorem run_bind (x : Walk α) (f : α → Walk β) (s : WalkState) :
    (x >>= f).run.run s = match x.run.run s with
      | (.ok a, s') => (f a).run.run s'
      | (.error e, s') => (.error e, s') := by
  simp only [ExceptT.run_bind, StateT.run_bind]
  rcases x.run.run s with ⟨_ | _, _⟩ <;> rfl

@[simp] theorem run_pure (a : α) (s : WalkState) : (Pure.pure a : Walk α).run.run s = (.ok a, s) :=
  rfl

@[simp] theorem run_throw (e : ParseError) (s : WalkState) :
    (MonadExcept.throw e : Walk α).run.run s = (.error e, s) := rfl

@[simp] theorem run_reach (frames : Frames) (d : Nat) (s : WalkState) :
    (reach frames d).run.run s =
      (if d ≤ frames.limit then .ok () else .error (.outOfMemory .stack), s) := by
  unfold reach
  split <;> rfl

@[simp] theorem run_record (c : FactoryCall) (s : WalkState) :
    (record c).run.run s = (.ok (), { s with trace := s.trace.push c }) := rfl

@[simp] theorem run_request (s : WalkState) :
    request.run.run s = (.ok !s.allocator.refuses, { s with allocator := s.allocator.request.2 }) :=
  rfl

/-! ## What one storage call does -/

def policyDepth (frames : Frames) (d : Nat) : Nat := if frames.recorded then d + 2 else d + 1

def settles (frames : Frames) (d : Nat) : Bool := !frames.recorded || decide (d + 2 ≤ frames.limit)

/-- What one storage call `c` does from `s`: when its first frame does not fit it fails at once;
otherwise it records the call, and then either ends in `done` without asking, or asks the allocator
once, failing for want of what `c` asked for when refused and ending in `after` when granted. -/
def callRun (c : FactoryCall) (enters asks : Bool) (done after : Except ParseError Unit)
    (s : WalkState) : Except ParseError Unit × WalkState :=
  if enters then
    if asks then
      (if s.allocator.refuses then .error (.outOfMemory c.shortage) else after,
        ⟨s.allocator.request.2, s.trace.push c⟩)
    else (done, ⟨s.allocator, s.trace.push c⟩)
  else (.error (.outOfMemory .stack), s)

theorem run_enterPolicy (frames : Frames) (d : Nat) (c : FactoryCall) (s : WalkState) :
    (enterPolicy frames d c).run.run s =
      if d + 1 ≤ frames.limit then
        (if settles frames d then .ok (policyDepth frames d) else .error (.outOfMemory .stack),
          ⟨s.allocator, s.trace.push c⟩)
      else (.error (.outOfMemory .stack), s) := by
  unfold enterPolicy settles policyDepth
  by_cases recorded : frames.recorded <;> by_cases enters : d + 1 ≤ frames.limit <;>
    by_cases settled : d + 2 ≤ frames.limit <;>
    simp only [recorded, enters, settled, run_bind, run_reach, run_record, run_pure, ↓reduceIte,
      Bool.false_eq_true, Bool.not_true, Bool.not_false, Bool.true_or, Bool.false_or, decide_true,
      decide_false]

-- Each storage call is one `callRun`: which frames fit decides how far it gets, and nothing else
-- about the state but the allocator's answer matters.

theorem run_collection (frames : Frames) (d : Nat) (kind : CollectionKind) (count : Nat)
    (s : WalkState) :
    (collection frames d kind count).run.run s =
      let p := policyDepth frames d
      let settled := settles frames d && decide (p + 3 ≤ frames.limit)
      let fits := decide (p + 2 + frames.requestDepth ≤ frames.limit)
      callRun (.collection kind count) (decide (d + 1 ≤ frames.limit))
        (settled && decide (0 < count) && fits)
        (if settled && (decide (count = 0) || fits) then .ok () else .error (.outOfMemory .stack))
        (.ok ()) s := by
  unfold collection
  simp only [run_bind, run_enterPolicy]
  by_cases enters : d + 1 ≤ frames.limit <;> by_cases settled : settles frames d <;>
    by_cases room : policyDepth frames d + 3 ≤ frames.limit <;> rcases count with _ | count <;>
    by_cases fits : policyDepth frames d + 2 + frames.requestDepth ≤ frames.limit <;>
    simp only [callRun, enters, settled, room, fits, run_bind, run_reach, run_request, run_pure,
      ↓reduceIte, decide_true, decide_false, Bool.and_true, Bool.and_false, Bool.true_and,
      Bool.false_and, Nat.lt_irrefl, Nat.zero_lt_succ] <;>
    cases s.allocator.refuses <;> simp [FactoryCall.shortage] <;> rfl

theorem run_node (frames : Frames) (d : Nat) (kind : NodeKind) (s : WalkState) :
    (node frames d kind).run.run s =
      let p := policyDepth frames d
      callRun (.node kind) (decide (d + 1 ≤ frames.limit))
        (settles frames d && decide (p + 1 + frames.requestDepth ≤ frames.limit))
        (.error (.outOfMemory .stack))
        (if p + 3 ≤ frames.limit then .ok () else .error (.outOfMemory .stack)) s := by
  unfold node
  simp only [run_bind, run_enterPolicy]
  by_cases enters : d + 1 ≤ frames.limit <;> by_cases settled : settles frames d <;>
    by_cases fits : policyDepth frames d + 1 + frames.requestDepth ≤ frames.limit <;>
    by_cases room : policyDepth frames d + 3 ≤ frames.limit <;>
    simp only [callRun, enters, settled, room, fits, run_reach, run_request, ↓reduceIte,
      decide_true, decide_false, Bool.and_true, Bool.and_false] <;>
    cases s.allocator.refuses <;> simp [FactoryCall.shortage, room] <;> rfl

theorem run_copy (frames : Frames) (d : Nat) (kind : TextKind) (text : String) (s : WalkState) :
    (copy frames d kind text).run.run s =
      callRun (.text kind text) (decide (d + 1 ≤ frames.limit)) false
        (if settles frames d then .ok () else .error (.outOfMemory .stack)) (.ok ()) s := by
  unfold copy
  simp only [run_bind, run_enterPolicy]
  by_cases enters : d + 1 ≤ frames.limit <;> by_cases settled : settles frames d <;>
    simp only [callRun, enters, settled, run_pure, ↓reduceIte, decide_true, decide_false] <;> rfl

end Walk

/-- A relation between walks on two call stacks that holds of each step the walk takes for a
parameter item, each related to itself, and that `bind` keeps. -/
structure Walk.ItemSteps (frames frames' : Frames) (d : Nat)
    (R : {α : Type} → Walk α → Walk α → Prop) : Prop where
  pure : ∀ {α : Type} (a : α), R (Pure.pure a) (Pure.pure a)
  bind : ∀ {α β : Type} {x x' : Walk α} {f f' : α → Walk β}, R x x' → (∀ a, R (f a) (f' a)) →
    R (x >>= f) (x' >>= f')
  reach : ∀ k ≤ d + 3, R (reach frames k) (reach frames' k)
  copy : ∀ kind text, R (copy frames d kind text) (copy frames' d kind text)
  mismatch : ∀ {α : Type} expected node,
    R (MonadExcept.throw (mismatch expected node) : Walk α) (MonadExcept.throw (mismatch expected node))
  arity : ∀ {α : Type} tag count expected,
    R (MonadExcept.throw (arity tag count expected) : Walk α) (MonadExcept.throw (arity tag count expected))
  payload : ∀ node, R (Walk.orFail (payloadOf "IDENT" node)) (Walk.orFail (payloadOf "IDENT" node))
  chars : ∀ node, R (Walk.orFail (payloadChars node)) (Walk.orFail (payloadChars node))

/-- The walks over a parameter list on the two stacks are related: each item is a run of related
steps. -/
theorem Walk.ItemSteps.buildParameterItems {frames frames' : Frames} {d : Nat}
    {R : {α : Type} → Walk α → Walk α → Prop} (h : Walk.ItemSteps frames frames' d R) :
    ∀ items, R (ArtifactNames.buildParameterItems frames d items)
      (ArtifactNames.buildParameterItems frames' d items)
  | [] => h.pure []
  | item :: rest => by
    unfold ArtifactNames.buildParameterItems
    dsimp only
    -- the check of the value's kind copies the rest of the item into each of its branches, so the
    -- steps are taken apart one by one, each a frame, a copy, a check or the other items
    with_reducible repeat' first
      | exact h.pure _
      | (refine h.reach _ ?_; omega)
      | exact h.copy _ _
      | exact h.mismatch _ _
      | exact h.arity _ _ _
      | exact h.payload _
      | exact h.chars _
      | exact h.buildParameterItems rest
      | refine h.bind ?_ fun _ => ?_
      | split

/-- Walks made of the walk's steps and failures, by `pure` and `bind`. -/
inductive Walk.Built : {α : Type} → Walk α → Prop
  | pure {α : Type} (a : α) : Built (Pure.pure a : Walk α)
  | throw {α : Type} (e : ParseError) : e.OfWalk → Built (MonadExcept.throw e : Walk α)
  | bind {α β : Type} {x : Walk α} {f : α → Walk β} : Built x → (∀ a, Built (f a)) →
      Built (x >>= f)
  | reach (frames : Frames) (d : Nat) : Built (reach frames d)
  | collection (frames : Frames) (d : Nat) (kind : CollectionKind) (count : Nat) :
      Built (collection frames d kind count)
  | node (frames : Frames) (d : Nat) (kind : NodeKind) : Built (node frames d kind)
  | copy (frames : Frames) (d : Nat) (kind : TextKind) (text : String) :
      Built (copy frames d kind text)

namespace Walk.Built

theorem map {α β : Type} {x : Walk α} (f : α → β) (hx : Built x) : Built (f <$> x) := by
  rw [map_eq_pure_bind]
  exact hx.bind fun a => .pure (f a)

theorem orFail {α : Type} {x : Except ParseError α} (h : ∀ e, x = .error e → e.OfWalk) :
    Built (Walk.orFail x) := by
  cases x with
  | ok a => exact .pure a
  | error e => exact .throw e (h e rfl)

theorem buildParameterItems (frames : Frames) (d : Nat) (items : List Node) :
    Built (ArtifactNames.buildParameterItems frames d items) :=
  (show ItemSteps frames frames d fun x _ => Built x from
    { pure := .pure
      bind := fun hx hf => .bind hx hf
      reach := fun _ _ => .reach _ _
      copy := fun _ _ => .copy _ _ _ _
      mismatch := fun _ _ => .throw _ (ofWalk_mismatch _ _)
      arity := fun _ _ _ => .throw _ (ofWalk_arity _ _ _)
      payload := fun _ => .orFail fun _ => payloadOf_ofWalk
      chars := fun _ => .orFail fun _ => payloadChars_ofWalk }).buildParameterItems items

theorem identifier (frames : Frames) (d : Nat) (payload : Node) :
    Built (ArtifactNames.identifier frames d payload) := by
  unfold ArtifactNames.identifier
  exact .bind (.reach _ _) fun _ => .bind (.reach _ _) fun _ =>
    .bind (.orFail fun _ => payloadChars_ofWalk) fun _ => .bind (.copy _ _ _ _) fun _ =>
      .bind (.reach _ _) fun _ => .pure _

theorem payload_bind {β : Type} {kind : String} {n : Node} {f : Node → Walk β}
    (h : ∀ p, Built (f p)) : Built (Walk.orFail (payloadOf kind n) >>= f) :=
  .bind (.orFail fun _ => payloadOf_ofWalk) h

theorem optional_bind {β : Type} {kind : String} {n : Node} {f : Option Node → Walk β}
    (h : ∀ o, Built (f o)) : Built (Walk.orFail (optionalPayloadOf kind n) >>= f) :=
  .bind (.orFail fun _ => optionalPayloadOf_ofWalk) h

theorem buildBinding (frames : Frames) (d : Nat) (tag : String) (children : List Node) :
    Built (ArtifactNames.buildBinding frames d tag children) := by
  unfold ArtifactNames.buildBinding
  refine .bind (.reach _ _) fun _ => .bind (.reach _ _) fun _ => ?_
  split
  · exact .pure _
  · split
    · refine .bind (.reach _ _) fun _ => ?_
      split
      · exact payload_bind fun _ => .map _ (identifier _ _ _)
      · exact .throw _ (ofWalk_arity _ _ _)
    · exact .throw _ (ofWalk_mismatch _ _)

theorem buildNoParameters (frames : Frames) (d : Nat) :
    Built (ArtifactNames.buildNoParameters frames d) := by
  unfold ArtifactNames.buildNoParameters
  exact .bind (.reach _ _) fun _ => .bind (.reach _ _) fun _ => .bind (.collection _ _ _ _) fun _ =>
    .bind (.reach _ _) fun _ => .pure _

theorem buildParameters (frames : Frames) (d : Nat) (children : List Node) :
    Built (ArtifactNames.buildParameters frames d children) := by
  unfold ArtifactNames.buildParameters
  refine .bind (.reach _ _) fun _ => .bind (.reach _ _) fun _ => ?_
  split
  · split
    · exact .bind (.collection _ _ _ _) fun _ => .bind (.reach _ _) fun _ => .pure _
    · exact .bind (.collection _ _ _ _) fun _ => .bind (buildParameterItems _ _ _) fun _ =>
        .bind (.reach _ _) fun _ => .pure _
    · exact .throw _ (ofWalk_mismatch _ _)
  · exact .throw _ (ofWalk_arity _ _ _)

theorem buildParameterizedId (frames : Frames) (d : Nat) (children : List Node) :
    Built (ArtifactNames.buildParameterizedId frames d children) := by
  unfold ArtifactNames.buildParameterizedId
  refine .bind (.reach _ _) fun _ => .bind (.reach _ _) fun _ => ?_
  split
  · split
    · exact payload_bind fun _ => .bind (identifier _ _ _) fun _ =>
        .bind (buildNoParameters _ _) fun _ => .pure _
    · exact payload_bind fun _ => .bind (identifier _ _ _) fun _ =>
        .bind (buildParameters _ _ _) fun _ => .pure _
    · exact .throw _ (ofWalk_mismatch _ _)
  · exact .throw _ (ofWalk_arity _ _ _)

theorem buildNamespace (frames : Frames) (d : Nat) (tag : String) (children : List Node) :
    Built (ArtifactNames.buildNamespace frames d tag children) := by
  unfold ArtifactNames.buildNamespace
  refine .bind (.reach _ _) fun _ => .bind (.reach _ _) fun _ => ?_
  split
  · refine .bind (.reach _ _) fun _ => ?_
    split
    · split
      · exact .map _ (buildParameterizedId _ _ _)
      · exact .throw _ (ofWalk_mismatch _ _)
    · exact .throw _ (ofWalk_arity _ _ _)
  · split
    · exact .throw _ (ofWalk_notSupported _)
    · exact .throw _ (ofWalk_mismatch _ _)

theorem buildNoInputs (frames : Frames) (d : Nat) : Built (ArtifactNames.buildNoInputs frames d) := by
  unfold ArtifactNames.buildNoInputs
  exact .bind (.reach _ _) fun _ => .bind (.reach _ _) fun _ => .bind (.collection _ _ _ _) fun _ =>
    .bind (.reach _ _) fun _ => .pure _

theorem builders (frames : Frames) :
    (∀ d cs, Built (buildName frames d cs)) ∧
    (∀ d cs, Built (buildSubstitution frames d cs)) ∧
    (∀ d cs, Built (buildInputs frames d cs)) ∧
    (∀ d cs, Built (buildInputItems frames d cs)) ∧
    (∀ d cs, Built (buildInput frames d cs)) ∧
    (∀ d cs, Built (buildOutputRef frames d cs)) ∧
    (∀ d tag cs, Built (buildRef frames d tag cs)) ∧
    (∀ d cs, Built (buildDeclarations frames d cs)) ∧
    (∀ d cs, Built (buildDeclarationItems frames d cs)) ∧
    (∀ d cs, Built (buildDeclaration frames d cs)) := by
  apply buildName.mutual_induct
  -- a name: its declarations, then its substitution
  · intro d cs ih
    unfold ArtifactNames.buildName
    refine .bind (.reach _ _) fun _ => .bind (.reach _ _) fun _ => ?_
    split
    · split
      · obtain ⟨decls, sub⟩ := ih
        exact .bind decls fun _ => .bind sub fun _ => .pure _
      · exact .throw _ (ofWalk_mismatch _ _)
      · exact .throw _ (ofWalk_mismatch _ _)
    · exact .throw _ (ofWalk_arity _ _ _)
  -- a substitution: a reference, then its inputs when it has them
  · intro d parts ih
    unfold ArtifactNames.buildSubstitution
    refine .bind (.reach _ _) fun _ => .bind (.reach _ _) fun _ => ?_
    split
    · split
      · exact .bind ih fun _ => .bind (buildNoInputs _ _) fun _ => .pure _
      · exact .throw _ (ofWalk_mismatch _ _)
    · split
      · exact .bind ih fun _ => .bind (buildNoInputs _ _) fun _ => .pure _
      · obtain ⟨ref, inputs⟩ := ih
        exact .bind ref fun _ => .bind inputs fun _ => .pure _
      · exact .throw _ (ofWalk_mismatch _ _)
      · exact .throw _ (ofWalk_mismatch _ _)
    · exact .throw _ (ofWalk_mismatch _ _)
  -- the inputs of a `multiary` tree
  · intro d cs ih
    unfold ArtifactNames.buildInputs
    refine .bind (.reach _ _) fun _ => .bind (.reach _ _) fun _ => ?_
    split
    · split
      · exact .bind (.reach _ _) fun _ => .bind (.collection _ _ _ _) fun _ =>
          .bind (.reach _ _) fun _ => .pure _
      · exact .bind (.reach _ _) fun _ => .bind (.collection _ _ _ _) fun _ =>
          .bind ih fun _ => .bind (.reach _ _) fun _ => .pure _
      · exact .throw _ (ofWalk_notSupported _)
      · exact .throw _ (ofWalk_notSupported _)
      all_goals exact .throw _ (ofWalk_mismatch _ _)
    · exact .throw _ (ofWalk_arity _ _ _)
  -- the items of a `spec_list` tree
  · intro d
    unfold ArtifactNames.buildInputItems
    exact .pure _
  · intro d item rest ih
    unfold ArtifactNames.buildInputItems
    refine .bind (.reach _ _) fun _ => ?_
    split
    · obtain ⟨spec, tail⟩ := ih
      exact .bind spec fun _ => .bind (.reach _ _) fun _ => .bind tail fun _ => .pure _
    · exact .throw _ (ofWalk_mismatch _ _)
  -- a spec: its optional input id, then its output reference
  · intro d cs ih
    unfold ArtifactNames.buildInput
    refine .bind (.reach _ _) fun _ => .bind (.reach _ _) fun _ => ?_
    split
    · refine optional_bind fun _ => ?_
      split
      · dsimp only
        split
        · exact .bind (.map _ (identifier _ _ _)) fun _ => .bind ih fun _ => .pure _
        · exact .bind (.pure _) fun _ => .bind ih fun _ => .pure _
      · exact .throw _ (ofWalk_mismatch _ _)
    · exact .throw _ (ofWalk_arity _ _ _)
  -- an output reference: its substitution in a node, then its optional output id
  · intro d cs ih
    unfold ArtifactNames.buildOutputRef
    refine .bind (.reach _ _) fun _ => .bind (.reach _ _) fun _ => ?_
    split
    · split
      · refine optional_bind fun _ => .bind ih fun _ => .bind (.node _ _ _) fun _ => ?_
        dsimp only
        split
        · exact .bind (.map _ (identifier _ _ _)) fun _ => .pure _
        · exact .bind (.pure _) fun _ => .pure _
      · exact .throw _ (ofWalk_mismatch _ _)
    · exact .throw _ (ofWalk_arity _ _ _)
  -- a reference, by its tag
  · intro d tag cs ih
    unfold ArtifactNames.buildRef
    refine .bind (.reach _ _) fun _ => .bind (.reach _ _) fun _ => ?_
    split
    · refine .bind (.reach _ _) fun _ => ?_
      split
      · split
        · exact .bind (buildParameterizedId _ _ _) fun _ => .pure _
        · exact .bind (buildNamespace _ _ _ _) fun _ => .bind (buildParameterizedId _ _ _) fun _ =>
            .pure _
        all_goals exact .throw _ (ofWalk_mismatch _ _)
      · exact .throw _ (ofWalk_arity _ _ _)
    · split
      · split
        · exact payload_bind fun _ => .bind (identifier _ _ _) fun _ => .pure _
        · exact .throw _ (ofWalk_arity _ _ _)
      · split
        · refine .bind (.reach _ _) fun _ => ?_
          split
          · split
            · exact .bind ih fun _ => .bind (.node _ _ _) fun _ => .pure _
            · exact .throw _ (ofWalk_mismatch _ _)
          · exact .throw _ (ofWalk_arity _ _ _)
        · exact .throw _ (ofWalk_mismatch _ _)
  -- the declarations of a name: a reservation, then the items
  · intro d items ih
    unfold ArtifactNames.buildDeclarations
    exact .bind (.reach _ _) fun _ => .bind (.reach _ _) fun _ => .bind (.collection _ _ _ _) fun _ =>
      .bind ih fun _ => .bind (.reach _ _) fun _ => .pure _
  · intro d
    unfold ArtifactNames.buildDeclarationItems
    exact .pure _
  · intro d item rest ih
    unfold ArtifactNames.buildDeclarationItems
    refine .bind (.reach _ _) fun _ => ?_
    split
    · obtain ⟨decl, tail⟩ := ih
      exact .bind decl fun _ => .bind (.node _ _ _) fun _ => .bind (.reach _ _) fun _ =>
        .bind tail fun _ => .pure _
    · exact .throw _ (ofWalk_mismatch _ _)
  -- a declaration: its binding, then its substitution
  · intro d cs ih
    unfold ArtifactNames.buildDeclaration
    refine .bind (.reach _ _) fun _ => .bind (.reach _ _) fun _ => ?_
    split
    · split
      · exact .bind (buildBinding _ _ _ _) fun _ => .bind ih fun _ => .pure _
      · exact .throw _ (ofWalk_mismatch _ _)
      · exact .throw _ (ofWalk_mismatch _ _)
    · exact .throw _ (ofWalk_arity _ _ _)

theorem buildRoot (frames : Frames) (root : Node) : Built (ArtifactNames.buildRoot frames root) := by
  unfold ArtifactNames.buildRoot
  split
  · exact (builders frames).1 _ _
  · exact .throw _ (ofWalk_mismatch _ _)

end Walk.Built

end ArtifactNames
