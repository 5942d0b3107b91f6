import ArtifactNames.Proofs.Name.Stack

/-! The shapes the walk accepts (`TreeShape`): on them it never ends in a shape mismatch
(`TreeShape.fits`), and it gives a name only for them (`buildRoot_demands`). -/

namespace ArtifactNames

open Syntax Text Storage Walk

/-! ## The language -/

/-- A payload of a token type: such a token, or a bare text or bytes. -/
inductive Payload (kind : String) : Node → Prop
  | token (cs : List Nat) : Payload kind (.token kind cs)
  | text (cs : List Nat) : Payload kind (.text cs)
  | bytes (bs : List UInt8) : Payload kind (.bytes bs)

/-- An optional payload: absent, or a payload. -/
inductive OptionalPayload (kind : String) : Node → Prop
  | absent : OptionalPayload kind .absent
  | payload {n : Node} : Payload kind n → OptionalPayload kind n

/-- A parameter value: a word, number or string token, or a bare text or bytes. -/
inductive ValueShape : Node → Prop
  | token {kind : String} (cs : List Nat) : kind = "IDENT" ∨ kind = "NUMBER" ∨ kind = "STRING" →
      ValueShape (.token kind cs)
  | text (cs : List Nat) : ValueShape (.text cs)
  | bytes (bs : List UInt8) : ValueShape (.bytes bs)

/-- The items of a `param_list` tree: `param` trees, each of a key and a value. -/
inductive ParamsShape : List Node → Prop
  | nil : ParamsShape []
  | cons {key value : Node} {rest : List Node} : Payload "IDENT" key → ValueShape value →
      ParamsShape rest → ParamsShape (.tree "param" [key, value] :: rest)

/-- The children of a `params` tree: none, for `[]`, or a `param_list` tree. -/
inductive ParamListShape : List Node → Prop
  | empty : ParamListShape [.absent]
  | list {items : List Node} : ParamsShape items → ParamListShape [.tree "param_list" items]

/-- The children of a `parameterized_id` tree: an identifier, then no parameters or a `params`
tree. -/
inductive PidShape : List Node → Prop
  | plain {ident : Node} : Payload "IDENT" ident → PidShape [ident, .absent]
  | params {ident : Node} {pch : List Node} : Payload "IDENT" ident → ParamListShape pch →
      PidShape [ident, .tree "params" pch]

/-- A namespace tree by its tag and children: a builtin namespace holds one parameterized id, and
the children of a computed namespace are never looked at. -/
inductive NamespaceShape : String → List Node → Prop
  | builtin {pch : List Node} : PidShape pch →
      NamespaceShape "builtin_namespace" [.tree "parameterized_id" pch]
  | computed (children : List Node) : NamespaceShape "named_namespace" children

/-- A binding tree by its tag and children: `unbound`, whose children are never looked at, or
`bound` with one identifier. -/
inductive BindingShape : String → List Node → Prop
  | unbound (children : List Node) : BindingShape "unbound" children
  | bound {ident : Node} : Payload "IDENT" ident → BindingShape "bound" [ident]

/-- The index of a `multiary` tree: none, or a `graph_index` tree, whose children are never looked
at. -/
inductive IndexShape : Node → Prop
  | absent : IndexShape .absent
  | explicit (children : List Node) : IndexShape (.tree "graph_index" children)

mutual

/-- The children of a `name` tree: its declarations, then its substitution. -/
inductive NameShape : List Node → Prop
  | mk {items parts : List Node} : DeclsShape items → SubstShape parts →
      NameShape [.tree "declarations" items, .tree "substitution" parts]

/-- The items of a `declarations` tree, each a `declaration` tree. -/
inductive DeclsShape : List Node → Prop
  | nil : DeclsShape []
  | cons {children rest : List Node} : DeclShape children → DeclsShape rest →
      DeclsShape (.tree "declaration" children :: rest)

/-- The children of a `declaration` tree: a binding, then a substitution. -/
inductive DeclShape : List Node → Prop
  | mk {tag : String} {bch parts : List Node} : BindingShape tag bch → SubstShape parts →
      DeclShape [.tree tag bch, .tree "substitution" parts]

/-- The parts of a `substitution` tree: a reference of any kind, alone or followed by none or a
`multiary` tree. -/
inductive SubstShape : List Node → Prop
  | single {tag : String} {children : List Node} : RefShape tag children →
      SubstShape [.tree tag children]
  | nullary {tag : String} {children : List Node} : RefShape tag children →
      SubstShape [.tree tag children, .absent]
  | multiary {tag : String} {children mch : List Node} : RefShape tag children →
      InputsShape mch → SubstShape [.tree tag children, .tree "multiary" mch]

/-- A reference tree by its tag and children. -/
inductive RefShape : String → List Node → Prop
  | atomic {pch : List Node} : PidShape pch →
      RefShape "atomic_ref" [.absent, .tree "parameterized_id" pch]
  | qualified {tag : String} {nch pch : List Node} : NamespaceShape tag nch → PidShape pch →
      RefShape "atomic_ref" [.tree tag nch, .tree "parameterized_id" pch]
  | var {ident : Node} : Payload "IDENT" ident → RefShape "variable_ref" [ident]
  | resolved {ident : Node} : Payload "IDENT" ident → RefShape "resolved_ref" [ident]
  | nested {nch : List Node} : NameShape nch → RefShape "nested_ref" [.tree "name" nch]

/-- The children of a `multiary` tree: an index, then none or a `spec_list` tree. -/
inductive InputsShape : List Node → Prop
  | none {index : Node} : IndexShape index → InputsShape [index, .absent]
  | specs {index : Node} {items : List Node} : IndexShape index → SpecsShape items →
      InputsShape [index, .tree "spec_list" items]

/-- The items of a `spec_list` tree, each a `substitution_spec` tree. -/
inductive SpecsShape : List Node → Prop
  | nil : SpecsShape []
  | cons {children rest : List Node} : SpecShape children → SpecsShape rest →
      SpecsShape (.tree "substitution_spec" children :: rest)

/-- The children of a `substitution_spec` tree: an optional input id, then an `output_ref` tree. -/
inductive SpecShape : List Node → Prop
  | mk {inputId : Node} {och : List Node} : OptionalPayload "IDENT" inputId → OutputShape och →
      SpecShape [inputId, .tree "output_ref" och]

/-- The children of an `output_ref` tree: a substitution, then an optional output id. -/
inductive OutputShape : List Node → Prop
  | mk {parts : List Node} {outputId : Node} : SubstShape parts →
      OptionalPayload "IDENT" outputId → OutputShape [.tree "substitution" parts, outputId]

end

/-- A whole tree the walk accepts: a `name` tree. -/
inductive TreeShape : Node → Prop
  | name {children : List Node} : NameShape children → TreeShape (.tree "name" children)

/-! ## Payloads -/

theorem Payload.payloadOf_eq {kind : String} {n : Node} (h : Payload kind n) :
    payloadOf kind n = .ok n := by
  cases h <;> simp [ArtifactNames.payloadOf]

theorem payloadOf_ok_eq {kind : String} {n p : Node} (h : payloadOf kind n = .ok p) : p = n := by
  unfold ArtifactNames.payloadOf at h
  split at h <;> (try split at h) <;> cases h <;> rfl

theorem optionalPayloadOf_eq_ok {kind : String} {n : Node} {o : Option Node}
    (h : optionalPayloadOf kind n = .ok o) :
    (n = .absent ∧ o = none) ∨ (payloadOf kind n = .ok n ∧ o = some n) := by
  unfold ArtifactNames.optionalPayloadOf at h
  split at h
  · cases h
    exact .inl ⟨rfl, rfl⟩
  · cases read : payloadOf kind n with
    | ok p =>
      simp only [read, Except.map, Except.ok.injEq] at h
      obtain rfl := payloadOf_ok_eq read
      exact .inr ⟨rfl, h.symm⟩
    | error e => simp [read, Except.map] at h

theorem Payload.of_payloadOf {kind : String} {n n' : Node} (h : payloadOf kind n = .ok n') :
    Payload kind n := by
  unfold ArtifactNames.payloadOf at h
  split at h
  · rename_i k cs
    split at h
    · rename_i same
      rw [beq_iff_eq.mp same]
      exact .token cs
    · cases h
  · exact .text _
  · exact .bytes _
  · cases h

theorem OptionalPayload.of_optionalPayloadOf {kind : String} {n : Node} {o : Option Node}
    (h : optionalPayloadOf kind n = .ok o) : OptionalPayload kind n := by
  rcases optionalPayloadOf_eq_ok h with ⟨rfl, -⟩ | ⟨read, -⟩
  · exact .absent
  · exact .payload (Payload.of_payloadOf read)

theorem Payload.payloadChars_ne {kind : String} {n : Node} (h : Payload kind n) (m : Mismatch) :
    payloadChars n ≠ .error (.malformed m) := by
  cases h <;> simp only [ArtifactNames.payloadChars] <;> repeat' split
  all_goals simp

theorem Payload.optionalPayloadOf_eq {kind : String} {n : Node} (h : Payload kind n) :
    optionalPayloadOf kind n = .ok (some n) := by
  cases h <;> simp [ArtifactNames.optionalPayloadOf, ArtifactNames.payloadOf, Except.map]

theorem ValueShape.payloadChars_ne {n : Node} (h : ValueShape n) (m : Mismatch) :
    payloadChars n ≠ .error (.malformed m) := by
  cases h <;> simp only [ArtifactNames.payloadChars] <;> repeat' split
  all_goals simp

/-! ## Walks that never mismatch -/

def Walk.Fits {α : Type} (w : Walk α) : Prop :=
  ∀ s m, (w.run.run s).1 ≠ .error (.malformed m)

namespace Walk.Fits

variable {α β : Type} {frames : Frames} {d : Nat}

theorem pure (a : α) : Fits (Pure.pure a : Walk α) := by
  intro s m
  simp

theorem throw {e : ParseError} (h : ∀ m, e ≠ .malformed m) : Fits (MonadExcept.throw e : Walk α) := by
  intro s m
  rw [run_throw]
  simpa using h m

theorem bind {x : Walk α} {f : α → Walk β} (hx : Fits x) (hf : ∀ a, Fits (f a)) : Fits (x >>= f) := by
  intro s m
  rw [run_bind]
  have first := hx s m
  rcases ran : x.run.run s with ⟨_ | a, s'⟩
  · rw [ran] at first
    simpa using first
  · exact hf a s' m

theorem map {x : Walk α} (f : α → β) (h : Fits x) : Fits (f <$> x) := by
  rw [map_eq_pure_bind]
  exact h.bind fun a => pure (f a)

theorem orFail {x : Except ParseError α} (h : ∀ e, x = .error e → ∀ m, e ≠ .malformed m) :
    Fits (Walk.orFail x) := by
  cases x with
  | ok a => exact pure a
  | error e => exact throw (h e rfl)

theorem reach : Fits (Walk.reach frames d) := by
  intro s m
  simp only [run_reach]
  split <;> simp

theorem collection (kind : CollectionKind) (count : Nat) :
    Fits (Walk.collection frames d kind count) := by
  intro s m
  simp only [run_collection, callRun]
  repeat' split
  all_goals simp

theorem node (kind : NodeKind) : Fits (Walk.node frames d kind) := by
  intro s m
  simp only [run_node, callRun]
  repeat' split
  all_goals simp

theorem copy (kind : TextKind) (text : String) : Fits (Walk.copy frames d kind text) := by
  intro s m
  simp only [run_copy, callRun]
  repeat' split
  all_goals simp

theorem identifier {kind : String} {n : Node} (h : Payload kind n) :
    Fits (ArtifactNames.identifier frames d n) := by
  unfold ArtifactNames.identifier
  have text : ∀ e, payloadChars n = .error e → ∀ m, e ≠ .malformed m := by
    rintro e read m rfl
    exact h.payloadChars_ne m read
  exact reach.bind fun _ => reach.bind fun _ => (orFail text).bind fun _ =>
    (copy _ _).bind fun _ => reach.bind fun _ => pure _

theorem buildNoParameters : Fits (ArtifactNames.buildNoParameters frames d) := by
  unfold ArtifactNames.buildNoParameters
  exact reach.bind fun _ => reach.bind fun _ => (collection _ _).bind fun _ => reach.bind fun _ =>
    pure _

theorem buildNoInputs : Fits (ArtifactNames.buildNoInputs frames d) := by
  unfold ArtifactNames.buildNoInputs
  exact reach.bind fun _ => reach.bind fun _ => (collection _ _).bind fun _ => reach.bind fun _ =>
    pure _

theorem orFail_payloadChars {n : Node} (h : ∀ m, payloadChars n ≠ .error (.malformed m)) :
    Fits (Walk.orFail (payloadChars n)) :=
  orFail fun _ read m same => h m (same ▸ read)

theorem payload_bind {kind : String} {n : Node} {f : Node → Walk β} (h : Payload kind n)
    (hf : Fits (f n)) : Fits (Walk.orFail (payloadOf kind n) >>= f) := by
  rw [h.payloadOf_eq, orFail_ok, pure_bind]
  exact hf

theorem optional_bind {kind : String} {n : Node} {f : Option Node → Walk β}
    (h : OptionalPayload kind n) (absent : n = .absent → Fits (f none))
    (payload : Payload kind n → Fits (f (some n))) :
    Fits (Walk.orFail (optionalPayloadOf kind n) >>= f) := by
  cases h with
  | absent =>
    rw [show optionalPayloadOf kind .absent = .ok none from rfl, orFail_ok, pure_bind]
    exact absent rfl
  | payload p =>
    rw [p.optionalPayloadOf_eq, orFail_ok, pure_bind]
    exact payload p

theorem buildDeclarations {items : List Node} (h : Fits (buildDeclarationItems frames d items)) :
    Fits (ArtifactNames.buildDeclarations frames d items) := by
  unfold ArtifactNames.buildDeclarations
  exact reach.bind fun _ => reach.bind fun _ => (collection _ _).bind fun _ => h.bind fun _ =>
    reach.bind fun _ => pure _

end Walk.Fits

/-! ## A tree of the language never mismatches

Each rule of the language is one case: the walk over children that follow the rule takes the
branch that builds them, and what it builds below fits by the rule's premises. -/

theorem ParamsShape.fits (frames : Frames) (d : Nat) {items : List Node}
    (shape : ParamsShape items) : Fits (buildParameterItems frames d items) := by
  induction shape with
  | nil =>
    unfold buildParameterItems
    exact Fits.pure _
  | cons key value _ tail =>
    have valueText := value.payloadChars_ne
    unfold buildParameterItems
    -- the kind of a value token decides whether it is unquoted, so each kind is its own case
    rcases value with ⟨cs, rfl | rfl | rfl⟩ | cs | bs
    all_goals
      simp only [key.payloadOf_eq, orFail_ok, pure_bind, String.reduceBEq, Bool.true_or,
        Bool.or_true, ↓reduceIte]
      with_reducible repeat' first
        | exact Fits.pure _
        | exact Fits.reach
        | exact Fits.copy _ _
        | exact tail
        | exact Fits.orFail_payloadChars key.payloadChars_ne
        | exact Fits.orFail_payloadChars valueText
        | refine Fits.bind ?_ fun _ => ?_
        | split

theorem ParamListShape.fits (frames : Frames) {pch : List Node} (shape : ParamListShape pch)
    (d : Nat) : Fits (buildParameters frames d pch) := by
  unfold buildParameters
  cases shape with
  | empty =>
    exact Fits.reach.bind fun _ => Fits.reach.bind fun _ => (Fits.collection _ _).bind fun _ =>
      Fits.reach.bind fun _ => Fits.pure _
  | list items =>
    exact Fits.reach.bind fun _ => Fits.reach.bind fun _ => (Fits.collection _ _).bind fun _ =>
      (items.fits frames d).bind fun _ => Fits.reach.bind fun _ => Fits.pure _

theorem PidShape.fits (frames : Frames) {pch : List Node} (shape : PidShape pch) (d : Nat) :
    Fits (buildParameterizedId frames d pch) := by
  unfold buildParameterizedId
  cases shape with
  | plain ident =>
    exact Fits.reach.bind fun _ => Fits.reach.bind fun _ => Fits.payload_bind ident <|
      (Fits.identifier ident).bind fun _ => Fits.buildNoParameters.bind fun _ => Fits.pure _
  | params ident list =>
    exact Fits.reach.bind fun _ => Fits.reach.bind fun _ => Fits.payload_bind ident <|
      (Fits.identifier ident).bind fun _ => (list.fits frames (d + 1)).bind fun _ => Fits.pure _

theorem NamespaceShape.fits (frames : Frames) {tag : String} {nch : List Node}
    (shape : NamespaceShape tag nch) (d : Nat) : Fits (buildNamespace frames d tag nch) := by
  unfold buildNamespace
  cases shape with
  | builtin pid =>
    exact Fits.reach.bind fun _ => Fits.reach.bind fun _ => Fits.reach.bind fun _ =>
      Fits.map _ (pid.fits frames (d + 1))
  | computed children =>
    exact Fits.reach.bind fun _ => Fits.reach.bind fun _ => Fits.throw (by simp)

theorem BindingShape.fits (frames : Frames) {tag : String} {bch : List Node}
    (shape : BindingShape tag bch) (d : Nat) : Fits (buildBinding frames d tag bch) := by
  unfold buildBinding
  cases shape with
  | unbound children =>
    exact Fits.reach.bind fun _ => Fits.reach.bind fun _ => Fits.pure _
  | bound ident =>
    exact Fits.reach.bind fun _ => Fits.reach.bind fun _ => Fits.reach.bind fun _ =>
      Fits.payload_bind ident (Fits.map _ (Fits.identifier ident))

mutual

theorem NameShape.fits (frames : Frames) : ∀ {cs : List Node}, NameShape cs → ∀ d,
    Fits (buildName frames d cs)
  | _, .mk decls sub, d => by
    unfold buildName
    exact Fits.reach.bind fun _ => Fits.reach.bind fun _ =>
      (Fits.buildDeclarations (DeclsShape.fits frames decls (d + 1))).bind fun _ =>
        (SubstShape.fits frames sub (d + 1)).bind fun _ => Fits.pure _

theorem DeclsShape.fits (frames : Frames) : ∀ {items : List Node}, DeclsShape items → ∀ d,
    Fits (buildDeclarationItems frames d items)
  | _, .nil, d => by
    unfold buildDeclarationItems
    exact Fits.pure _
  | _, .cons decl rest, d => by
    unfold buildDeclarationItems
    exact Fits.reach.bind fun _ => (DeclShape.fits frames decl (d + 1)).bind fun _ =>
      (Fits.node _).bind fun _ => Fits.reach.bind fun _ =>
        (DeclsShape.fits frames rest d).bind fun _ => Fits.pure _

theorem DeclShape.fits (frames : Frames) : ∀ {cs : List Node}, DeclShape cs → ∀ d,
    Fits (buildDeclaration frames d cs)
  | _, .mk binding sub, d => by
    unfold buildDeclaration
    exact Fits.reach.bind fun _ => Fits.reach.bind fun _ =>
      (binding.fits frames (d + 1)).bind fun _ =>
        (SubstShape.fits frames sub (d + 1)).bind fun _ => Fits.pure _

theorem SubstShape.fits (frames : Frames) : ∀ {parts : List Node}, SubstShape parts → ∀ d,
    Fits (buildSubstitution frames d parts)
  | _, .single ref, d => by
    unfold buildSubstitution
    exact Fits.reach.bind fun _ => Fits.reach.bind fun _ =>
      (RefShape.fits frames ref (d + 1)).bind fun _ => Fits.buildNoInputs.bind fun _ => Fits.pure _
  | _, .nullary ref, d => by
    unfold buildSubstitution
    exact Fits.reach.bind fun _ => Fits.reach.bind fun _ =>
      (RefShape.fits frames ref (d + 1)).bind fun _ => Fits.buildNoInputs.bind fun _ => Fits.pure _
  | _, .multiary ref inputs, d => by
    unfold buildSubstitution
    exact Fits.reach.bind fun _ => Fits.reach.bind fun _ =>
      (RefShape.fits frames ref (d + 1)).bind fun _ =>
        (InputsShape.fits frames inputs (d + 1)).bind fun _ => Fits.pure _

theorem RefShape.fits (frames : Frames) : ∀ {tag : String} {cs : List Node}, RefShape tag cs → ∀ d,
    Fits (buildRef frames d tag cs)
  | _, _, .atomic pid, d => by
    unfold buildRef
    exact Fits.reach.bind fun _ => Fits.reach.bind fun _ => Fits.reach.bind fun _ =>
      (pid.fits frames (d + 1)).bind fun _ => Fits.pure _
  | _, _, .qualified ns pid, d => by
    unfold buildRef
    exact Fits.reach.bind fun _ => Fits.reach.bind fun _ => Fits.reach.bind fun _ =>
      (ns.fits frames (d + 1)).bind fun _ => (pid.fits frames (d + 1)).bind fun _ => Fits.pure _
  | _, _, .var ident, d => by
    unfold buildRef
    exact Fits.reach.bind fun _ => Fits.reach.bind fun _ =>
      Fits.payload_bind ident ((Fits.identifier ident).bind fun _ => Fits.pure _)
  | _, _, .resolved ident, d => by
    unfold buildRef
    exact Fits.reach.bind fun _ => Fits.reach.bind fun _ =>
      Fits.payload_bind ident ((Fits.identifier ident).bind fun _ => Fits.pure _)
  | _, _, .nested name, d => by
    unfold buildRef
    exact Fits.reach.bind fun _ => Fits.reach.bind fun _ => Fits.reach.bind fun _ =>
      (NameShape.fits frames name (d + 1)).bind fun _ => (Fits.node _).bind fun _ => Fits.pure _

theorem InputsShape.fits (frames : Frames) : ∀ {cs : List Node}, InputsShape cs → ∀ d,
    Fits (buildInputs frames d cs)
  | _, .none index, d => by
    unfold buildInputs
    cases index with
    | absent =>
      exact Fits.reach.bind fun _ => Fits.reach.bind fun _ => Fits.reach.bind fun _ =>
        (Fits.collection _ _).bind fun _ => Fits.reach.bind fun _ => Fits.pure _
    | explicit _ => exact Fits.reach.bind fun _ => Fits.reach.bind fun _ => Fits.throw (by simp)
  | _, .specs index specs, d => by
    unfold buildInputs
    cases index with
    | absent =>
      exact Fits.reach.bind fun _ => Fits.reach.bind fun _ => Fits.reach.bind fun _ =>
        (Fits.collection _ _).bind fun _ => (SpecsShape.fits frames specs d).bind fun _ =>
          Fits.reach.bind fun _ => Fits.pure _
    | explicit _ => exact Fits.reach.bind fun _ => Fits.reach.bind fun _ => Fits.throw (by simp)

theorem SpecsShape.fits (frames : Frames) : ∀ {items : List Node}, SpecsShape items → ∀ d,
    Fits (buildInputItems frames d items)
  | _, .nil, d => by
    unfold buildInputItems
    exact Fits.pure _
  | _, .cons spec rest, d => by
    unfold buildInputItems
    exact Fits.reach.bind fun _ => (SpecShape.fits frames spec (d + 1)).bind fun _ =>
      Fits.reach.bind fun _ => (SpecsShape.fits frames rest d).bind fun _ => Fits.pure _

theorem SpecShape.fits (frames : Frames) : ∀ {cs : List Node}, SpecShape cs → ∀ d,
    Fits (buildInput frames d cs)
  | _, .mk inputId output, d => by
    unfold buildInput
    exact Fits.reach.bind fun _ => Fits.reach.bind fun _ =>
      Fits.optional_bind inputId
        (fun _ => Fits.pure _ |>.bind fun _ => (OutputShape.fits frames output (d + 1)).bind
          fun _ => Fits.pure _)
        (fun ident => (Fits.map _ (Fits.identifier ident)).bind fun _ =>
          (OutputShape.fits frames output (d + 1)).bind fun _ => Fits.pure _)

theorem OutputShape.fits (frames : Frames) : ∀ {cs : List Node}, OutputShape cs → ∀ d,
    Fits (buildOutputRef frames d cs)
  | _, .mk sub outputId, d => by
    unfold buildOutputRef
    exact Fits.reach.bind fun _ => Fits.reach.bind fun _ =>
      Fits.optional_bind outputId
        (fun _ => (SubstShape.fits frames sub (d + 1)).bind fun _ => (Fits.node _).bind fun _ =>
          (Fits.pure _).bind fun _ => Fits.pure _)
        (fun ident => (SubstShape.fits frames sub (d + 1)).bind fun _ => (Fits.node _).bind fun _ =>
          (Fits.map _ (Fits.identifier ident)).bind fun _ => Fits.pure _)

end

theorem TreeShape.fits (frames : Frames) {root : Node} (shape : TreeShape root) :
    Fits (buildRoot frames root) := by
  cases shape with
  | name name =>
    unfold buildRoot
    exact name.fits frames _

/-! ## Only a tree of the language gives a name -/

def Walk.Demands {α : Type} (w : Walk α) (P : Prop) : Prop :=
  ∀ s a s', w.run.run s = (.ok a, s') → P

namespace Walk.Demands

variable {α β : Type}

theorem trivial (w : Walk α) : Demands w True :=
  fun _ _ _ _ => True.intro

theorem throw (e : ParseError) (P : Prop) : Demands (MonadExcept.throw e : Walk α) P := by
  intro s a s' ran
  rw [run_throw] at ran
  cases ran

theorem mono {w : Walk α} {P Q : Prop} (h : Demands w P) (imp : P → Q) : Demands w Q :=
  fun s a s' ran => imp (h s a s' ran)

theorem bind {x : Walk α} {f : α → Walk β} {P Q : Prop} (hx : Demands x P)
    (hf : ∀ a, Demands (f a) Q) : Demands (x >>= f) (P ∧ Q) := by
  intro s b s' ran
  rw [run_bind] at ran
  rcases first : x.run.run s with ⟨_ | a, s₁⟩
  · rw [first] at ran
    cases ran
  · rw [first] at ran
    exact ⟨hx s a s₁ first, hf a s₁ b s' ran⟩

theorem bind_left {x : Walk α} {f : α → Walk β} {P : Prop} (hx : Demands x P) :
    Demands (x >>= f) P :=
  (hx.bind fun _ => trivial _).mono And.left

theorem bind_join {x : Walk α} {f : α → Walk β} {P Q R : Prop} (hx : Demands x P)
    (hf : ∀ a, Demands (f a) Q) (join : P → Q → R) : Demands (x >>= f) R :=
  (hx.bind hf).mono fun facts => join facts.1 facts.2

theorem throw_bind (e : ParseError) (f : α → Walk β) (P : Prop) :
    Demands (MonadExcept.throw e >>= f) P :=
  (throw e P).bind_left

theorem map {x : Walk α} {P : Prop} (f : α → β) (h : Demands x P) : Demands (f <$> x) P := by
  rw [map_eq_pure_bind]
  exact h.bind_left

theorem skip {x : Walk α} {f : α → Walk β} {Q : Prop} (hf : ∀ a, Demands (f a) Q) :
    Demands (x >>= f) Q :=
  ((trivial x).bind hf).mono And.right

theorem payload (kind : String) (n : Node) :
    Demands (Walk.orFail (payloadOf kind n)) (Payload kind n) := by
  intro s a s' ran
  cases read : payloadOf kind n with
  | ok n' => exact Payload.of_payloadOf read
  | error e =>
    rw [read] at ran
    cases ran

theorem optional (kind : String) (n : Node) :
    Demands (Walk.orFail (optionalPayloadOf kind n)) (OptionalPayload kind n) := by
  intro s a s' ran
  cases read : optionalPayloadOf kind n with
  | ok o => exact OptionalPayload.of_optionalPayloadOf read
  | error e =>
    rw [read] at ran
    cases ran

end Walk.Demands

theorem buildParameterItems_demands (frames : Frames) (d : Nat) :
    ∀ items, Demands (buildParameterItems frames d items) (ParamsShape items)
  | [] => (Demands.trivial _).mono fun _ => .nil
  | item :: rest => by
    have tail := buildParameterItems_demands frames d rest
    unfold buildParameterItems
    refine Demands.skip fun _ => ?_
    split
    · refine Demands.skip fun _ => ?_
      split
      · rename_i key value
        -- a value of a kind the walk does not take ends it; the others are read by their kind
        by_cases taken : ValueShape value
        · have kind := taken
          rcases kind with ⟨cs, rfl | rfl | rfl⟩ | cs | bs
          all_goals
            simp only [String.reduceBEq, Bool.true_or, Bool.or_true, ↓reduceIte]
            refine (Demands.payload _ _).bind_join (fun _ => ?_) fun key tail => .cons key taken tail
            with_reducible repeat' first
              | exact tail
              | exact tail.bind_left
              | refine Demands.skip fun _ => ?_
              | split
        · cases value with
          | token k cs =>
            simp only [beq_iff_eq, Bool.or_eq_true]
            rw [if_neg fun kinds => taken (.token cs (or_assoc.mp kinds))]
            exact Demands.throw_bind _ _ _
          | text cs => exact absurd (.text cs) taken
          | bytes bs => exact absurd (.bytes bs) taken
          | _ =>
            simp only [Bool.false_eq_true, ↓reduceIte]
            exact Demands.throw_bind _ _ _
      · exact Demands.throw _ _
    · exact Demands.throw _ _

theorem buildParameters_demands (frames : Frames) (d : Nat) (pch : List Node) :
    Demands (buildParameters frames d pch) (ParamListShape pch) := by
  unfold buildParameters
  refine Demands.skip fun _ => Demands.skip fun _ => ?_
  split
  · split
    · exact (Demands.trivial _).mono fun _ => .empty
    · exact (Demands.skip fun _ => (buildParameterItems_demands frames d _).bind_left).mono .list
    · exact Demands.throw _ _
  · exact Demands.throw _ _

theorem buildParameterizedId_demands (frames : Frames) (d : Nat) (pch : List Node) :
    Demands (buildParameterizedId frames d pch) (PidShape pch) := by
  unfold buildParameterizedId
  refine Demands.skip fun _ => Demands.skip fun _ => ?_
  split
  · split
    · exact (Demands.payload _ _).bind_left.mono .plain
    · exact (Demands.payload _ _).bind_join (fun _ => Demands.skip fun _ =>
        (buildParameters_demands frames (d + 1) _).bind_left) .params
    · exact Demands.throw _ _
  · exact Demands.throw _ _

theorem buildNamespace_demands (frames : Frames) (d : Nat) (tag : String) (nch : List Node) :
    Demands (buildNamespace frames d tag nch) (NamespaceShape tag nch) := by
  unfold buildNamespace
  refine Demands.skip fun _ => Demands.skip fun _ => ?_
  split
  · rename_i builtin
    obtain rfl := beq_iff_eq.mp builtin
    refine Demands.skip fun _ => ?_
    split
    · split
      · exact (Demands.map _ (buildParameterizedId_demands frames (d + 1) _)).mono .builtin
      · exact Demands.throw _ _
    · exact Demands.throw _ _
  · split
    · exact Demands.throw _ _
    · exact Demands.throw _ _

theorem buildBinding_demands (frames : Frames) (d : Nat) (tag : String) (bch : List Node) :
    Demands (buildBinding frames d tag bch) (BindingShape tag bch) := by
  unfold buildBinding
  refine Demands.skip fun _ => Demands.skip fun _ => ?_
  split
  · rename_i unbound
    obtain rfl := beq_iff_eq.mp unbound
    exact (Demands.trivial _).mono fun _ => .unbound _
  · split
    · rename_i bound
      obtain rfl := beq_iff_eq.mp bound
      refine Demands.skip fun _ => ?_
      split
      · exact (Demands.payload _ _).bind_left.mono .bound
      · exact Demands.throw _ _
    · exact Demands.throw _ _

theorem builders_demand (frames : Frames) :
    (∀ d cs, Demands (buildName frames d cs) (NameShape cs)) ∧
    (∀ d cs, Demands (buildSubstitution frames d cs) (SubstShape cs)) ∧
    (∀ d cs, Demands (buildInputs frames d cs) (InputsShape cs)) ∧
    (∀ d cs, Demands (buildInputItems frames d cs) (SpecsShape cs)) ∧
    (∀ d cs, Demands (buildInput frames d cs) (SpecShape cs)) ∧
    (∀ d cs, Demands (buildOutputRef frames d cs) (OutputShape cs)) ∧
    (∀ d tag cs, Demands (buildRef frames d tag cs) (RefShape tag cs)) ∧
    (∀ d cs, Demands (buildDeclarations frames d cs) (DeclsShape cs)) ∧
    (∀ d cs, Demands (buildDeclarationItems frames d cs) (DeclsShape cs)) ∧
    (∀ d cs, Demands (buildDeclaration frames d cs) (DeclShape cs)) := by
  apply buildName.mutual_induct
  -- a name: its declarations, then its substitution
  · intro d cs ih
    unfold buildName
    refine Demands.skip fun _ => Demands.skip fun _ => ?_
    split
    · split
      · obtain ⟨decls, sub⟩ := ih
        exact decls.bind_join (fun _ => sub.bind_left) .mk
      · exact Demands.throw _ _
      · exact Demands.throw _ _
    · exact Demands.throw _ _
  -- a substitution: a reference, then its inputs when it has them
  · intro d parts ih
    unfold buildSubstitution
    refine Demands.skip fun _ => Demands.skip fun _ => ?_
    split
    · split
      · exact ih.bind_left.mono .single
      · exact Demands.throw _ _
    · split
      · exact ih.bind_left.mono .nullary
      · obtain ⟨ref, inputs⟩ := ih
        exact ref.bind_join (fun _ => inputs.bind_left) .multiary
      · exact Demands.throw _ _
      · exact Demands.throw _ _
    · exact Demands.throw _ _
  -- the inputs of a `multiary` tree
  · intro d cs ih
    unfold buildInputs
    refine Demands.skip fun _ => Demands.skip fun _ => ?_
    split
    · split
      · exact (Demands.trivial _).mono fun _ => .none .absent
      · exact (Demands.skip fun _ => Demands.skip fun _ => ih.bind_left).mono (.specs .absent)
      all_goals exact Demands.throw _ _
    · exact Demands.throw _ _
  -- the items of a `spec_list` tree
  · intro d
    unfold buildInputItems
    exact (Demands.trivial _).mono fun _ => .nil
  · intro d item rest ih
    unfold buildInputItems
    refine Demands.skip fun _ => ?_
    split
    · obtain ⟨spec, tail⟩ := ih
      exact spec.bind_join (fun _ => Demands.skip fun _ => tail.bind_left) .cons
    · exact Demands.throw _ _
  -- a spec: its optional input id, then its output reference
  · intro d cs ih
    unfold buildInput
    refine Demands.skip fun _ => Demands.skip fun _ => ?_
    split
    · split
      · refine (Demands.optional _ _).bind_join (fun _ => ?_) .mk
        split
        all_goals exact Demands.skip fun _ => ih.bind_left
      · exact Demands.skip fun _ => Demands.throw _ _
    · exact Demands.throw _ _
  -- an output reference: its optional output id, then its substitution
  · intro d cs ih
    unfold buildOutputRef
    refine Demands.skip fun _ => Demands.skip fun _ => ?_
    split
    · split
      · exact (Demands.optional _ _).bind_join (fun _ => ih.bind_left) fun outputId sub =>
          .mk sub outputId
      · exact Demands.throw _ _
    · exact Demands.throw _ _
  -- a reference, by its tag
  · intro d tag cs ih
    unfold buildRef
    refine Demands.skip fun _ => Demands.skip fun _ => ?_
    split
    · rename_i atomic
      obtain rfl := beq_iff_eq.mp atomic
      refine Demands.skip fun _ => ?_
      split
      · split
        · exact (buildParameterizedId_demands frames (d + 1) _).bind_left.mono .atomic
        · exact (buildNamespace_demands frames (d + 1) _ _).bind_join (fun _ =>
            (buildParameterizedId_demands frames (d + 1) _).bind_left) .qualified
        all_goals exact Demands.throw _ _
      · exact Demands.throw _ _
    · split
      · rename_i byName
        split
        · refine (Demands.payload _ _).bind_left.mono fun ident => ?_
          rcases Bool.or_eq_true_iff.mp byName with var | resolved
          · obtain rfl := beq_iff_eq.mp var
            exact .var ident
          · obtain rfl := beq_iff_eq.mp resolved
            exact .resolved ident
        · exact Demands.throw _ _
      · split
        · rename_i nested
          obtain rfl := beq_iff_eq.mp nested
          refine Demands.skip fun _ => ?_
          split
          · split
            · exact ih.bind_left.mono .nested
            · exact Demands.throw _ _
          · exact Demands.throw _ _
        · exact Demands.throw _ _
  -- the declarations of a name: a reservation, then the items
  · intro d items ih
    unfold buildDeclarations
    exact Demands.skip fun _ => Demands.skip fun _ => Demands.skip fun _ =>
      Demands.mono (ih.bind fun _ => Demands.trivial _) And.left
  · intro d
    unfold buildDeclarationItems
    exact (Demands.trivial _).mono fun _ => .nil
  · intro d item rest ih
    unfold buildDeclarationItems
    refine Demands.skip fun _ => ?_
    split
    · obtain ⟨decl, tail⟩ := ih
      exact decl.bind_join (fun _ => Demands.skip fun _ => Demands.skip fun _ => tail.bind_left)
        .cons
    · exact Demands.throw _ _
  -- a declaration: its binding, then its substitution
  · intro d cs ih
    unfold buildDeclaration
    refine Demands.skip fun _ => Demands.skip fun _ => ?_
    split
    · split
      · exact (buildBinding_demands frames (d + 1) _ _).bind_join (fun _ => ih.bind_left) .mk
      all_goals exact Demands.throw _ _
    · exact Demands.throw _ _
theorem buildRoot_demands (frames : Frames) (root : Node) :
    Demands (buildRoot frames root) (TreeShape root) := by
  unfold buildRoot
  split
  · exact ((builders_demand frames).1 _ _).mono .name
  · exact Demands.throw _ _

end ArtifactNames
