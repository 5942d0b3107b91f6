import ArtifactNames.Proofs.Name.Refusal

/-! The walk reserves exactly what it builds: its storage calls are a function of the name it gives
(`Name.calls`), so its requests are four counts over the name (`Name.tally`). -/

namespace ArtifactNames

open Syntax Text Storage Walk

/-! ## The calls and requests of a name -/

def FactoryCall.identifierOf : Option String → List FactoryCall
  | some t => [.text .identifier t]
  | none => []

def Parameter.calls (p : Parameter) : List FactoryCall :=
  [.text .parameterName p.name, .text .parameterValue p.value]

def ParameterizedId.calls (p : ParameterizedId) : List FactoryCall :=
  .text .identifier p.id :: .collection .parameters p.params.length :: p.params.flatMap Parameter.calls

def Namespace.calls : Namespace → List FactoryCall
  | .builtin pid => pid.calls
  | .computed _ => []

mutual

/-- The storage calls that building a name makes, in order. Every list is reserved for its length
before its items are built; each declaration, each input's substitution and each nested name goes
into a node after it is built. -/
def Name.calls : Name → List FactoryCall
  | ⟨ds, t⟩ => .collection .declarations ds.length :: Declaration.callsList ds ++ t.calls

def Declaration.calls : Declaration → List FactoryCall
  | ⟨var, val⟩ => FactoryCall.identifierOf var ++ val.calls

def Declaration.callsList : List Declaration → List FactoryCall
  | [] => []
  | d :: ds => d.calls ++ .node .declaration :: Declaration.callsList ds

def Substitution.calls : Substitution → List FactoryCall
  | ⟨ref, is⟩ => ref.calls ++ .collection .inputs is.length :: Input.callsList is

def Ref.calls : Ref → List FactoryCall
  | .atomic none pid => pid.calls
  | .atomic (some ns) pid => ns.calls ++ pid.calls
  | .var v => [.text .identifier v]
  | .resolved v => [.text .identifier v]
  | .nested n => n.calls ++ [.node .nestedName]

def Input.calls : Input → List FactoryCall
  | ⟨id, out⟩ => FactoryCall.identifierOf id ++ out.calls

def Input.callsList : List Input → List FactoryCall
  | [] => []
  | i :: is => i.calls ++ Input.callsList is

def OutputRef.calls : OutputRef → List FactoryCall
  | ⟨sub, out⟩ => sub.calls ++ .node .substitution :: FactoryCall.identifierOf out

end

/-- Four counts over a name: its lists of declarations, inputs and parameters that are not empty,
its declarations, its inputs and its nested names. -/
structure Tally where
  lists : Nat
  declarations : Nat
  inputs : Nat
  nested : Nat
  deriving DecidableEq, Repr

namespace Tally

instance : Add Tally :=
  ⟨fun a b => ⟨a.lists + b.lists, a.declarations + b.declarations, a.inputs + b.inputs, a.nested + b.nested⟩⟩

instance : Zero Tally := ⟨⟨0, 0, 0, 0⟩⟩

def total (t : Tally) : Nat := t.lists + t.declarations + t.inputs + t.nested

def nonEmpty (n : Nat) : Nat := if 0 < n then 1 else 0

@[simp] theorem lists_add (a b : Tally) : (a + b).lists = a.lists + b.lists := rfl
@[simp] theorem declarations_add (a b : Tally) : (a + b).declarations = a.declarations + b.declarations := rfl
@[simp] theorem inputs_add (a b : Tally) : (a + b).inputs = a.inputs + b.inputs := rfl
@[simp] theorem nested_add (a b : Tally) : (a + b).nested = a.nested + b.nested := rfl

@[simp] theorem total_add (a b : Tally) : (a + b).total = a.total + b.total := by
  simp only [total, lists_add, declarations_add, inputs_add, nested_add]
  omega

@[simp] theorem total_zero : (0 : Tally).total = 0 := rfl

@[simp] theorem total_mk (l d i n : Nat) : (Tally.mk l d i n).total = l + d + i + n := rfl

end Tally

def ParameterizedId.tally (p : ParameterizedId) : Tally := ⟨Tally.nonEmpty p.params.length, 0, 0, 0⟩

def Namespace.tally : Namespace → Tally
  | .builtin pid => pid.tally
  | .computed _ => 0

mutual

def Name.tally : Name → Tally
  | ⟨ds, t⟩ => ⟨Tally.nonEmpty ds.length, ds.length, 0, 0⟩ + Declaration.tallyList ds + t.tally

def Declaration.tallyList : List Declaration → Tally
  | [] => 0
  | ⟨_, val⟩ :: ds => val.tally + Declaration.tallyList ds

def Substitution.tally : Substitution → Tally
  | ⟨ref, is⟩ => ref.tally + ⟨Tally.nonEmpty is.length, 0, is.length, 0⟩ + Input.tallyList is

def Ref.tally : Ref → Tally
  | .atomic none pid => pid.tally
  | .atomic (some ns) pid => ns.tally + pid.tally
  | .var _ => 0
  | .resolved _ => 0
  | .nested n => n.tally + ⟨0, 0, 0, 1⟩

def Input.tallyList : List Input → Tally
  | [] => 0
  | ⟨_, ⟨sub, _⟩⟩ :: is => sub.tally + Input.tallyList is

end

/-! ## Counting the requests of the calls -/

theorem countP_identifierOf (x : Option String) : (FactoryCall.identifierOf x).countP FactoryCall.asks = 0 := by
  cases x <;> rfl

theorem countP_parameterCalls (ps : List Parameter) :
    (ps.flatMap Parameter.calls).countP FactoryCall.asks = 0 := by
  induction ps with
  | nil => rfl
  | cons p ps ih => simp [List.flatMap_cons, ih, Parameter.calls, FactoryCall.asks]

theorem ParameterizedId.countP_calls (p : ParameterizedId) : p.calls.countP FactoryCall.asks = p.tally.total := by
  rw [calls, List.countP_cons, List.countP_cons, countP_parameterCalls]
  simp [ParameterizedId.tally, FactoryCall.asks, Tally.nonEmpty]

theorem Namespace.countP_calls (ns : Namespace) : ns.calls.countP FactoryCall.asks = ns.tally.total := by
  cases ns with
  | builtin pid => exact pid.countP_calls
  | computed _ => rfl

mutual

theorem Name.countP_calls : ∀ n : Name, n.calls.countP FactoryCall.asks = n.tally.total
  | ⟨ds, t⟩ => by
    rw [Name.calls, Name.tally, List.cons_append, List.countP_cons, List.countP_append,
      Declaration.countP_callsList ds, t.countP_calls]
    simp [FactoryCall.asks, Tally.nonEmpty]
    omega

theorem Declaration.countP_callsList : ∀ ds : List Declaration,
    (Declaration.callsList ds).countP FactoryCall.asks = (Declaration.tallyList ds).total + ds.length
  | [] => rfl
  | ⟨var, val⟩ :: ds => by
    rw [Declaration.callsList, Declaration.calls, Declaration.tallyList, List.countP_append,
      List.countP_append, List.countP_cons, countP_identifierOf, val.countP_calls,
      Declaration.countP_callsList ds]
    simp [FactoryCall.asks]
    omega

theorem Substitution.countP_calls : ∀ s : Substitution, s.calls.countP FactoryCall.asks = s.tally.total
  | ⟨ref, is⟩ => by
    rw [Substitution.calls, Substitution.tally, List.countP_append, List.countP_cons, ref.countP_calls,
      Input.countP_callsList is]
    simp [FactoryCall.asks, Tally.nonEmpty]
    omega

theorem Ref.countP_calls : ∀ r : Ref, r.calls.countP FactoryCall.asks = r.tally.total
  | .atomic none pid => pid.countP_calls
  | .atomic (some ns) pid => by
    rw [Ref.calls, Ref.tally, List.countP_append, ns.countP_calls, pid.countP_calls, Tally.total_add]
  | .var _ => rfl
  | .resolved _ => rfl
  | .nested n => by
    rw [Ref.calls, Ref.tally, List.countP_append, n.countP_calls, Tally.total_add]
    rfl

theorem Input.countP_callsList : ∀ is : List Input,
    (Input.callsList is).countP FactoryCall.asks = (Input.tallyList is).total + is.length
  | [] => rfl
  | ⟨id, ⟨sub, out⟩⟩ :: is => by
    rw [Input.callsList, Input.calls, OutputRef.calls, Input.tallyList, List.countP_append,
      List.countP_append, List.countP_append, List.countP_cons, countP_identifierOf, countP_identifierOf,
      sub.countP_calls, Input.countP_callsList is]
    simp [FactoryCall.asks]
    omega

end

/-! ## Walks that record their calls -/

/-- Whenever `w` gives a value, the calls it adds to the trace satisfy `post` with that value, and
the allocator has granted one request for each of those calls that asks, and no other. -/
def Walk.Records {α : Type} (w : Walk α) (post : α → List FactoryCall → Prop) : Prop :=
  ∀ s a s', w.run.run s = (.ok a, s') → ∃ N, post a N ∧ s'.trace.toList = s.trace.toList ++ N ∧
    s'.allocator = { s.allocator with requests := s.allocator.requests + N.countP FactoryCall.asks }

namespace Walk.Records

variable {α β : Type} {post : β → List FactoryCall → Prop}

theorem pure {b : β} (h : post b []) : Records (Pure.pure b : Walk β) post := by
  intro s a s' run
  rw [run_pure, Prod.mk.injEq, Except.ok.injEq] at run
  obtain ⟨rfl, rfl⟩ := run
  exact ⟨[], h, by simp, by simp⟩

theorem throw (e : ParseError) : Records (MonadExcept.throw e : Walk β) post := by
  intro s a s' run
  rw [run_throw] at run
  cases run

theorem bind {x : Walk α} {f : α → Walk β}
    (h : Records x fun a N => Records (f a) fun b M => post b (N ++ M)) : Records (x >>= f) post := by
  intro s b s₂ run
  rw [run_bind] at run
  cases first : x.run.run s with
  | mk r s₁ =>
    rw [first] at run
    cases r with
    | error e => cases run
    | ok a =>
      obtain ⟨N, later, trace₁, alloc₁⟩ := h s a s₁ first
      obtain ⟨M, hM, trace₂, alloc₂⟩ := later s₁ b s₂ run
      refine ⟨N ++ M, hM, by rw [trace₂, trace₁, List.append_assoc], ?_⟩
      rw [alloc₂, alloc₁, List.countP_append, Nat.add_assoc]

theorem map {x : Walk α} {f : α → β} (h : Records x fun a N => post (f a) N) :
    Records (f <$> x) post := by
  rw [map_eq_pure_bind]
  exact bind (mono h fun a _ done => pure (by simpa using done))
where
  mono {w : Walk α} {p q : α → List FactoryCall → Prop} (h : Records w p) (imp : ∀ a N, p a N → q a N) :
      Records w q := fun s a s' run => by
    obtain ⟨N, hN, rest⟩ := h s a s' run
    exact ⟨N, imp a N hN, rest⟩

theorem mono {w : Walk β} {post' : β → List FactoryCall → Prop} (h : Records w post)
    (imp : ∀ b N, post b N → post' b N) : Records w post' := map.mono h imp

theorem reach {frames : Frames} {d : Nat} {post : Unit → List FactoryCall → Prop} (h : post () []) :
    Records (Walk.reach frames d) post := by
  intro s a s' run
  rw [run_reach] at run
  split at run
  · cases run
    exact ⟨[], h, by simp, by simp⟩
  · cases run

theorem orFail {x : Except ParseError β} (h : ∀ b, x = .ok b → post b []) : Records (Walk.orFail x) post := by
  cases x with
  | ok b => exact pure (h b rfl)
  | error e => exact throw e

theorem callRun {w : Walk Unit} {c : FactoryCall} {enters asks : Bool}
    {done after : Except ParseError Unit} {post : Unit → List FactoryCall → Prop}
    (run : ∀ s, w.run.run s = Walk.callRun c enters asks done after s)
    (asking : asks = true → c.asks = true) (quiet : asks = false → done = .ok () → c.asks = false)
    (h : post () [c]) : Records w post := by
  intro s u s' ran
  rw [run, Walk.callRun] at ran
  cases enters with
  | false => cases ran
  | true =>
    cases asks with
    | false =>
      simp only [Bool.false_eq_true, ↓reduceIte] at ran
      obtain ⟨rfl, rfl⟩ := ran
      refine ⟨[c], h, by simp, ?_⟩
      simp [quiet rfl rfl]
    | true =>
      cases refuses : s.allocator.refuses
      · simp only [refuses, Bool.false_eq_true, ↓reduceIte] at ran
        obtain ⟨-, rfl⟩ := ran
        refine ⟨[c], h, by simp, ?_⟩
        simp [asking rfl, Allocator.request, refuses]
      · simp only [refuses, ↓reduceIte] at ran
        cases ran

theorem collection {frames : Frames} {d : Nat} {kind : CollectionKind} {count : Nat}
    {post : Unit → List FactoryCall → Prop} (h : post () [.collection kind count]) :
    Records (Walk.collection frames d kind count) post := by
  refine callRun (run_collection frames d kind count) (fun asks => ?_) (fun quiet done => ?_) h
  · simp only [Bool.and_eq_true, decide_eq_true_eq] at asks
    simp [FactoryCall.asks, asks.1.2]
  · -- a list that makes no request and ends well is empty
    split at done
    · rename_i settled
      simp only [Bool.and_eq_true, Bool.or_eq_true, decide_eq_true_eq] at settled
      obtain ⟨⟨settles, room⟩, small⟩ := settled
      simp only [settles, room, decide_true, Bool.true_and, Bool.and_eq_false_iff,
        decide_eq_false_iff_not] at quiet
      simp only [FactoryCall.asks, decide_eq_false_iff_not]
      omega
    · cases done

theorem node {frames : Frames} {d : Nat} {kind : NodeKind} {post : Unit → List FactoryCall → Prop}
    (h : post () [.node kind]) : Records (Walk.node frames d kind) post :=
  callRun (run_node frames d kind) (fun _ => rfl) (fun _ done => by cases done) h

theorem copy {frames : Frames} {d : Nat} {kind : TextKind} {text : String}
    {post : Unit → List FactoryCall → Prop} (h : post () [.text kind text]) :
    Records (Walk.copy frames d kind text) post :=
  callRun (run_copy frames d kind text) (fun asks => by cases asks) (fun _ _ => rfl) h

theorem identifier {frames : Frames} {d : Nat} {payload : Node} {post : String → List FactoryCall → Prop}
    (h : ∀ t, post t [.text .identifier t]) : Records (ArtifactNames.identifier frames d payload) post := by
  unfold ArtifactNames.identifier
  refine bind (reach (bind (reach (bind (orFail fun cs _ => ?_)))))
  exact bind (copy (bind (reach (pure (by simpa using h (toText cs))))))

theorem buildParameterItems (frames : Frames) (d : Nat) : ∀ items,
    Records (ArtifactNames.buildParameterItems frames d items)
      fun ps N => N = ps.flatMap Parameter.calls ∧ ps.length = items.length
  | [] => by
    rw [ArtifactNames.buildParameterItems]
    exact pure ⟨rfl, rfl⟩
  | item :: rest => by
    have later := buildParameterItems frames d rest
    unfold ArtifactNames.buildParameterItems
    with_reducible repeat' first
      | exact Records.throw _
      | refine Records.reach ?_
      | refine Records.orFail fun _ _ => ?_
      | refine Records.copy ?_
      | refine Records.mono later fun _ _ => ?_
      | refine Records.pure ?_
      | refine Records.bind ?_
      | refine Records.map ?_
      | split
      | (intro)
      | dsimp only
    all_goals simp_all [Parameter.calls]

theorem buildNoParameters (frames : Frames) (d : Nat) :
    Records (ArtifactNames.buildNoParameters frames d) fun ps N =>
      ps = [] ∧ N = [.collection .parameters 0] := by
  unfold ArtifactNames.buildNoParameters
  exact bind (reach (bind (reach (bind (collection (bind (reach (pure (by simp)))))))))

theorem buildParameters (frames : Frames) (d : Nat) (children : List Node) :
    Records (ArtifactNames.buildParameters frames d children) fun ps N =>
      N = .collection .parameters ps.length :: ps.flatMap Parameter.calls := by
  unfold ArtifactNames.buildParameters
  refine bind (reach (bind (reach ?_)))
  split
  · split
    · exact bind (collection (bind (reach (pure (by simp)))))
    · refine bind (collection (bind (mono (buildParameterItems frames d _) fun ps N itemCalls =>
        bind (reach (pure ?_)))))
      simp [itemCalls.1, itemCalls.2]
    · exact throw _
  · exact throw _

theorem buildParameterizedId (frames : Frames) (d : Nat) (children : List Node) :
    Records (ArtifactNames.buildParameterizedId frames d children) fun p N => N = p.calls := by
  unfold ArtifactNames.buildParameterizedId
  refine bind (reach (bind (reach ?_)))
  split
  · split
    · refine bind (orFail fun _ _ => bind (identifier fun t =>
        bind (mono (buildNoParameters frames _) fun ps N noParams => pure ?_)))
      simp [noParams.1, noParams.2, ParameterizedId.calls]
    · refine bind (orFail fun _ _ => bind (identifier fun t =>
        bind (mono (buildParameters frames _ _) fun ps N paramCalls => pure ?_)))
      simp [paramCalls, ParameterizedId.calls]
    · exact throw _
  · exact throw _

theorem buildNamespace (frames : Frames) (d : Nat) (tag : String) (children : List Node) :
    Records (ArtifactNames.buildNamespace frames d tag children) fun ns N => N = ns.calls := by
  unfold ArtifactNames.buildNamespace
  refine bind (reach (bind (reach ?_)))
  split
  · refine bind (reach ?_)
    split
    · split
      · exact map (mono (buildParameterizedId frames _ _) fun p N pidCalls => by
          simp [pidCalls, Namespace.calls])
      · exact throw _
    · exact throw _
  · split
    · exact throw _
    · exact throw _

theorem buildBinding (frames : Frames) (d : Nat) (tag : String) (children : List Node) :
    Records (ArtifactNames.buildBinding frames d tag children) fun v N =>
      N = FactoryCall.identifierOf v := by
  unfold ArtifactNames.buildBinding
  refine bind (reach (bind (reach ?_)))
  split
  · exact pure rfl
  · split
    · refine bind (reach ?_)
      split
      · exact bind (orFail fun _ _ => map (identifier fun t => by simp [FactoryCall.identifierOf]))
      · exact throw _
    · exact throw _

theorem buildNoInputs (frames : Frames) (d : Nat) :
    Records (ArtifactNames.buildNoInputs frames d) fun is N => is = [] ∧ N = [.collection .inputs 0] := by
  unfold ArtifactNames.buildNoInputs
  exact bind (reach (bind (reach (bind (collection (bind (reach (pure (by simp)))))))))

theorem builders (frames : Frames) :
    (∀ d cs, Records (buildName frames d cs) fun n N => N = n.calls) ∧
    (∀ d cs, Records (buildSubstitution frames d cs) fun s N => N = s.calls) ∧
    (∀ d cs, Records (buildInputs frames d cs)
      fun is N => N = .collection .inputs is.length :: Input.callsList is) ∧
    (∀ d cs, Records (buildInputItems frames d cs)
      fun is N => N = Input.callsList is ∧ is.length = cs.length) ∧
    (∀ d cs, Records (buildInput frames d cs) fun i N => N = i.calls) ∧
    (∀ d cs, Records (buildOutputRef frames d cs) fun o N => N = o.calls) ∧
    (∀ d tag cs, Records (buildRef frames d tag cs) fun r N => N = r.calls) ∧
    (∀ d cs, Records (buildDeclarations frames d cs)
      fun ds N => N = .collection .declarations ds.length :: Declaration.callsList ds) ∧
    (∀ d cs, Records (buildDeclarationItems frames d cs)
      fun ds N => N = Declaration.callsList ds ∧ ds.length = cs.length) ∧
    (∀ d cs, Records (buildDeclaration frames d cs) fun decl N => N = decl.calls) := by
  apply buildName.mutual_induct
  -- a name: its declarations, then its substitution
  · intro d cs ih
    unfold ArtifactNames.buildName
    refine bind (reach (bind (reach ?_)))
    split
    · split
      · obtain ⟨decls, sub⟩ := ih
        refine bind (mono decls fun ds N declsCalls => bind (mono sub fun term M termCalls => pure ?_))
        simp [declsCalls, termCalls, Name.calls]
      · exact throw _
      · exact throw _
    · exact throw _
  -- a substitution: a reference, then its inputs, an empty list when it has none
  · intro d parts ih
    unfold ArtifactNames.buildSubstitution
    refine bind (reach (bind (reach ?_)))
    split
    · split
      · refine bind (mono ih fun r N refCalls =>
          bind (mono (buildNoInputs frames _) fun is M noInputs => pure ?_))
        simp [refCalls, noInputs.1, noInputs.2, Substitution.calls, Input.callsList]
      · exact throw _
    · split
      · refine bind (mono ih fun r N refCalls =>
          bind (mono (buildNoInputs frames _) fun is M noInputs => pure ?_))
        simp [refCalls, noInputs.1, noInputs.2, Substitution.calls, Input.callsList]
      · obtain ⟨ref, inputs⟩ := ih
        refine bind (mono ref fun r N refCalls => bind (mono inputs fun is M inputCalls => pure ?_))
        simp [refCalls, inputCalls, Substitution.calls]
      · exact throw _
      · exact throw _
    · exact throw _
  -- the inputs of a `multiary` tree: a reservation, then the items
  · intro d cs ih
    unfold ArtifactNames.buildInputs
    refine bind (reach (bind (reach ?_)))
    split
    · split
      · exact bind (reach (bind (collection (bind (reach (pure (by simp [Input.callsList])))))))
      · refine bind (reach (bind (collection (bind (mono ih fun is N itemCalls =>
          bind (reach (pure ?_)))))))
        simp [itemCalls.1, itemCalls.2]
      all_goals exact throw _
    · exact throw _
  -- the items of a `spec_list` tree
  · intro d
    unfold ArtifactNames.buildInputItems
    exact pure ⟨rfl, rfl⟩
  · intro d item rest ih
    unfold ArtifactNames.buildInputItems
    refine bind (reach ?_)
    split
    · obtain ⟨spec, tail⟩ := ih
      refine bind (mono spec fun i N specCalls => bind (reach (bind (mono tail fun is M tailCalls =>
        pure ?_))))
      simp [specCalls, tailCalls.1, tailCalls.2, Input.callsList]
    · exact throw _
  -- a spec: its optional input id, then its output reference
  · intro d cs ih
    unfold ArtifactNames.buildInput
    refine bind (reach (bind (reach ?_)))
    split
    · refine bind (orFail fun _ _ => ?_)
      split
      · dsimp only
        split
        · refine bind (map (identifier fun t => bind (mono ih fun out M outCalls => pure ?_)))
          simp [outCalls, Input.calls, FactoryCall.identifierOf]
        · refine bind (pure (bind (mono ih fun out M outCalls => pure ?_)))
          simp [outCalls, Input.calls, FactoryCall.identifierOf]
      · exact throw _
    · exact throw _
  -- an output reference: its substitution in a node, then its optional output id
  · intro d cs ih
    unfold ArtifactNames.buildOutputRef
    refine bind (reach (bind (reach ?_)))
    split
    · split
      · refine bind (orFail fun _ _ => bind (mono ih fun s N subCalls => bind (node ?_)))
        dsimp only
        split
        · refine bind (map (identifier fun t => pure ?_))
          simp [subCalls, OutputRef.calls, FactoryCall.identifierOf]
        · refine bind (pure (pure ?_))
          simp [subCalls, OutputRef.calls, FactoryCall.identifierOf]
      · exact throw _
    · exact throw _
  -- a reference, by its tag
  · intro d tag cs ih
    unfold ArtifactNames.buildRef
    refine bind (reach (bind (reach ?_)))
    split
    · refine bind (reach ?_)
      split
      · split
        · refine bind (mono (buildParameterizedId frames _ _) fun p N pidCalls => pure ?_)
          simp [pidCalls, Ref.calls]
        · refine bind (mono (buildNamespace frames _ _ _) fun ns N nsCalls =>
            bind (mono (buildParameterizedId frames _ _) fun p M pidCalls => pure ?_))
          simp [nsCalls, pidCalls, Ref.calls]
        all_goals exact throw _
      · exact throw _
    · split
      · split
        · refine bind (orFail fun _ _ => bind (identifier fun t => pure ?_))
          split <;> simp [Ref.calls]
        · exact throw _
      · split
        · refine bind (reach ?_)
          split
          · split
            · refine bind (mono ih fun n N nameCalls => bind (node (pure ?_)))
              simp [nameCalls, Ref.calls]
            · exact throw _
          · exact throw _
        · exact throw _
  -- the declarations of a name: a reservation, then the items
  · intro d items ih
    unfold ArtifactNames.buildDeclarations
    refine bind (reach (bind (reach (bind (collection (bind (mono ih fun ds N itemCalls =>
      bind (reach (pure ?_)))))))))
    simp [itemCalls.1, itemCalls.2]
  · intro d
    unfold ArtifactNames.buildDeclarationItems
    exact pure ⟨rfl, rfl⟩
  · intro d item rest ih
    unfold ArtifactNames.buildDeclarationItems
    refine bind (reach ?_)
    split
    · obtain ⟨decl, tail⟩ := ih
      refine bind (mono decl fun dc N declCalls => bind (node (bind (reach (bind (mono tail
        fun ds M tailCalls => pure ?_))))))
      simp [declCalls, tailCalls.1, tailCalls.2, Declaration.callsList]
    · exact throw _
  -- a declaration: its binding, then its substitution
  · intro d cs ih
    unfold ArtifactNames.buildDeclaration
    refine bind (reach (bind (reach ?_)))
    split
    · split
      · refine bind (mono (buildBinding frames _ _ _) fun v N bindingCalls =>
          bind (mono ih fun s M subCalls => pure ?_))
        simp [bindingCalls, subCalls, Declaration.calls]
      · exact throw _
      · exact throw _
    · exact throw _

end Walk.Records

theorem Walk.Records.buildRoot (frames : Frames) (root : Node) :
    Records (ArtifactNames.buildRoot frames root) fun n N => N = n.calls := by
  unfold ArtifactNames.buildRoot
  split
  · exact (Records.builders frames).1 _ _
  · exact Records.throw _

theorem parseWith_built {compiler : Compiler} {frames : Frames} {allocator : Allocator}
    {source : Source} {n : Name} (built : (parseWith compiler frames allocator source).outcome = .ok n) :
    ∃ root s, (buildRoot frames root).run.run ⟨allocator, #[]⟩ = (.ok n, s) ∧
      (parseWith compiler frames allocator source).trace = s.trace.toList ∧
      (parseWith compiler frames allocator source).allocator = s.allocator := by
  cases toBuf : source.toBuffer with
  | error fault => simp [parseWith, toBuf] at built
  | ok buffer =>
    cases compiled : compiler buffer with
    | none => simp [parseWith, toBuf, compiled] at built
    | some c =>
      cases c with
      | rejected span => simp [parseWith, toBuf, compiled] at built
      | tree root =>
        rw [parseWith_of_tree toBuf compiled] at built ⊢
        exact ⟨root, _, Prod.ext built rfl, rfl, rfl⟩

/-- Whatever tree a name is built from, its storage calls are the name's own, in order, and its
requests are the name's four counts: its lists that are not empty, its declarations, its inputs and
its nested names. -/
theorem parseWith_reserves_exactly {compiler : Compiler} {frames : Frames} {allocator : Allocator}
    {source : Source} {n : Name} (built : (parseWith compiler frames allocator source).outcome = .ok n) :
    (parseWith compiler frames allocator source).trace = n.calls ∧
    (parseWith compiler frames allocator source).allocator =
      { allocator with requests := allocator.requests + n.tally.total } := by
  obtain ⟨root, s, ran, trace, alloc⟩ := parseWith_built built
  obtain ⟨N, rfl, trace', alloc'⟩ := Walk.Records.buildRoot frames root _ n s ran
  refine ⟨by simpa [trace] using trace', ?_⟩
  rw [alloc, alloc', Name.countP_calls]

end ArtifactNames
