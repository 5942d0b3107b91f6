import ArtifactNames.Name.Parse
import ArtifactNames.Proofs.Name.WalkSteps

/-! A refused request cuts the run short: refusing from request `k` on, the walk does what it does
with a granting allocator up to request `k`, and stops there (`Walk.Built.truncates`). -/

namespace ArtifactNames

open Syntax Storage Walk

def WalkState.refusingFrom (s : WalkState) (k : Nat) : WalkState :=
  { s with allocator := { s.allocator with refuseFrom := some (k : Int) } }

/-- Run from a state whose allocator grants everything, the walk adds the calls `N` to the trace
and makes `m` requests: one for each call that asks, but perhaps the last, when the walk failed
between that call and its request. Run from the same state with an allocator that refuses from
request `k` on, it does just the same when it makes no request with index `k`; otherwise it stops
at that request, for want of what the asking call it belongs to asked for, with the calls up to
that one in the trace. -/
def Walk.Truncates {α : Type} (w : Walk α) : Prop :=
  ∀ s : WalkState, s.allocator.refuseFrom = none →
    ∃ N m, (w.run.run s).2.trace.toList = s.trace.toList ++ N ∧
      (w.run.run s).2.allocator = { s.allocator with requests := s.allocator.requests + m } ∧
      m ≤ N.countP FactoryCall.asks ∧
      (∀ a, (w.run.run s).1 = .ok a → m = N.countP FactoryCall.asks) ∧
      ∀ k, s.allocator.requests ≤ k →
        (s.allocator.requests + m ≤ k →
          w.run.run (s.refusingFrom k) = ((w.run.run s).1, (w.run.run s).2.refusingFrom k)) ∧
        (k < s.allocator.requests + m → ∃ pre e post, N = pre ++ e :: post ∧ e.asks ∧
          pre.countP FactoryCall.asks = k - s.allocator.requests ∧
          (w.run.run (s.refusingFrom k)).1 = .error (.outOfMemory e.shortage) ∧
          (w.run.run (s.refusingFrom k)).2.trace.toList = s.trace.toList ++ pre ++ [e] ∧
          (w.run.run (s.refusingFrom k)).2.allocator =
            { refuseFrom := some k, requests := k + 1, refused := s.allocator.refused + 1 })

namespace Walk.Truncates

variable {α β : Type}

theorem still {w : Walk α} {r : Except ParseError α} (run : ∀ s, w.run.run s = (r, s)) :
    Truncates w := by
  intro s _
  refine ⟨[], 0, by simp [run], by simp [run], by simp, fun _ ok => ?_, fun k _ => ⟨fun _ => ?_, fun short => ?_⟩⟩
  · rfl
  · rw [run, run]
  · omega

theorem pure (a : α) : Truncates (Pure.pure a : Walk α) := still (run_pure a)

theorem throw (e : ParseError) : Truncates (MonadExcept.throw e : Walk α) := still (run_throw e)

theorem reach (frames : Frames) (d : Nat) : Truncates (Walk.reach frames d) := still (run_reach frames d)

theorem callRun {w : Walk Unit} {c : FactoryCall} {enters asks : Bool}
    {done after : Except ParseError Unit}
    (run : ∀ s, w.run.run s = Walk.callRun c enters asks done after s)
    (asking : asks = true → c.asks = true) (quiet : asks = false → done = .ok () → c.asks = false) :
    Truncates w := by
  intro s granting
  have grants : s.allocator.refuses = false := by simp [Allocator.refuses, granting]
  simp only [run, Walk.callRun]
  cases enters with
  | false =>
    refine ⟨[], 0, by simp, rfl, by simp, fun _ failed => ?_, fun k _ => ⟨fun _ => rfl, fun short => ?_⟩⟩
    · cases failed
    · omega
  | true =>
    cases asks with
    | false =>
      refine ⟨[c], 0, by simp, rfl, by simp, fun _ ok => ?_, fun k _ => ⟨fun _ => rfl, fun short => ?_⟩⟩
      · simp [quiet rfl ok]
      · omega
    | true =>
      have asked := asking rfl
      refine ⟨[c], 1, by simp, ?_, by simp [asked], fun _ _ => by simp [asked], fun k le => ⟨fun enough => ?_,
        fun short => ⟨[], c, [], rfl, asked, by simp; omega, ?_⟩⟩⟩
      · simp [grants, Allocator.request]
      · -- request `k` lies past this one: the allocator grants it too
        have late : ¬(k : Int) ≤ s.allocator.requests := by omega
        simp [late, granting, WalkState.refusingFrom, Allocator.request, Allocator.refuses]
      · -- this is request `k`, and the allocator refuses it
        obtain rfl : k = s.allocator.requests := by omega
        simp [WalkState.refusingFrom, Allocator.request, Allocator.refuses]

theorem bind {x : Walk α} {f : α → Walk β} (hx : Truncates x) (hf : ∀ a, Truncates (f a)) :
    Truncates (x >>= f) := by
  intro s granting
  obtain ⟨Nx, mx, traceX, allocX, leX, okX, cutX⟩ := hx s granting
  simp only [run_bind]
  cases runX : x.run.run s with
  | mk rx sx =>
    rw [runX] at traceX allocX okX cutX
    cases rx with
    | error e =>
      -- the walk stops where `x` stops, and so it does with the refusing allocator
      refine ⟨Nx, mx, traceX, allocX, leX, fun _ failed => ?_,
        fun k le => ⟨fun enough => ?_, fun short => ?_⟩⟩
      · cases failed
      · rw [(cutX k le).1 enough]
      · obtain ⟨pre, e', post, split, asks, before, failed, trace, alloc⟩ := (cutX k le).2 short
        refine ⟨pre, e', post, split, asks, before, ?_⟩
        cases cut : x.run.run (s.refusingFrom k) with
        | mk r s' =>
          rw [cut] at failed trace alloc
          dsimp only at failed trace alloc ⊢
          subst failed
          exact ⟨rfl, trace, alloc⟩
    | ok a =>
      have grantingX : sx.allocator.refuseFrom = none := by rw [allocX]; exact granting
      have requestsX : sx.allocator.requests = s.allocator.requests + mx := by rw [allocX]
      have doneX : mx = Nx.countP FactoryCall.asks := okX a rfl
      obtain ⟨Nf, mf, traceF, allocF, leF, okF, cutF⟩ := hf a sx grantingX
      dsimp only
      refine ⟨Nx ++ Nf, mx + mf, ?_, ?_, ?_, ?_, fun k le => ⟨fun enough => ?_, fun short => ?_⟩⟩
      · rw [traceF, traceX, List.append_assoc]
      · rw [allocF, allocX, Nat.add_assoc]
      · rw [List.countP_append]
        omega
      · intro b ok
        rw [List.countP_append, okF b ok, doneX]
      · -- neither part makes request `k`
        rw [(cutX k le).1 (by omega)]
        exact (cutF k (by omega)).1 (by omega)
      · by_cases inX : k < s.allocator.requests + mx
        · -- request `k` is one of those of `x`
          obtain ⟨pre, e, post, split, asks, before, failed, trace, alloc⟩ := (cutX k le).2 inX
          refine ⟨pre, e, post ++ Nf, by rw [split]; simp, asks, before, ?_⟩
          cases cut : x.run.run (s.refusingFrom k) with
          | mk r s' =>
            rw [cut] at failed trace alloc
            dsimp only at failed trace alloc ⊢
            subst failed
            exact ⟨rfl, trace, alloc⟩
        · -- request `k` is one of those of `f a`, made from where `x` left the state
          rw [(cutX k le).1 (by omega)]
          dsimp only
          obtain ⟨pre, e, post, split, asks, before, failed, trace, alloc⟩ :=
            (cutF k (by omega)).2 (by omega)
          refine ⟨Nx ++ pre, e, post, by rw [split]; simp, asks, ?_, failed, ?_, ?_⟩
          · rw [List.countP_append, before, ← doneX]
            omega
          · rw [trace, traceX]
            simp
          · rw [alloc, allocX]

theorem collection (frames : Frames) (d : Nat) (kind : CollectionKind) (count : Nat) :
    Truncates (Walk.collection frames d kind count) := by
  refine callRun (run_collection frames d kind count) (fun asks => ?_) (fun quiet done => ?_)
  · simp only [Bool.and_eq_true, decide_eq_true_eq] at asks
    simp [FactoryCall.asks, asks.1.2]
  · -- a collection that makes no request and succeeds is empty
    split at done
    · rename_i settled
      simp only [Bool.and_eq_true, Bool.or_eq_true, decide_eq_true_eq] at settled
      obtain ⟨⟨settles, room⟩, empty | fits⟩ := settled
      · simp [FactoryCall.asks, empty]
      · simp only [settles, room, fits, decide_true, Bool.and_true, Bool.true_and,
          decide_eq_false_iff_not] at quiet
        simp [FactoryCall.asks, quiet]
    · cases done

theorem node (frames : Frames) (d : Nat) (kind : NodeKind) :
    Truncates (Walk.node frames d kind) :=
  callRun (run_node frames d kind) (fun _ => rfl) (fun _ done => by cases done)

theorem copy (frames : Frames) (d : Nat) (kind : TextKind) (text : String) :
    Truncates (Walk.copy frames d kind text) :=
  callRun (run_copy frames d kind text) (fun asks => by cases asks) (fun _ _ => rfl)

end Walk.Truncates

theorem Walk.Built.truncates {α : Type} {w : Walk α} (h : Built w) : Truncates w := by
  induction h with
  | pure a => exact .pure a
  | throw e _ => exact .throw e
  | bind _ _ ihx ihf => exact ihx.bind ihf
  | reach frames d => exact .reach frames d
  | collection frames d kind count => exact .collection frames d kind count
  | node frames d kind => exact .node frames d kind
  | copy frames d kind text => exact .copy frames d kind text

theorem parseWith_of_tree {compiler : Compiler} {frames : Frames} {allocator : Allocator}
    {source : Source} {buffer : List UInt8} {root : Node} (toBuf : source.toBuffer = .ok buffer)
    (compiled : compiler buffer = some (.tree root)) :
    parseWith compiler frames allocator source =
      let run := (buildRoot frames root).run.run ⟨allocator, #[]⟩
      ⟨run.1, run.2.allocator, 1, [1], run.2.trace.toList⟩ := by
  simp only [parseWith, toBuf, compiled]
  rcases (buildRoot frames root).run.run ⟨allocator, #[]⟩ with ⟨outcome, state⟩
  rfl

/-- An allocator that refuses from request `k` on only cuts the reading of a tree short. Let the
reading with the allocator that grants everything make `R` requests. When `k < R`, the reading
fails for want of what its `k`-th asking call asked for, a collection of at least one item or a
node, with the calls up to that one in the trace, `k + 1` requests and one of them refused. When
`R ≤ k`, it does just what the granting reading does, and refuses nothing. Either way the tree is
released once. This holds for every tree, however it was made, and every stack. -/
theorem parseWith_refusal_truncates (compiler : Compiler) (frames : Frames) (source : Source)
    (buffer : List UInt8) (root : Node) (k : Nat) (toBuf : source.toBuffer = .ok buffer)
    (compiled : compiler buffer = some (.tree root)) :
    let full := parseWith compiler frames {} source
    let cut := parseWith compiler frames { refuseFrom := some k } source
    cut.releases = [1] ∧
    (k < full.allocator.requests → ∃ pre e post,
      full.trace = pre ++ e :: post ∧ pre.countP FactoryCall.asks = k ∧
      ((∃ kind n, e = .collection kind n ∧ 0 < n ∧ cut.outcome = .error (.outOfMemory .collection)) ∨
        (∃ kind, e = .node kind ∧ cut.outcome = .error (.outOfMemory .node))) ∧
      cut.trace = pre ++ [e] ∧ cut.allocator.requests = k + 1 ∧ cut.allocator.refused = 1) ∧
    (full.allocator.requests ≤ k →
      cut.outcome = full.outcome ∧ cut.trace = full.trace ∧
      cut.allocator.requests = full.allocator.requests ∧ cut.allocator.refused = 0) := by
  intro full cut
  obtain ⟨N, m, trace, alloc, -, -, truncated⟩ :=
    (Walk.Built.buildRoot frames root).truncates ⟨{}, #[]⟩ rfl
  have start : (⟨{ refuseFrom := some (k : Int) }, #[]⟩ : WalkState) =
      WalkState.refusingFrom ⟨{}, #[]⟩ k := rfl
  simp only [full, cut, parseWith_of_tree toBuf compiled, start]
  simp only [List.nil_append] at trace
  dsimp only at alloc truncated
  refine ⟨trivial, fun short => ?_, fun enough => ?_⟩
  · -- request `k` is made, and refused
    rw [alloc] at short
    obtain ⟨pre, e, post, split, asks, before, failed, cutTrace, cutAlloc⟩ :=
      (truncated k (Nat.zero_le k)).2 short
    refine ⟨pre, e, post, by rw [trace, split], before, ?_, by simpa using cutTrace,
      by rw [cutAlloc], by rw [cutAlloc]⟩
    cases e with
    | collection kind n => exact .inl ⟨kind, n, rfl, by simpa [FactoryCall.asks] using asks, failed⟩
    | node kind => exact .inr ⟨kind, rfl, failed⟩
    | text kind text => cases asks
  · -- request `k` is never made
    rw [alloc] at enough
    rw [(truncated k (Nat.zero_le k)).1 enough]
    exact ⟨rfl, rfl, rfl, by simp [WalkState.refusingFrom, alloc]⟩

theorem parseWith_refusal_truncates_first :
    (Source.bytes [0x61]).toBuffer = .ok [0x61, 0] ∧
    0 < (parseWith (handMade (.tree "name" [.tree "declarations" [.absent],
      .tree "substitution" []])) Frames.counting {} (.bytes [0x61])).allocator.requests ∧
    (parseWith (handMade (.tree "name" [.tree "declarations" [.absent], .tree "substitution" []]))
      Frames.counting { refuseFrom := some 0 } (.bytes [0x61])).allocator.refused = 1 := by
  obtain ⟨-, short, -⟩ := parseWith_refusal_truncates
    (handMade (.tree "name" [.tree "declarations" [.absent], .tree "substitution" []]))
    Frames.counting (.bytes [0x61]) [0x61, 0]
    (.tree "name" [.tree "declarations" [.absent], .tree "substitution" []]) 0 rfl rfl
  have asked : 0 < (parseWith (handMade (.tree "name" [.tree "declarations" [.absent],
      .tree "substitution" []])) Frames.counting {} (.bytes [0x61])).allocator.requests := by
    decide +kernel
  obtain ⟨-, -, -, -, -, -, -, -, refused⟩ := short asked
  exact ⟨rfl, asked, refused⟩

end ArtifactNames
