import ArtifactNames.Name.Parse
import ArtifactNames.Proofs.Name.WalkSteps

/-! Compiling once and releasing once: a tree the compiler gives is released exactly once, whatever
the walk ends in, and the walk never fails as the two failures that leave no tree. -/

namespace ArtifactNames

open Syntax Storage Walk

def Walk.FailsOwn {α : Type} (w : Walk α) : Prop :=
  ∀ s e, (w.run.run s).1 = .error e → e.OfWalk

namespace Walk.FailsOwn

theorem pure {α : Type} (a : α) : FailsOwn (Pure.pure a : Walk α) := by
  intro s e h
  cases h

theorem throw {α : Type} {e : ParseError} (h : e.OfWalk) : FailsOwn (MonadExcept.throw e : Walk α) := by
  intro s e' failed
  cases failed
  exact h

theorem bind {α β : Type} {x : Walk α} {f : α → Walk β} (hx : FailsOwn x) (hf : ∀ a, FailsOwn (f a)) :
    FailsOwn (x >>= f) := by
  intro s e failed
  simp only [ExceptT.run_bind, StateT.run_bind] at failed
  cases run : x.run.run s with
  | mk r s' =>
    rw [run] at failed
    cases r with
    | ok a => exact hf a s' e failed
    | error e' =>
      have same : (Except.error e' : Except ParseError β) = .error e := failed
      injection same with same
      exact hx s e (by rw [run, same])

theorem of_ok {α : Type} {w : Walk α} (ok : ∀ s, ∃ a s', w.run.run s = (.ok a, s')) : FailsOwn w := by
  intro s e failed
  obtain ⟨a, s', run⟩ := ok s
  rw [run] at failed
  cases failed

theorem reach (frames : Frames) (d : Nat) : FailsOwn (Walk.reach frames d) := by
  unfold Walk.reach
  split
  · exact pure ()
  · exact throw trivial

theorem enterPolicy (frames : Frames) (d : Nat) (call : FactoryCall) :
    FailsOwn (Walk.enterPolicy frames d call) := by
  have record : FailsOwn (Walk.record call) := of_ok fun s => ⟨(), _, rfl⟩
  unfold Walk.enterPolicy
  split
  · exact (reach _ _).bind fun _ => record.bind fun _ => (reach _ _).bind fun _ => pure _
  · exact (reach _ _).bind fun _ => record.bind fun _ => pure _

theorem collection (frames : Frames) (d : Nat) (kind : CollectionKind) (count : Nat) :
    FailsOwn (Walk.collection frames d kind count) := by
  have request : FailsOwn Walk.request := of_ok fun s => ⟨_, _, rfl⟩
  unfold Walk.collection
  refine (enterPolicy _ _ _).bind fun p => (reach _ _).bind fun _ => ?_
  split
  · refine (reach _ _).bind fun _ => request.bind fun granted => ?_
    cases granted
    · exact throw trivial
    · exact pure ()
  · exact pure ()

theorem node (frames : Frames) (d : Nat) (kind : NodeKind) : FailsOwn (Walk.node frames d kind) := by
  have request : FailsOwn Walk.request := of_ok fun s => ⟨_, _, rfl⟩
  unfold Walk.node
  refine (enterPolicy _ _ _).bind fun p => (reach _ _).bind fun _ => request.bind fun granted => ?_
  cases granted
  · exact throw trivial
  · exact reach _ _

end Walk.FailsOwn

theorem Walk.Built.failsOwn {α : Type} {w : Walk α} (h : Built w) : FailsOwn w := by
  induction h with
  | pure a => exact .pure a
  | throw e ofWalk => exact .throw ofWalk
  | bind _ _ ihx ihf => exact ihx.bind ihf
  | reach frames d => exact .reach frames d
  | collection frames d kind count => exact .collection frames d kind count
  | node frames d kind => exact .node frames d kind
  | copy frames d kind text => exact (FailsOwn.enterPolicy _ _ _).bind fun _ => .pure ()

/-- The compiler runs once unless the source cannot become a buffer, and a tree it gives is
released exactly once, whatever the walk over it ends in; nothing is released when no tree was
given, that is when the source cannot become a buffer or the text is rejected. A compiler with
nothing to report gives a syntax error with no position, `syntax error`. This holds for every
compiler, trees made by hand included, every stack and every allocator. -/
theorem parseWith_compiles_once_releases_once (compiler : Compiler) (frames : Frames)
    (allocator : Allocator) (source : Source) :
    let r := parseWith compiler frames allocator source
    (r.compileCalls = 0 ↔ ∃ f, r.outcome = .error (.invalidInput f)) ∧
    (r.compileCalls = 0 ∨ r.compileCalls = 1) ∧
    (r.releases = [] ↔ (∃ f, r.outcome = .error (.invalidInput f)) ∨
      ∃ span, r.outcome = .error (.rejected span)) ∧
    (r.releases = [] ∨ r.releases = [1]) ∧
    ∀ buffer, source.toBuffer = .ok buffer → compiler buffer = none →
      r.outcome = .error (.rejected Span.unknown) ∧
      (ParseError.rejected Span.unknown).message = "syntax error" := by
  intro r
  have silent : (ParseError.rejected Span.unknown).message = "syntax error" := rfl
  unfold r parseWith
  cases toBuf : source.toBuffer with
  | error fault => simp
  | ok buffer =>
    dsimp only
    cases compiled : compiler buffer with
    | none => simp [silent]
    | some c =>
      cases c with
      | rejected span => simp [compiled]
      | tree root =>
        dsimp only
        have own := (Walk.Built.buildRoot frames root).failsOwn ⟨allocator, #[]⟩
        split
        rename_i outcome state run
        rw [run] at own
        -- a failure of the walk is neither of the two that leave no tree
        have notInput : ∀ f, outcome ≠ .error (.invalidInput f) := fun f same => own _ same
        have notRejected : ∀ span, outcome ≠ .error (.rejected span) := fun span same => own _ same
        simp [notInput, notRejected, compiled]

end ArtifactNames
