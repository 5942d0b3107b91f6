import ArtifactNames.Proofs.Storage.Reserve
import ArtifactNames.Storage.Session

/-! Owned vectors under any sequence of calls, each answered by an allocator in any state: one
equation per call (`Call.run_eq`), and what a whole run keeps (`ownedVec_calls`). -/

namespace ArtifactNames.Storage

namespace OwnedVec

variable {α : Type}

theorem run_tryReserveExact (v : OwnedVec α) (n : Int) (a : Allocator) :
    (v.tryReserveExact n).run.run a =
      if v.sealed then (.error .sealed, a)
      else if v.len + n ≤ v.capacity then (.ok v, a)
      else (if a.refuses then .error (.reserve (v.len + n - v.capacity).toNat)
        else .ok { v with capacity := (v.len + n).toNat }, a.request.2) := by
  unfold tryReserveExact
  by_cases sealed : v.sealed
  · simp [sealed]
    rfl
  · by_cases roomy : (v.len : Int) + n ≤ v.capacity
    · have none : (v.len : Int) + n - v.capacity ≤ 0 := by omega
      simp [sealed, roomy, none]
      rfl
    · have short : ¬((v.len : Int) + n - v.capacity ≤ 0) := by omega
      simp only [sealed, roomy, short, Bool.false_eq_true, ↓reduceIte]
      rw [run_bind, run_request]
      cases a.refuses
      · have grown : v.capacity + ((v.len : Int) + n - v.capacity).toNat = (v.len + n).toNat := by
          omega
        simp only [Bool.not_false, ↓reduceIte, Bool.false_eq_true]
        rw [grown]
        rfl
      · rfl

theorem run_push (v : OwnedVec α) (x : α) (a : Allocator) :
    (v.push x).run.run a =
      if v.sealed then (.error .sealed, a)
      else if v.len < v.capacity then (.ok { v with items := v.items ++ [x] }, a)
      else (if a.refuses then .error (.reserve ((v.len : Int) + 1 - v.capacity).toNat)
        else .ok { v with items := v.items ++ [x], capacity := v.len + 1 }, a.request.2) := by
  unfold push
  by_cases sealed : v.sealed
  · simp [sealed]
    rfl
  · by_cases room : v.len < v.capacity
    · simp [sealed, room, Nat.not_le.mpr room]
      rfl
    · -- a full vector first asks for room for one more item
      have full : v.capacity ≤ v.len := by omega
      have short : ¬((v.len : Int) + 1 - v.capacity ≤ 0) := by omega
      simp only [sealed, room, full, Bool.false_eq_true, ↓reduceIte]
      rw [run_bind]
      unfold tryReserveExact
      simp only [sealed, short, Bool.false_eq_true, ↓reduceIte]
      rw [run_bind, run_request]
      cases a.refuses
      · have grown : v.capacity + ((v.len : Int) + 1 - v.capacity).toNat = v.len + 1 := by omega
        simp only [Bool.not_false, ↓reduceIte, Bool.false_eq_true]
        rw [grown]
        rfl
      · rfl

/-- A call its owner makes on an owned vector. A vector made with room for `n` items is the empty
vector after `reserveExact n`. -/
inductive Call (α : Type) where
  | reserveExact (additional : Int)
  | push (x : α)
  | sealUp

namespace Call

def run : Call α → OwnedVec α → Owned (OwnedVec α)
  | .reserveExact n, v => v.tryReserveExact n
  | .push x, v => v.push x
  | .sealUp, v => pure v.sealUp

def room : Call α → Int
  | .reserveExact n => n
  | .push _ => 1
  | .sealUp => 0

def pushed : Call α → List α
  | .push x => [x]
  | _ => []

def seals : Call α → Bool
  | .sealUp => true
  | _ => false

def shortfall (c : Call α) (v : OwnedVec α) : Int := v.len + c.room - v.capacity

def asks (c : Call α) (v : OwnedVec α) : Bool := !v.sealed && decide (0 < c.shortfall v)

/-- The vector after the call succeeds: the item it pushes added, room for exactly what the call
needs when it had less, and sealed when the call seals. -/
def after (c : Call α) (v : OwnedVec α) : OwnedVec α :=
  ⟨v.items ++ c.pushed, max v.capacity (v.len + c.room).toNat, v.sealed || c.seals⟩

theorem after_of_short {c : Call α} {v : OwnedVec α} (short : 0 < c.shortfall v) :
    c.after v = ⟨v.items ++ c.pushed, (v.len + c.room).toNat, v.sealed || c.seals⟩ := by
  simp only [shortfall] at short
  simp only [after, OwnedVec.mk.injEq, true_and, and_true]
  omega

theorem after_of_roomy {c : Call α} {v : OwnedVec α} (roomy : ¬0 < c.shortfall v) :
    c.after v = ⟨v.items ++ c.pushed, v.capacity, v.sealed || c.seals⟩ := by
  simp only [shortfall] at roomy
  simp only [after, OwnedVec.mk.injEq, true_and, and_true]
  omega

theorem run_eq (c : Call α) (v : OwnedVec α) (fits : v.len ≤ v.capacity) (a : Allocator) :
    (c.run v).run.run a =
      if v.sealed && !c.seals then (.error .sealed, a)
      else if c.asks v then
        (if a.refuses then .error (.reserve (c.shortfall v).toNat) else .ok (c.after v), a.request.2)
      else (.ok (c.after v), a) := by
  obtain ⟨items, capacity, sealedFlag⟩ := v
  simp only [len] at fits
  cases sealedFlag with
  | true =>
    cases c with
    | sealUp =>
      have roomy : ¬0 < (sealUp : Call α).shortfall ⟨items, capacity, true⟩ := by
        simp only [shortfall, room, len]
        omega
      simp [run, seals, asks, after_of_roomy roomy, pushed]
      rfl
    | _ => simp [run, run_tryReserveExact, run_push, seals]
  | false =>
    rw [if_neg (by simp)]
    by_cases short : 0 < c.shortfall ⟨items, capacity, false⟩
    · -- the vector is short of room: one request, and the room grows to what the call needs
      have asked : c.asks ⟨items, capacity, false⟩ = true := by simp [asks, short]
      rw [if_pos asked, after_of_short short]
      cases c with
      | reserveExact n =>
        simp only [shortfall, room, len] at short
        rw [run, run_tryReserveExact, if_neg (by simp), if_neg (by simp only [len]; omega)]
        simp [shortfall, room, pushed, seals]
      | push x =>
        simp only [shortfall, room, len] at short
        rw [run, run_push, if_neg (by simp), if_neg (by simp only [len]; omega)]
        have grown : ((items.length : Int) + 1).toNat = items.length + 1 := by omega
        simp [len, shortfall, room, pushed, seals, grown]
      | sealUp =>
        simp only [shortfall, room, len] at short
        omega
    · -- the vector has room: nothing is asked
      have quiet : c.asks ⟨items, capacity, false⟩ = false := by simp [asks, short]
      rw [if_neg (by simp [quiet]), after_of_roomy short]
      cases c with
      | reserveExact n =>
        simp only [shortfall, room, len] at short
        rw [run, run_tryReserveExact, if_neg (by simp), if_pos (by simp only [len]; omega)]
        simp [pushed, seals]
      | push x =>
        simp only [shortfall, room, len] at short
        rw [run, run_push, if_neg (by simp), if_pos (by simp only [len]; omega)]
        simp [pushed, seals]
      | sealUp =>
        simp [run, pushed, seals]
        rfl

theorem push_asks_iff (x : α) (v : OwnedVec α) (fits : v.len ≤ v.capacity) :
    (Call.push x).asks v = true ↔ v.sealed = false ∧ v.len = v.capacity := by
  simp only [asks, shortfall, room, Bool.and_eq_true, Bool.not_eq_true']
  constructor
  · rintro ⟨opened, short⟩
    have short := of_decide_eq_true short
    exact ⟨opened, by omega⟩
  · rintro ⟨opened, full⟩
    exact ⟨opened, decide_eq_true (by omega)⟩

end Call

/-- Runs calls on a vector, each answered by the allocator given with it; a call that fails keeps
the vector as it was. Gives the vector at the end and the calls that succeeded, in order. -/
def runCalls (v : OwnedVec α) : List (Call α × Allocator) → OwnedVec α × List (Call α)
  | [] => (v, [])
  | (c, a) :: rest =>
    match ((c.run v).run.run a).1 with
    | .ok w => ((runCalls w rest).1, c :: (runCalls w rest).2)
    | .error _ => runCalls v rest

/-- What a run keeps: the vector stays within its room, its room only grows, its items are those
of the pushes that succeeded, and once sealed nothing changes. -/
def Keeps (v w : OwnedVec α) (done : List (Call α)) : Prop :=
  w.len ≤ w.capacity ∧ v.capacity ≤ w.capacity ∧ w.items = v.items ++ done.flatMap Call.pushed ∧
    (v.sealed → w = v)

theorem Keeps.refl (v : OwnedVec α) (fits : v.len ≤ v.capacity) : Keeps v v [] := by
  simp [Keeps, fits]

theorem Keeps.trans {u v w : OwnedVec α} {done done' : List (Call α)} (first : Keeps u v done)
    (rest : Keeps v w done') : Keeps u w (done ++ done') := by
  obtain ⟨-, grows, items, frozen⟩ := first
  obtain ⟨fits', grows', items', frozen'⟩ := rest
  refine ⟨fits', by omega, by rw [items', items, List.flatMap_append, List.append_assoc], ?_⟩
  intro sealed
  have same := frozen sealed
  subst same
  exact frozen' sealed

theorem Call.keeps_after (c : Call α) (v : OwnedVec α) (fits : v.len ≤ v.capacity)
    (opened : (v.sealed && !c.seals) = false) : Keeps v (c.after v) [c] := by
  simp only [len] at fits
  refine ⟨?_, Nat.le_max_left _ _, by simp [after], fun sealed => ?_⟩
  · -- the items pushed fit the room the call makes for them
    cases c with
    | reserveExact n => simp only [len, after, pushed, room, List.append_nil]; omega
    | push x => simp only [len, after, pushed, room, List.length_append, List.length_singleton]; omega
    | sealUp => simp only [len, after, pushed, room, List.append_nil]; omega
  · -- on a sealed vector only sealing succeeds, and it changes nothing
    cases c with
    | sealUp =>
      obtain ⟨items, capacity, sealedFlag⟩ := v
      simp only at sealed fits
      subst sealed
      simp only [after, pushed, room, seals, List.append_nil, Bool.or_true, OwnedVec.mk.injEq,
        and_true, true_and]
      simp only [len]
      omega
    | _ => simp [seals, sealed] at opened

theorem runCalls_keeps (v : OwnedVec α) (fits : v.len ≤ v.capacity) (calls : List (Call α × Allocator)) :
    Keeps v (runCalls v calls).1 (runCalls v calls).2 := by
  induction calls generalizing v with
  | nil => exact Keeps.refl v fits
  | cons call rest ih =>
    obtain ⟨c, a⟩ := call
    have step := c.run_eq v fits a
    simp only [runCalls]
    split
    · -- the call succeeded, and left the vector it describes
      rename_i w ran
      rw [step] at ran
      have opened : (v.sealed && !c.seals) = false := by
        cases failing : (v.sealed && !c.seals) with
        | false => rfl
        | true => simp [failing] at ran
      have same : w = c.after v := by
        simp only [opened, Bool.false_eq_true, ↓reduceIte] at ran
        split at ran <;> (try split at ran) <;> simp_all
      subst same
      have kept := c.keeps_after v fits opened
      simpa using kept.trans (ih (c.after v) kept.1)
    · exact ih v fits

/-- An owned vector under any sequence of calls, each answered as the allocator likes.

One call on a vector that holds no more than its room: on a sealed vector every call but sealing
fails, asking nothing; otherwise the call asks the allocator once exactly when the vector is short
of room for it (a push only when the vector is full), fails with the shortfall when refused, and
else adds its item, grows the room to exactly what it needs when it asked and leaves it otherwise,
and seals when it seals. A failed call leaves no new vector, and a run keeps the old one.

A run of calls from such a vector keeps it within its room, never gives room back, holds the items
of the pushes that succeeded in their order, and, when the vector was sealed, changes nothing.
A vector made with no room asks nothing. -/
theorem ownedVec_calls :
    (∀ (c : Call α) (v : OwnedVec α) (a : Allocator), v.len ≤ v.capacity →
      (c.run v).run.run a =
        if v.sealed && !c.seals then (.error .sealed, a)
        else if c.asks v then
          (if a.refuses then .error (.reserve (c.shortfall v).toNat) else .ok (c.after v),
            a.request.2)
        else (.ok (c.after v), a)) ∧
    (∀ (c : Call α) (v : OwnedVec α), c.asks v = true →
      ((c.after v).capacity : Int) = v.len + c.room) ∧
    (∀ (x : α) (v : OwnedVec α), v.len ≤ v.capacity →
      ((Call.push x).asks v = true ↔ v.sealed = false ∧ v.len = v.capacity)) ∧
    (∀ (v : OwnedVec α) (calls : List (Call α × Allocator)), v.len ≤ v.capacity →
      (runCalls v calls).1.len ≤ (runCalls v calls).1.capacity ∧
      v.capacity ≤ (runCalls v calls).1.capacity ∧
      (runCalls v calls).1.items = v.items ++ (runCalls v calls).2.flatMap Call.pushed ∧
      (v.sealed → (runCalls v calls).1 = v)) ∧
    (∀ a : Allocator, (withCapacity (α := α) 0).run.run a = (.ok empty, a)) := by
  refine ⟨fun c v a fits => c.run_eq v fits a, fun c v asked => ?_,
    fun x v fits => Call.push_asks_iff x v fits, fun v calls fits => runCalls_keeps v fits calls,
    fun a => by simpa using run_withCapacity (α := α) 0 a⟩
  -- a call that asks is short of room, and then the room becomes exactly what it needs
  have short : 0 < c.shortfall v := by
    simp only [Call.asks, Bool.and_eq_true, decide_eq_true_eq] at asked
    exact asked.2
  rw [Call.after_of_short short]
  simp only [Call.shortfall] at short
  simp only
  omega

theorem ownedVec_calls_sample :
    (empty : OwnedVec Nat).len ≤ (empty : OwnedVec Nat).capacity ∧
    (runCalls (empty : OwnedVec Nat) [(.reserveExact 1, {}), (.push 7, {}),
      (.push 8, { refuseFrom := some 0 }), (.sealUp, {})]).1.items = [7] := by
  obtain ⟨-, -, -, keeps, -⟩ := ownedVec_calls (α := Nat)
  have fits : (empty : OwnedVec Nat).len ≤ (empty : OwnedVec Nat).capacity := Nat.le_refl 0
  refine ⟨fits, ?_⟩
  rw [(keeps empty _ fits).2.2.1]
  rfl

end OwnedVec

open OwnedVec in
def OwnedVec.Call.toStep : Call Value → Step
  | .reserveExact n => .reserve n
  | .push x => .push x
  | .sealUp => .sealUp

theorem Session.step_call (s : Session) (c : OwnedVec.Call Value) :
    (s.step c.toStep).after.vec = (OwnedVec.runCalls s.vec [(c, s.allocator)]).1 := by
  cases c with
  | sealUp => rfl
  | _ =>
    simp only [OwnedVec.Call.toStep, Session.step, Session.replaceBy, OwnedVec.runCalls,
      OwnedVec.Call.run]
    split <;> simp_all

end ArtifactNames.Storage
