import ArtifactNames.Storage.OwnedVec

/-! Reserving a vector for exactly the items it gets: it asks once when there are any, pushing into
room asks nothing, and it ends sealed with as much room as it holds (`run_ofList`). -/

namespace ArtifactNames.Storage

namespace OwnedVec

variable {α : Type}

theorem run_request (a : Allocator) : Owned.request.run.run a = (.ok !a.refuses, a.request.2) := rfl

theorem run_bind {β : Type} (x : Owned α) (f : α → Owned β) (a : Allocator) :
    (x >>= f).run.run a = match x.run.run a with
      | (.ok v, a') => (f v).run.run a'
      | (.error e, a') => (.error e, a') := by
  simp only [ExceptT.run_bind, StateT.run_bind]
  rcases x.run.run a with ⟨_ | _, _⟩ <;> rfl

theorem run_withCapacity (count : Nat) (a : Allocator) :
    (withCapacity (α := α) count).run.run a =
      if count = 0 then (.ok empty, a)
      else (if a.refuses then .error (.reserve count) else .ok ⟨[], count, false⟩, a.request.2) := by
  have need : (empty (α := α)).len + (count : Int) - (empty (α := α)).capacity = count := by
    simp [empty, len]
  unfold withCapacity tryReserveExact
  rw [if_neg (by simp [empty]), need]
  rcases Nat.eq_zero_or_pos count with rfl | pos
  · simp
    rfl
  · rw [if_neg (by omega), if_neg (by omega), run_bind, run_request]
    cases refuses : a.refuses
    · simp [empty]
      rfl
    · rfl

theorem run_push_of_lt {v : OwnedVec α} (unsealed : v.sealed = false) (room : v.len < v.capacity)
    (x : α) (a : Allocator) : (v.push x).run.run a = (.ok { v with items := v.items ++ [x] }, a) := by
  unfold push
  simp [unsealed, Nat.not_le.mpr room]
  rfl

theorem run_foldlM_push (xs : List α) {v : OwnedVec α} (unsealed : v.sealed = false)
    (room : v.len + xs.length ≤ v.capacity) (a : Allocator) :
    (xs.foldlM (fun (w : OwnedVec α) x => w.push x) v).run.run a =
      (.ok { v with items := v.items ++ xs }, a) := by
  induction xs generalizing v with
  | nil => simp; rfl
  | cons x xs ih =>
    simp only [List.length_cons] at room
    rw [List.foldlM_cons, run_bind, run_push_of_lt unsealed (by omega) x a]
    simpa using ih (v := { v with items := v.items ++ [x] }) unsealed (by simp [len] at room ⊢; omega)

theorem run_ofList (xs : List α) (a : Allocator) :
    (ofList xs).run.run a = match (withCapacity (α := α) xs.length).run.run a with
      | (.ok _, a') => (.ok ⟨xs, xs.length, true⟩, a')
      | (.error e, a') => (.error e, a') := by
  unfold ofList
  rw [run_bind, run_withCapacity]
  by_cases none : xs.length = 0
  · obtain rfl := List.eq_nil_of_length_eq_zero none
    rfl
  · rw [if_neg none]
    cases refuses : a.refuses
    · simp only [Bool.false_eq_true, ↓reduceIte]
      rw [run_bind, run_foldlM_push xs rfl (by simp [len])]
      rfl
    · rfl

end OwnedVec

end ArtifactNames.Storage
