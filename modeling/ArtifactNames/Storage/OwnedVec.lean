import ArtifactNames.Storage.Allocator

/-! Owned vectors and boxes: growing a vector past its capacity asks for the shortfall in one
request, a refusal leaves it as it was, and a sealed vector takes nothing more. -/

namespace ArtifactNames.Storage

structure OwnedVec (α : Type) where
  items : List α
  capacity : Nat
  sealed : Bool
  deriving Repr

/-- Why an operation on owned storage fails. -/
inductive StorageError where
  | sealed
  | reserve (requested : Nat)
  | box
  deriving DecidableEq, Repr

def StorageError.message : StorageError → String
  | .sealed => "sequence is sealed"
  | .reserve n => s!"failed to reserve capacity for {n} item(s)"
  | .box => "failed to allocate owned reference"

/-- Storage operations against an allocator. -/
abbrev Owned := ExceptT StorageError (StateM Allocator)

namespace Owned

def request : Owned Bool := do
  let (granted, a) := (← get).request
  set a
  pure granted

end Owned

namespace OwnedVec

variable {α : Type}

def empty : OwnedVec α := ⟨[], 0, false⟩

def len (v : OwnedVec α) : Nat := v.items.length

/-- Makes room for `additional` more items than the vector holds; asks for the shortfall only. -/
def tryReserveExact (v : OwnedVec α) (additional : Int) : Owned (OwnedVec α) := do
  if v.sealed then throw .sealed
  let need : Int := v.len + additional - v.capacity
  if need ≤ 0 then return v
  unless (← Owned.request) do throw (.reserve need.toNat)
  pure { v with capacity := v.capacity + need.toNat }

/-- Adds an item at the end, first making room for one when the vector is full. -/
def push (v : OwnedVec α) (x : α) : Owned (OwnedVec α) := do
  if v.sealed then throw .sealed
  let v ← if v.capacity ≤ v.len then v.tryReserveExact 1 else pure v
  pure { v with items := v.items ++ [x] }

def sealUp (v : OwnedVec α) : OwnedVec α := { v with sealed := true }

def withCapacity (count : Int) : Owned (OwnedVec α) := empty.tryReserveExact count

/-- A sealed vector of the given items, reserved in one request. -/
def ofList (xs : List α) : Owned (OwnedVec α) := do
  let v ← withCapacity xs.length
  let v ← xs.foldlM (fun v x => v.push x) v
  pure v.sealUp

/-- Whether an index fits a signed 64-bit word, as an index must before it is looked up. -/
def fitsIndexWord (index : Int) : Bool :=
  let limit : Int := Nat.pow 2 63
  decide (-limit ≤ index) && decide (index < limit)

/-- The item at an index; a negative index counts from the end. -/
def get? (v : OwnedVec α) (index : Int) : Option α :=
  let i := if index < 0 then index + v.len else index
  if 0 ≤ i then v.items[i.toNat]? else none

end OwnedVec

/-- A box: one request for one value. -/
def Box.tryNew {α : Type} (x : α) : Owned α := do
  unless (← Owned.request) do throw .box
  pure x

end ArtifactNames.Storage
