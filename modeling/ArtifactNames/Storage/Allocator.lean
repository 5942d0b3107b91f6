/-! An allocator that counts requests and refused ones, and refuses every request from index
`refuseFrom` on. -/

namespace ArtifactNames.Storage

structure Allocator where
  refuseFrom : Option Int := none
  requests : Nat := 0
  refused : Nat := 0
  deriving DecidableEq, Repr

namespace Allocator

def refuses (a : Allocator) : Bool :=
  match a.refuseFrom with
  | some k => k ≤ (a.requests : Int)
  | none => false

/-- Answers one request: whether it is granted, and the allocator after it. -/
def request (a : Allocator) : Bool × Allocator :=
  let refusal := a.refuses
  (!refusal, { a with requests := a.requests + 1, refused := a.refused + if refusal then 1 else 0 })

theorem requests_request (a : Allocator) : (a.request).2.requests = a.requests + 1 := rfl

end Allocator

end ArtifactNames.Storage
