import ArtifactNames.Storage.OwnedVec
import ArtifactNames.Storage.Value

/-! A session on one allocator and one current vector of loose values; a failing step keeps the
vector as it was. -/

namespace ArtifactNames.Storage

inductive Step where
  | fresh
  | withCapacity (count : Int)
  | ofList (items : List Value)
  | push (item : Value)
  | sealUp
  | reserve (count : Int)
  | get (index : Value)
  | box (value : Value)
  | tryAllocate
  | tryReserve (count : Int)
  | equals (items : List Value)
  deriving Repr

structure Session where
  vec : OwnedVec Value
  allocator : Allocator

/-- Why a step fails: the storage refuses, an index is out of range, does not fit a word, or is
not an integer at all. -/
inductive StepFault where
  | storage (e : StorageError)
  | index
  | indexWidth
  | indexKind (kind : String)
  deriving DecidableEq, Repr

def StepFault.message : StepFault → String
  | .storage e => e.message
  | .index => "list index out of range"
  | .indexWidth => "cannot fit 'int' into an index-sized integer"
  | .indexKind kind => s!"list indices must be integers or slices, not {kind}"

/-- A step's outcome (with the value it gives, if any) and the session after it. -/
structure StepResult where
  outcome : Except StepFault (Option Value)
  after : Session

namespace Session

def start (allocator : Allocator) : Session := ⟨.empty, allocator⟩

/-- Runs a storage operation that gives a new vector; the vector is replaced only on success. -/
def replaceBy (s : Session) (op : Owned (OwnedVec Value)) : StepResult :=
  match op.run.run s.allocator with
  | (.ok v, a) => ⟨.ok none, ⟨v, a⟩⟩
  | (.error e, a) => ⟨.error (.storage e), ⟨s.vec, a⟩⟩

def step (s : Session) : Step → StepResult
  | .fresh => ⟨.ok none, { s with vec := .empty }⟩
  | .withCapacity n => s.replaceBy (OwnedVec.withCapacity n)
  | .ofList xs => s.replaceBy (OwnedVec.ofList xs)
  | .push x => s.replaceBy (s.vec.push x)
  | .sealUp => ⟨.ok none, { s with vec := s.vec.sealUp }⟩
  | .reserve n => s.replaceBy (s.vec.tryReserveExact n)
  | .get index =>
    match index.asInt with
    | none => ⟨.error (.indexKind index.kindName), s⟩
    | some i =>
      if !OwnedVec.fitsIndexWord i then ⟨.error .indexWidth, s⟩
      else
        match s.vec.get? i with
        | some x => ⟨.ok (some x), s⟩
        | none => ⟨.error .index, s⟩
  | .box v =>
    match (Box.tryNew v).run.run s.allocator with
    | (.ok x, a) => ⟨.ok (some x), { s with allocator := a }⟩
    | (.error e, a) => ⟨.error (.storage e), { s with allocator := a }⟩
  | .tryAllocate | .tryReserve _ =>
    let (granted, a) := s.allocator.request
    ⟨.ok (some (.bool granted)), { s with allocator := a }⟩
  | .equals xs => ⟨.ok (some (.bool (Value.looseEqList s.vec.items xs))), s⟩

/-- The results of the steps, each run on the session the previous one left. -/
def run (s : Session) : List Step → List StepResult
  | [] => []
  | st :: rest =>
    let r := s.step st
    r :: run r.after rest

end Session

end ArtifactNames.Storage
