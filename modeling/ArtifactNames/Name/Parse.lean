import ArtifactNames.Name.Build
import ArtifactNames.Source.Input
import ArtifactNames.Syntax.Compile

/-! Reading a name from its source: the source becomes a buffer, the compiler runs once on it, and a
tree it returns is walked into a name and then released exactly once. -/

namespace ArtifactNames

open Syntax Storage

/-- A compiler: a tree for a buffer, a rejection with its span, or nothing to report. -/
abbrev Compiler := List UInt8 → Option Compiled

/-- The grammar as a compiler. -/
def grammarCompiler : Compiler := fun buffer =>
  match compile buffer with
  | .ok compiled => some compiled
  | .error _ => none

/-- A compiler that rejects every buffer and has nothing to report. -/
def silentCompiler : Compiler := fun _ => none

/-- A compiler that ignores the buffer and hands over a tree made by hand. -/
def handMade (root : Node) : Compiler := fun _ => some (.tree root)

/-- What reading did: its outcome, the allocator after it, how many times the compiler ran, how
many times each compiled tree was released, and the storage calls in order. -/
structure Report where
  outcome : Except ParseError Name
  allocator : Allocator
  compileCalls : Nat
  releases : List Nat
  trace : List FactoryCall

def parseWith (compiler : Compiler) (frames : Frames) (allocator : Allocator) (source : Source) :
    Report :=
  match source.toBuffer with
  | .error fault => ⟨.error (.invalidInput fault), allocator, 0, [], []⟩
  | .ok buffer =>
    match compiler buffer with
    | none => ⟨.error (.rejected Span.unknown), allocator, 1, [], []⟩
    | some (.rejected span) => ⟨.error (.rejected span), allocator, 1, [], []⟩
    | some (.tree root) =>
      let (outcome, state) := (buildRoot frames root).run.run ⟨allocator, #[]⟩
      ⟨outcome, state.allocator, 1, [1], state.trace.toList⟩

namespace Frames

/-- The deepest frame a walk may reach. -/
def stackLimit : Nat := 1000

/-- Reading into an allocator that counts requests; the walk starts six frames deep. -/
def counting : Frames := ⟨stackLimit, 6, false, 2⟩

/-- Reading through a policy that records each call; the walk starts five frames deep. -/
def recording : Frames := ⟨stackLimit, 5, true, 2⟩

/-- Reading with the allocator that grants everything; the walk starts seven frames deep. -/
def granting : Frames := ⟨stackLimit, 7, false, 1⟩

end Frames

/-- Reads a name with the grammar and the allocator that grants everything. -/
def parse (source : Source) : Except ParseError Name :=
  (parseWith grammarCompiler Frames.granting {} source).outcome

end ArtifactNames
