import CompiledScript.Container.Basic

/-!
# Verification of containers

A container that can be decoded may still be inconsistent.  Its header may
disagree with its top block, and an exception range may run past the end of the
code it belongs to.  The top block and the bodies in the container's tables are
looked at, and every stray range is named with the block it belongs to.
-/

namespace CompiledScript

set_option autoImplicit false

/-- What a block of a container belongs to. -/
inductive BlockOwner where
  | topLevel
  | procedure (name : String)
  | member (className name : String)
deriving DecidableEq, Inhabited, Repr

def BlockOwner.text : BlockOwner → String
  | topLevel => "top block"
  | procedure name => s!"proc {name}"
  | member className name => s!"method {className} {name}"

/-- Something inconsistent in a container. -/
inductive Inconsistency where
  /-- The exception range with the given number runs past the end of its code. -/
  | strayRange (owner : BlockOwner) (number : Nat)
  /-- The header disagrees with the top block. -/
  | counter (mismatch : CounterMismatch)
deriving DecidableEq, Inhabited, Repr

def Inconsistency.text : Inconsistency → String
  | strayRange owner number =>
    s!"exception range {number} of {owner.text} runs past the end of its code"
  | counter mismatch => mismatch.text

/-- The numbers of the exception ranges that run past the end of a block's code. -/
def Block.strayRanges (block : Block) : List Nat :=
  block.exceptions.zipIdx.filterMap fun (range, number) =>
    if range.fits block.code.length then none else some number

namespace Container

/-- The top block and the bodies in the tables, each with what it belongs to. -/
def ownedBlocks (container : Container) : List (BlockOwner × Block) :=
  (.topLevel, container.top) ::
    (container.procedures.map fun entry => (.procedure entry.name, entry.body)) ++
    container.methods.map fun entry => (.member entry.className entry.name, entry.body)

/-- The exception ranges that run past the end of their code. -/
def strayRanges (container : Container) : List (BlockOwner × Nat) :=
  container.ownedBlocks.flatMap fun (owner, block) =>
    block.strayRanges.map fun number => (owner, number)

/-- Everything inconsistent in a container, stray ranges first. -/
def inconsistencies (container : Container) : List Inconsistency :=
  (container.strayRanges.map fun (owner, number) => .strayRange owner number) ++
    (container.header.crossCheck container.top).map .counter

end Container

end CompiledScript
