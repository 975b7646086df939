import RingTape.Memory

/-!
# Matching brackets

The partner of a bracket is found by walking the ring one cell at a time and counting depth.
Every cell on the way counts by what it decodes to, operand and data cells included, and nothing
is remembered between searches: the answer is always that of the present contents. The walk makes
one full lap, so the cell it started from is the last one it looks at.
-/

namespace RingTape

/-- The way a search for a bracket goes. -/
inductive Direction where
  /-- Toward higher addresses, for the closing bracket of an opening one. -/
  | forward
  /-- Toward lower addresses, for the opening bracket of a closing one. -/
  | backward
deriving DecidableEq, Repr

namespace Direction

/-- The neighbour of an address. -/
def advance : Direction → UInt16 → UInt16
  | forward, a => a + 1
  | backward, a => a - 1

/-- The bracket that lessens the depth. -/
def closer : Direction → Opcode
  | forward => .closing
  | backward => .opening

/-- The bracket that adds to the depth. -/
def opener : Direction → Opcode
  | forward => .opening
  | backward => .closing

/-- The name used in diagnostics. -/
def name : Direction → String
  | forward => "Forward"
  | backward => "Backward"

end Direction

namespace Memory

/-- Walks on from address `a`, which lies inside `depth` open brackets, for at most `left` cells,
and gives the address at which the depth reaches zero. -/
def seek (m : Memory) (dir : Direction) : (left depth : Nat) → (a : UInt16) → Option UInt16
  | 0, _, _ => none
  | left + 1, depth, a =>
    let next := dir.advance a
    let cell := m.get next
    if dir.closer.isNamedBy cell then
      if depth = 1 then some next else m.seek dir left (depth - 1) next
    else if dir.opener.isNamedBy cell then m.seek dir left (depth + 1) next
    else m.seek dir left depth next

/-- **The partner of a bracket.** The search starts beside the given address, at depth one, and
ends after a full lap. -/
def matchingBracket (m : Memory) (start : UInt16) (dir : Direction) : Option UInt16 :=
  m.seek dir size 1 start

end Memory

end RingTape
