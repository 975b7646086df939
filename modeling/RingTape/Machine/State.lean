import RingTape.Console
import RingTape.Image
import RingTape.Machine.Settings
import RingTape.Profile

/-!
# States of the machine

A machine has a ring of cells and two cursors on it: the program counter, which starts at 0, and
the head, which starts just past the program. It reads and writes on its console until it has
connected to an endpoint; from then on it reads and writes on the connection. A later connection
supersedes an earlier one, which stays open.
-/

namespace RingTape

/-- A state of the machine. -/
structure Machine (World Link : Type) where
  /-- The cells, which hold program and data. -/
  memory : Memory
  /-- The address of the next instruction. -/
  pc : UInt16
  /-- The address of the current cell. -/
  head : UInt16
  /-- The connection in use, if there is one. -/
  active : Option (Connection Link)
  /-- Earlier connections that a later one superseded, in order. They stay open. -/
  superseded : Array (Connection Link)
  /-- The console. -/
  console : Console
  /-- The state of the network. -/
  world : World
  /-- The settings. -/
  settings : Settings
  /-- The number of steps executed. -/
  steps : UInt64
  /-- The executed steps by instruction. -/
  profile : Profile
  /-- The flag that cancels a run when it is raised. -/
  stop : Bool

/-- Why a machine stopped. -/
inductive Halt where
  /-- The program came to its end. -/
  | finished
  /-- The input ended, and the settings say to stop then. -/
  | inputExhausted
  /-- The limit on steps was reached. -/
  | stepLimit
  /-- The run was cancelled. -/
  | cancelled
deriving DecidableEq, Repr

/-- The wording of a halt. -/
def Halt.message : Halt → String
  | finished => "end of program"
  | inputExhausted => "input exhausted"
  | stepLimit => "step limit reached"
  | cancelled => "cancelled"

/-- What one step came to. -/
inductive Outcome where
  /-- The machine can go on. -/
  | continued
  /-- The machine stopped. -/
  | halted (reason : Halt)
  /-- The step failed. -/
  | failed (failure : Failure)
deriving DecidableEq, Repr

namespace Machine

variable {World Link : Type}

/-- A machine at the start of a program. -/
def load (image : Image) (console : Console) (world : World) (settings : Settings) :
    Machine World Link :=
  { memory := image.memory
    pc := 0
    head := image.tapeStart
    active := none
    superseded := #[]
    console := console
    world := world
    settings := settings
    steps := 0
    profile := .empty
    stop := false }

/-- The current cell. -/
def current (m : Machine World Link) : UInt8 :=
  m.memory.get m.head

/-- The state after a write to the current cell. -/
def setCurrent (m : Machine World Link) (value : UInt8) : Machine World Link :=
  { m with memory := m.memory.set m.head value }

/-- The amount that the instruction at the program counter works with: its operand cell plus one,
modulo 256. -/
def amount (m : Machine World Link) : UInt8 :=
  m.memory.get (m.pc + 1) + 1

/-- The current cell is the cell at the head. -/
theorem current_eq (m : Machine World Link) : m.current = m.memory.get m.head :=
  rfl

/-- The amount is one more than the cell after the program counter. -/
theorem amount_eq (m : Machine World Link) : m.amount = m.memory.get (m.pc + 1) + 1 :=
  rfl

/-- Whether the limit on steps is reached. -/
def limitReached (m : Machine World Link) : Bool :=
  match m.settings.maxSteps with
  | none => false
  | some limit => limit ≤ m.steps

/-- Counts a step on a cell with the given decoding. -/
def counted (m : Machine World Link) (op : Option Opcode) : Machine World Link :=
  { m with steps := m.steps + 1, profile := m.profile.record op }

/-- A one-line summary of a machine without a connection. -/
def describe? (m : Machine World Link) : Option String :=
  match m.active with
  | some _ => none
  | none =>
    some ("Vm \x7b ip: " ++ Nat.repr m.pc.toNat ++ ", mp: " ++ Nat.repr m.head.toNat ++
      ", connection: None, superseded: " ++ Nat.repr m.superseded.size ++ ", steps: " ++
      Nat.repr m.steps.toNat ++ ", .. \x7d")

end Machine

end RingTape
