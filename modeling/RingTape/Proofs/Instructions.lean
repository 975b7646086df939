import RingTape.Machine.Step

/-!
# What an instruction does, case by case

A step is decided by the cell it fetches and by the answers it gets: whether a
connection is in use, whether the console takes what is offered to it, whether an
endpoint is reached.  This module says what the step is in each case, so that
later proofs name the case they are in and never open the definition of an
instruction.

`fetched` is the instruction a step is about to execute, and `offering` is what
that instruction puts on the console, if it puts anything there.  Whatever is put
there decides the step in one way (`proceed`): the step goes on if the console has
taken all of it, and fails if not.
-/

namespace RingTape
namespace Machine

variable {World Link : Type} {net : Network World Link} {m : Machine World Link}
variable {result : Except Fault Unit} {console : Console}

/-- The instruction at the program counter, if the cell there names one. -/
def fetched (m : Machine World Link) : Option Opcode :=
  Opcode.decode (m.memory.get m.pc)

/-- What the step at the program counter writes on the console when it writes there. -/
def offering (m : Machine World Link) : List UInt8 :=
  match m.fetched with
  | none => Text.utf8 strayCellText.toList
  | some .write => [m.current]
  | some .connect => Text.utf8 noConnectionText.toList
  | some _ => []

/-- Goes on if the console has taken what was written, and fails if not. -/
def proceed (m : Machine World Link) (width : UInt16) (result : Except Fault Unit)
    (events : List (Event Link)) : Transition World Link :=
  match result with
  | .ok () => m.goOn width events
  | .error fault => ⟨.failed (.output fault), m, events⟩

theorem step_of_fetched_none (h : m.fetched = none) :
    m.step net = (m.counted none).stepStray (m.memory.get m.pc) := by
  rw [fetched] at h
  simp only [step, h]

theorem step_of_fetched_some {op : Opcode} (h : m.fetched = some op) :
    m.step net = (m.counted (some op)).execute net op := by
  rw [fetched] at h
  simp only [step, h]

/-! ## Cells that name no instruction -/

theorem stepStray_offered {cell : UInt8}
    (h : m.console.write (Text.utf8 strayCellText.toList) = (result, console)) :
    m.stepStray cell = proceed { m with console := console } 0 result
      [.remark (.strayCell cell m.pc),
        .effect (.wrote (Text.utf8 strayCellText.toList) result)] := by
  cases result with
  | ok => simp only [stepStray, print, h, proceed, goOn, UInt16.add_zero]
  | error fault => simp only [stepStray, print, h, proceed]

/-! ## Writing -/

theorem stepWrite_connected {connection : Connection Link} (h : m.active = some connection) :
    m.stepWrite net = goOn { m with world := (net.send connection.link m.current m.world).2 } 1
      [.effect (.sent connection m.current (net.send connection.link m.current m.world).1)] := by
  simp only [stepWrite, h]

theorem stepWrite_offered (h : m.active = none)
    (hwrite : m.console.write [m.current] = (result, console)) :
    m.stepWrite net = proceed { m with console := console } 1 result
      [.effect (.wrote [m.current] result)] := by
  cases result <;> simp only [stepWrite, h, print, hwrite, proceed]

/-! ## Reading -/

theorem stepRead_connected {connection : Connection Link} (h : m.active = some connection) :
    m.stepRead net = takeReading { m with world := (net.receive connection.link m.world).2 }
      (net.receive connection.link m.world).1
      [.effect (.received connection (net.receive connection.link m.world).1)] := by
  simp only [stepRead, h]

theorem stepRead_unflushed {fault : Fault} (h : m.active = none)
    (hflush : m.console.flush = (.error fault, console)) :
    m.stepRead net = ⟨.failed (.output fault), { m with console := console },
      [.effect (.flushed (.error fault))]⟩ := by
  simp only [stepRead, h, hflush]

theorem stepRead_flushed (h : m.active = none)
    (hflush : m.console.flush = (.ok (), console)) :
    m.stepRead net = takeReading { m with console := console.readByte.2 } console.readByte.1
      [.effect (.flushed (.ok ())), .effect (.read console.readByte.1)] := by
  simp only [stepRead, h, hflush]

/-! ## Connecting -/

section Connecting

variable {outcome : Dialled Link} {world : World}
variable (hdial : dialFirst net (Endpoint.ofMemory m.memory m.head) m.settings.dial
  m.settings.transports m.world = (outcome, world))
include hdial

theorem stepConnect_reached {connection : Connection Link}
    (hreached : outcome.reached = some connection) :
    m.stepConnect net = (adopt { m with world := world } connection).goOn 1
      (.effect (.dialled outcome) :: m.supersedingEvents) := by
  simp only [stepConnect, hdial, hreached]
  rfl

theorem stepConnect_offered (hreached : outcome.reached = none)
    (hwrite : m.console.write (Text.utf8 noConnectionText.toList) = (result, console)) :
    m.stepConnect net = proceed { m with console := console, world := world } 1 result
      [.effect (.dialled outcome),
        .effect (.wrote (Text.utf8 noConnectionText.toList) result)] := by
  cases result <;> simp only [stepConnect, hdial, hreached, print, hwrite, proceed]

end Connecting

/-! ## Brackets -/

theorem jumpPast_matched {dir : Direction} {address : UInt16}
    (h : m.memory.matchingBracket m.pc dir = some address) :
    m.jumpPast dir = ⟨.continued, { m with pc := address + 1 }, []⟩ := by
  simp only [jumpPast, h]

theorem jumpPast_unmatched {dir : Direction} (h : m.memory.matchingBracket m.pc dir = none) :
    m.jumpPast dir = m.goOn 1 [.remark (.unmatched m.pc dir)] := by
  simp only [jumpPast, h]

end Machine
end RingTape
