import RingTape.Machine.Event
import RingTape.Machine.State

/-!
# One step

A step fetches the cell at the program counter, counts it, and does what it says. Mistakes of the
program never stop the machine: an unknown cell prints a message and is fetched again, a bracket
without a partner is passed over, and a failed connection prints a message. Only a console that
cannot be written fails a step, and then nothing but the counters, the console and the network has
changed, so that the same instruction is executed again by the next step.
-/

namespace RingTape

/-- The result of a step: what it came to, the state after it, and what it did. -/
structure Transition (World Link : Type) where
  /-- What the step came to. -/
  outcome : Outcome
  /-- The state after the step. -/
  machine : Machine World Link
  /-- What the step did, in order. -/
  events : List (Event Link)

/-- Printed each time the program counter rests on a cell that names no instruction. -/
def strayCellText : String := "\n\nj00 4r3 teh 5ux0r\n\n"

/-- Printed when no transport reaches an endpoint. -/
def noConnectionText : String := "\n\nh0s7 5uXz0r5! c4N'7 c0Nn3<7 l0l0l0l0l l4m3R !!!\n\n"

namespace Machine

variable {World Link : Type}

/-- Goes on `width` cells further. -/
def goOn (m : Machine World Link) (width : UInt16) (events : List (Event Link)) :
    Transition World Link :=
  ⟨.continued, { m with pc := m.pc + width }, events⟩

/-- Offers bytes to the console. -/
def print (m : Machine World Link) (bytes : List UInt8) : Except Fault Unit × Machine World Link :=
  let (result, console) := m.console.write bytes
  (result, { m with console := console })

/-- A cell that names no instruction: prints a message and stays where it is. -/
def stepStray (m : Machine World Link) (cell : UInt8) : Transition World Link :=
  let bytes := Text.utf8 strayCellText.toList
  let remark := Event.remark (.strayCell cell m.pc)
  match m.print bytes with
  | (.ok (), m) => ⟨.continued, m, [remark, .effect (.wrote bytes (.ok ()))]⟩
  | (.error fault, m) =>
    ⟨.failed (.output fault), m, [remark, .effect (.wrote bytes (.error fault))]⟩

/-- Puts the current cell on the connection, or on the console if there is none. What becomes of
a byte on a connection does not matter to the program. -/
def stepWrite (net : Network World Link) (m : Machine World Link) : Transition World Link :=
  let byte := m.current
  match m.active with
  | some connection =>
    let (result, world) := net.send connection.link byte m.world
    goOn { m with world := world } 1 [.effect (.sent connection byte result)]
  | none =>
    match m.print [byte] with
    | (.ok (), m) => m.goOn 1 [.effect (.wrote [byte] (.ok ()))]
    | (.error fault, m) => ⟨.failed (.output fault), m, [.effect (.wrote [byte] (.error fault))]⟩

/-- Takes what was read: a byte goes to the current cell, and the end of the input, or a failure
to read, is treated as the settings say. -/
def takeReading (m : Machine World Link) (reading : Reading) (events : List (Event Link)) :
    Transition World Link :=
  match reading with
  | .ok (some byte) => (m.setCurrent byte).goOn 1 events
  | _ =>
    match m.settings.onEnd with
    | .zero => (m.setCurrent 0).goOn 1 events
    | .keep => m.goOn 1 events
    | .halt => ⟨.halted .inputExhausted, m, events⟩

/-- Reads from the connection, or from the console if there is none. The console is flushed first,
and nothing is read if that fails. -/
def stepRead (net : Network World Link) (m : Machine World Link) : Transition World Link :=
  match m.active with
  | some connection =>
    let (reading, world) := net.receive connection.link m.world
    takeReading { m with world := world } reading [.effect (.received connection reading)]
  | none =>
    match m.console.flush with
    | (.error fault, console) =>
      ⟨.failed (.output fault), { m with console := console }, [.effect (.flushed (.error fault))]⟩
    | (.ok (), console) =>
      let (reading, console) := console.readByte
      takeReading { m with console := console } reading
        [.effect (.flushed (.ok ())), .effect (.read reading)]

/-- Makes a connection the one in use. -/
def adopt (m : Machine World Link) (connection : Connection Link) : Machine World Link :=
  match m.active with
  | none => { m with active := some connection }
  | some previous =>
    { m with active := some connection, superseded := m.superseded.push previous }

/-- The effect of giving up the connection in use for a new one. -/
def supersedingEvents (m : Machine World Link) : List (Event Link) :=
  match m.active with
  | none => []
  | some previous => [.effect (.superseded previous)]

/-- Dials the endpoint described by the six cells from the head on. -/
def stepConnect (net : Network World Link) (m : Machine World Link) : Transition World Link :=
  let endpoint := Endpoint.ofMemory m.memory m.head
  let (outcome, world) := dialFirst net endpoint m.settings.dial m.settings.transports m.world
  let m := { m with world := world }
  match outcome.reached with
  | some connection =>
    (m.adopt connection).goOn 1 (.effect (.dialled outcome) :: m.supersedingEvents)
  | none =>
    let bytes := Text.utf8 noConnectionText.toList
    match m.print bytes with
    | (.ok (), m) => m.goOn 1 [.effect (.dialled outcome), .effect (.wrote bytes (.ok ()))]
    | (.error fault, m) =>
      ⟨.failed (.output fault), m,
        [.effect (.dialled outcome), .effect (.wrote bytes (.error fault))]⟩

/-- Jumps past the partner of the bracket at the program counter; a bracket without a partner is
passed over. -/
def jumpPast (m : Machine World Link) (dir : Direction) : Transition World Link :=
  match m.memory.matchingBracket m.pc dir with
  | some address => ⟨.continued, { m with pc := address + 1 }, []⟩
  | none => m.goOn 1 [.remark (.unmatched m.pc dir)]

/-- Executes an instruction at the program counter. -/
def execute (net : Network World Link) (m : Machine World Link) : Opcode → Transition World Link
  | .nop => m.goOn 1 []
  | .write => m.stepWrite net
  | .read => m.stepRead net
  | .opening => if m.current = 0 then m.jumpPast .forward else m.goOn 1 []
  | .closing => if m.current = 0 then m.goOn 1 [] else m.jumpPast .backward
  | .forward => goOn { m with head := m.head + m.amount.toUInt16 } 2 []
  | .backward => goOn { m with head := m.head - m.amount.toUInt16 } 2 []
  | .increment => (m.setCurrent (m.current + m.amount)).goOn 2 []
  | .decrement => (m.setCurrent (m.current - m.amount)).goOn 2 []
  | .connect => m.stepConnect net
  | .finish => ⟨.halted .finished, m, []⟩

/-- **One step.** The fetched cell is counted whatever comes of it. -/
def step (net : Network World Link) (m : Machine World Link) : Transition World Link :=
  let cell := m.memory.get m.pc
  match Opcode.decode cell with
  | none => (m.counted none).stepStray cell
  | some op => (m.counted (some op)).execute net op

/-- The state after a number of steps, one after the other, whatever each of them comes to. -/
def after (net : Network World Link) (m : Machine World Link) : Nat → Machine World Link
  | 0 => m
  | n + 1 => ((m.after net n).step net).machine

end Machine

end RingTape
