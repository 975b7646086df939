import RingTape.Machine.Step

/-!
# Runs

A run takes one turn after the other until a halt: each turn looks at the stop flag, then at the
limit on steps, and only then makes a step. Every halt is followed by the same cleanup: the
connection in use is closed, the end of the program is marked by a newline, and the console is
flushed. A step that fails ends the run without cleanup.

The steps of a machine are counted in 64 bits, so a run can take no more turns than the counter
has room for. This bounds every run, also one without a limit, and no program can tell.
-/

namespace RingTape

/-- What a run came to. -/
inductive Ending where
  /-- The machine stopped and was cleaned up. -/
  | halted (reason : Halt)
  /-- A step failed, or the cleanup. -/
  | failed (failure : Failure)
  /-- The step counter has no room left. -/
  | uncounted
deriving DecidableEq, Repr

/-- The result of a run: what it came to, the state after it, and what it did. -/
structure RunReport (World Link : Type) where
  /-- What the run came to. -/
  ending : Ending
  /-- The state after the run. -/
  machine : Machine World Link
  /-- What the run did, in order. -/
  events : Array (Event Link)

namespace Machine

variable {World Link : Type}

/-- **One turn.** A raised flag comes before the limit, and the limit before the step. -/
def turn (net : Network World Link) (raised : Bool) (m : Machine World Link) :
    Transition World Link :=
  if raised then ⟨.halted .cancelled, m, []⟩
  else if m.limitReached then ⟨.halted .stepLimit, m, []⟩
  else m.step net

/-- Takes turns until one does not continue. The flag shows the value `flag i` at the `i`-th
look. -/
def takeTurns (net : Network World Link) (flag : Nat → Bool) :
    (turns look : Nat) → Machine World Link → Array (Event Link) → RunReport World Link
  | 0, _, m, events => ⟨.uncounted, m, events⟩
  | turns + 1, look, m, events =>
    match m.turn net (flag look) with
    | ⟨.continued, m, new⟩ => takeTurns net flag turns (look + 1) m (events ++ new)
    | ⟨.halted reason, m, new⟩ => ⟨.halted reason, m, events ++ new⟩
    | ⟨.failed failure, m, new⟩ => ⟨.failed failure, m, events ++ new⟩

/-- The number of turns of a run: as many as the step counter has values from now on. Under a
limit this is enough to reach it and to find it reached, which takes a turn without a step; without
one the last turn makes the step that takes the counter back to zero. -/
def turnsLeft (m : Machine World Link) : Nat :=
  UInt64.size - m.steps.toNat

/-- Closes the connection in use. -/
def hangUp (net : Network World Link) (m : Machine World Link) :
    Machine World Link × List (Event Link) :=
  match m.active with
  | none => (m, [])
  | some connection =>
    let (fault, world) := net.close connection.link m.world
    ({ m with active := none, world := world }, [.effect (.closed connection fault)])

/-- Flushes the console at the end of a run that stopped for a reason. -/
def lastFlush (reason : Halt) (m : Machine World Link) (events : List (Event Link)) :
    RunReport World Link :=
  let (result, console) := m.console.flush
  let m := { m with console := console }
  let events := (events ++ [Event.effect (.flushed result)]).toArray
  match result with
  | .ok () => ⟨.halted reason, m, events⟩
  | .error fault => ⟨.failed (.output fault), m, events⟩

/-- **Cleanup after a halt.** The connection in use is closed whether or not the console can be
written afterwards; only the end of the program is marked by a newline. -/
def finish (net : Network World Link) (reason : Halt) (m : Machine World Link) :
    RunReport World Link :=
  let (m, events) := m.hangUp net
  if reason = .finished then
    let (result, m) := m.print [0x0a]
    let events := events ++ [Event.effect (.wrote [0x0a] result)]
    match result with
    | .ok () => lastFlush reason m events
    | .error fault => ⟨.failed (.output fault), m, events.toArray⟩
  else lastFlush reason m events

/-- **A run under a flag** that shows the value `flag i` at the `i`-th look. -/
def runWatching (net : Network World Link) (flag : Nat → Bool) (m : Machine World Link) :
    RunReport World Link :=
  let report := takeTurns net flag m.turnsLeft 0 m #[]
  match report.ending with
  | .halted reason =>
    let cleaned := report.machine.finish net reason
    { cleaned with events := report.events ++ cleaned.events }
  | _ => report

/-- **A run** under the machine's own flag, which nobody changes meanwhile. -/
def run (net : Network World Link) (m : Machine World Link) : RunReport World Link :=
  let raised := m.stop
  m.runWatching net fun _ => raised

end Machine

end RingTape
