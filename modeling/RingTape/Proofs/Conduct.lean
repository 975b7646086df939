import RingTape.Machine.Run
import RingTape.Proofs.Instructions

/-!
# What a machine does to the outside, as rules

The outside of a machine is its console, the world of its network, and the
connections it holds: its *front*.  Each step deals with the front in one of ten
ways, decided by the fetched cell, by whether a connection is in use, and by the
answers of the console and the network.  `Conduct` lists these ways as rules.  A
rule says which effects the step has, in order and with the answers that the
console and the network really gave, what the step comes to, and which front it
leaves; what a rule does not mention is untouched.

`Cleanup` lists in the same way what the cleanup after a halt does.

`step_conduct` and `finish_cleanup` say that every step and every cleanup follows a
rule.  Statements about what the outside sees, or about where connections are, take
their cases from these two and never open the definition of an instruction.
-/

namespace RingTape

/-- The part of a machine that meets the outside. -/
structure Front (World Link : Type) where
  /-- The console. -/
  console : Console
  /-- The state of the network. -/
  world : World
  /-- The connection in use, if there is one. -/
  active : Option (Connection Link)
  /-- The superseded connections, in order. -/
  superseded : List (Connection Link)

/-- What a step comes to that depends on the console alone. -/
def Outcome.ofAnswer : Except Fault Unit → Outcome
  | .ok () => .continued
  | .error fault => .failed (.output fault)

/-- What a step comes to that has read.  Only a policy to halt stops the machine, and
only where no byte was read. -/
def EndPolicy.outcome (policy : EndPolicy) : Reading → Outcome
  | .ok (some _) => .continued
  | _ => if policy = .halt then .halted .inputExhausted else .continued

/-- What a cleanup comes to whose last flush was answered. -/
def Ending.ofFlush (reason : Halt) : Except Fault Unit → Ending
  | .ok () => .halted reason
  | .error fault => .failed (.output fault)

/-- Effects of two lists of events, one after the other. -/
@[simp] theorem effectsOf_append {Link : Type} (first second : List (Event Link)) :
    effectsOf (first ++ second) = effectsOf first ++ effectsOf second :=
  List.filterMap_append

namespace Machine

variable {World Link : Type}

/-- The front of a machine. -/
def front (m : Machine World Link) : Front World Link :=
  ⟨m.console, m.world, m.active, m.superseded.toList⟩

/-- What comes of dialling the endpoint at the head. -/
def dialling (net : Network World Link) (m : Machine World Link) : Dialled Link × World :=
  dialFirst net (Endpoint.ofMemory m.memory m.head) m.settings.dial m.settings.transports m.world

/-- **The rules of a step.** -/
inductive Conduct (net : Network World Link) (m : Machine World Link) :
    List (Effect Link) → Outcome → Front World Link → Prop where
  /-- A cell that names no instruction is told of on the console. -/
  | stray {result : Except Fault Unit} {console : Console} (hfetched : m.fetched = none)
      (hwrite : m.console.write (Text.utf8 strayCellText.toList) = (result, console)) :
      Conduct net m [.wrote (Text.utf8 strayCellText.toList) result] (.ofAnswer result)
        { m.front with console := console }
  /-- Writing with a connection sends the cell at the head, and whatever comes of it is
  ignored. -/
  | sent {connection : Connection Link} {result : Except Fault Unit} {world : World}
      (hfetched : m.fetched = some .write) (hactive : m.active = some connection)
      (hsend : net.send connection.link (m.memory.get m.head) m.world = (result, world)) :
      Conduct net m [.sent connection (m.memory.get m.head) result] .continued
        { m.front with world := world }
  /-- Writing without a connection puts the cell at the head on the console. -/
  | wrote {result : Except Fault Unit} {console : Console}
      (hfetched : m.fetched = some .write) (hactive : m.active = none)
      (hwrite : m.console.write [m.memory.get m.head] = (result, console)) :
      Conduct net m [.wrote [m.memory.get m.head] result] (.ofAnswer result)
        { m.front with console := console }
  /-- Reading with a connection receives from it. -/
  | received {connection : Connection Link} {reading : Reading} {world : World}
      (hfetched : m.fetched = some .read) (hactive : m.active = some connection)
      (hreceive : net.receive connection.link m.world = (reading, world)) :
      Conduct net m [.received connection reading] (m.settings.onEnd.outcome reading)
        { m.front with world := world }
  /-- Reading without a connection flushes the console, and reads nothing if that
  fails. -/
  | unflushed {fault : Fault} {console : Console}
      (hfetched : m.fetched = some .read) (hactive : m.active = none)
      (hflush : m.console.flush = (.error fault, console)) :
      Conduct net m [.flushed (.error fault)] (.failed (.output fault))
        { m.front with console := console }
  /-- Reading without a connection reads from the console that was flushed. -/
  | read {flushed console : Console} {reading : Reading}
      (hfetched : m.fetched = some .read) (hactive : m.active = none)
      (hflush : m.console.flush = (.ok (), flushed))
      (hread : flushed.readByte = (reading, console)) :
      Conduct net m [.flushed (.ok ()), .read reading] (m.settings.onEnd.outcome reading)
        { m.front with console := console }
  /-- A connection that was reached takes the place of the one in use. -/
  | reached {outcome : Dialled Link} {world : World} {connection : Connection Link}
      (hfetched : m.fetched = some .connect) (hdial : m.dialling net = (outcome, world))
      (hreached : outcome.reached = some connection) :
      Conduct net m (.dialled outcome :: m.active.toList.map .superseded) .continued
        ⟨m.console, world, some connection, m.superseded.toList ++ m.active.toList⟩
  /-- A dial without success is told of on the console. -/
  | unreached {outcome : Dialled Link} {world : World} {result : Except Fault Unit}
      {console : Console} (hfetched : m.fetched = some .connect)
      (hdial : m.dialling net = (outcome, world)) (hreached : outcome.reached = none)
      (hwrite : m.console.write (Text.utf8 noConnectionText.toList) = (result, console)) :
      Conduct net m
        [.dialled outcome, .wrote (Text.utf8 noConnectionText.toList) result] (.ofAnswer result)
        { m.front with console := console, world := world }
  /-- The end of the program. -/
  | finished (hfetched : m.fetched = some .finish) :
      Conduct net m [] (.halted .finished) m.front
  /-- Every other instruction keeps to the ring. -/
  | quiet {op : Opcode} (hfetched : m.fetched = some op)
      (hop : op ∉ [Opcode.write, .read, .connect, .finish]) :
      Conduct net m [] .continued m.front

section Parts

variable (m : Machine World Link)

@[simp] theorem outcome_proceed (width : UInt16) (result : Except Fault Unit)
    (events : List (Event Link)) : (m.proceed width result events).outcome = .ofAnswer result := by
  cases result <;> rfl

@[simp] theorem front_proceed (width : UInt16) (result : Except Fault Unit)
    (events : List (Event Link)) : (m.proceed width result events).machine.front = m.front := by
  cases result <;> rfl

@[simp] theorem events_proceed (width : UInt16) (result : Except Fault Unit)
    (events : List (Event Link)) : (m.proceed width result events).events = events := by
  cases result <;> rfl

@[simp] theorem outcome_takeReading (reading : Reading) (events : List (Event Link)) :
    (m.takeReading reading events).outcome = m.settings.onEnd.outcome reading := by
  rcases reading with fault | _ | byte
  · cases h : m.settings.onEnd <;> simp [takeReading, h, EndPolicy.outcome, goOn]
  · cases h : m.settings.onEnd <;> simp [takeReading, h, EndPolicy.outcome, goOn]
  · rfl

@[simp] theorem front_takeReading (reading : Reading) (events : List (Event Link)) :
    (m.takeReading reading events).machine.front = m.front := by
  unfold takeReading
  split
  · rfl
  · split <;> rfl

@[simp] theorem events_takeReading (reading : Reading) (events : List (Event Link)) :
    (m.takeReading reading events).events = events := by
  unfold takeReading
  split
  · rfl
  · split <;> rfl

theorem front_adopt (connection : Connection Link) : (m.adopt connection).front =
    ⟨m.console, m.world, some connection, m.superseded.toList ++ m.active.toList⟩ := by
  unfold adopt
  cases hactive : m.active <;> simp [front]

theorem effectsOf_supersedingEvents :
    effectsOf m.supersedingEvents = m.active.toList.map .superseded := by
  unfold supersedingEvents
  cases hactive : m.active <;> rfl

end Parts

variable {net : Network World Link} {m : Machine World Link}

/-- What passes over a bracket, or to its partner, keeps to the ring. -/
theorem jumpPast_conduct {dir : Direction} {op : Opcode} (hfetched : m.fetched = some op)
    (hop : op ∉ [Opcode.write, .read, .connect, .finish]) :
    m.Conduct net (effectsOf (m.jumpPast dir).events) (m.jumpPast dir).outcome
      (m.jumpPast dir).machine.front := by
  cases hpartner : m.memory.matchingBracket m.pc dir with
  | some address =>
    rw [jumpPast_matched hpartner]
    exact .quiet hfetched hop
  | none =>
    rw [jumpPast_unmatched hpartner]
    exact .quiet hfetched hop

theorem stepStray_conduct {cell : UInt8} (hfetched : m.fetched = none) :
    m.Conduct net (effectsOf (m.stepStray cell).events) (m.stepStray cell).outcome
      (m.stepStray cell).machine.front := by
  rcases hwrite : m.console.write (Text.utf8 strayCellText.toList) with ⟨result, console⟩
  rw [stepStray_offered hwrite, outcome_proceed, front_proceed, events_proceed]
  exact .stray hfetched hwrite

theorem stepWrite_conduct (hfetched : m.fetched = some .write) :
    m.Conduct net (effectsOf (m.stepWrite net).events) (m.stepWrite net).outcome
      (m.stepWrite net).machine.front := by
  cases hactive : m.active with
  | some connection =>
    rw [stepWrite_connected hactive]
    exact .sent hfetched hactive rfl
  | none =>
    rcases hwrite : m.console.write [m.current] with ⟨result, console⟩
    rw [stepWrite_offered hactive hwrite, outcome_proceed, front_proceed, events_proceed]
    exact .wrote hfetched hactive hwrite

theorem stepRead_conduct (hfetched : m.fetched = some .read) :
    m.Conduct net (effectsOf (m.stepRead net).events) (m.stepRead net).outcome
      (m.stepRead net).machine.front := by
  cases hactive : m.active with
  | some connection =>
    rw [stepRead_connected hactive, outcome_takeReading, front_takeReading, events_takeReading]
    exact .received hfetched hactive rfl
  | none =>
    rcases hflush : m.console.flush with ⟨result, console⟩
    cases result with
    | error fault =>
      rw [stepRead_unflushed hactive hflush]
      exact .unflushed hfetched hactive hflush
    | ok =>
      rw [stepRead_flushed hactive hflush, outcome_takeReading, front_takeReading,
        events_takeReading]
      exact .read hfetched hactive hflush rfl

theorem stepConnect_conduct (hfetched : m.fetched = some .connect) :
    m.Conduct net (effectsOf (m.stepConnect net).events) (m.stepConnect net).outcome
      (m.stepConnect net).machine.front := by
  rcases hdial : m.dialling net with ⟨outcome, world⟩
  cases hreached : outcome.reached with
  | some connection =>
    have heffects : effectsOf (.effect (.dialled outcome) :: m.supersedingEvents) =
        .dialled outcome :: m.active.toList.map .superseded := by
      rw [← effectsOf_supersedingEvents]
      rfl
    rw [stepConnect_reached hdial hreached]
    simp only [goOn, heffects]
    have hfront := front_adopt { m with world := world } connection
    exact hfront ▸ Conduct.reached hfetched hdial hreached
  | none =>
    rcases hwrite : m.console.write (Text.utf8 noConnectionText.toList) with ⟨result, console⟩
    rw [stepConnect_offered hdial hreached hwrite, outcome_proceed, front_proceed,
      events_proceed]
    exact .unreached hfetched hdial hreached hwrite

theorem execute_conduct {op : Opcode} (hfetched : m.fetched = some op) :
    m.Conduct net (effectsOf (m.execute net op).events) (m.execute net op).outcome
      (m.execute net op).machine.front := by
  cases op with
  | write => exact stepWrite_conduct hfetched
  | read => exact stepRead_conduct hfetched
  | connect => exact stepConnect_conduct hfetched
  | finish => exact .finished hfetched
  | opening =>
    rw [execute]
    split
    · exact jumpPast_conduct hfetched (by decide)
    · exact .quiet hfetched (by decide)
  | closing =>
    rw [execute]
    split
    · exact .quiet hfetched (by decide)
    · exact jumpPast_conduct hfetched (by decide)
  | nop | forward | backward | increment | decrement => exact .quiet hfetched (by decide)

/-- Counting a step changes nothing that a rule mentions. -/
theorem Conduct.of_counted {op : Option Opcode} {effects : List (Effect Link)} {outcome : Outcome}
    {front : Front World Link} (h : (m.counted op).Conduct net effects outcome front) :
    m.Conduct net effects outcome front := by
  cases h with
  | stray hfetched hwrite => exact .stray hfetched hwrite
  | sent hfetched hactive hsend => exact .sent hfetched hactive hsend
  | wrote hfetched hactive hwrite => exact .wrote hfetched hactive hwrite
  | received hfetched hactive hreceive => exact .received hfetched hactive hreceive
  | unflushed hfetched hactive hflush => exact .unflushed hfetched hactive hflush
  | read hfetched hactive hflush hread => exact .read hfetched hactive hflush hread
  | reached hfetched hdial hreached => exact .reached hfetched hdial hreached
  | unreached hfetched hdial hreached hwrite => exact .unreached hfetched hdial hreached hwrite
  | finished hfetched => exact .finished hfetched
  | quiet hfetched hop => exact .quiet hfetched hop

/-- **Every step follows a rule.** -/
theorem step_conduct (net : Network World Link) (m : Machine World Link) :
    m.Conduct net (effectsOf (m.step net).events) (m.step net).outcome
      (m.step net).machine.front := by
  cases hfetched : m.fetched with
  | none =>
    rw [step_of_fetched_none hfetched]
    exact .of_counted (stepStray_conduct (m := m.counted none) hfetched)
  | some op =>
    rw [step_of_fetched_some hfetched]
    exact .of_counted (execute_conduct (m := m.counted (some op)) hfetched)

/-! ## Cleanup -/

/-- The effects of hanging up: the connection in use is closed, and no other. -/
def farewell (net : Network World Link) (m : Machine World Link) : List (Effect Link) :=
  m.active.toList.map fun connection => .closed connection (net.close connection.link m.world).1

/-- The front after hanging up. -/
def hungUp (net : Network World Link) (m : Machine World Link) : Front World Link :=
  { m.front with
    world := m.active.elim m.world fun connection => (net.close connection.link m.world).2
    active := none }

/-- **The rules of a cleanup.**  Each begins by hanging up. -/
inductive Cleanup (net : Network World Link) (m : Machine World Link) (reason : Halt) :
    List (Effect Link) → Ending → Front World Link → Prop where
  /-- The end of the program could not be marked, and nothing is flushed. -/
  | unmarked {fault : Fault} {console : Console} (hreason : reason = .finished)
      (hwrite : m.console.write [0x0a] = (.error fault, console)) :
      Cleanup net m reason (m.farewell net ++ [.wrote [0x0a] (.error fault)])
        (.failed (.output fault)) { m.hungUp net with console := console }
  /-- The end of the program is marked by a newline on the console. -/
  | marked {marked console : Console} {result : Except Fault Unit} (hreason : reason = .finished)
      (hwrite : m.console.write [0x0a] = (.ok (), marked))
      (hflush : marked.flush = (result, console)) :
      Cleanup net m reason (m.farewell net ++ [.wrote [0x0a] (.ok ()), .flushed result])
        (.ofFlush reason result) { m.hungUp net with console := console }
  /-- Any other halt writes nothing. -/
  | flushed {console : Console} {result : Except Fault Unit} (hreason : reason ≠ .finished)
      (hflush : m.console.flush = (result, console)) :
      Cleanup net m reason (m.farewell net ++ [.flushed result]) (.ofFlush reason result)
        { m.hungUp net with console := console }

section HangUp

variable (net : Network World Link) (m : Machine World Link)

theorem effectsOf_hangUp : effectsOf (m.hangUp net).2 = m.farewell net := by
  unfold hangUp farewell
  cases hactive : m.active <;> rfl

theorem front_hangUp : (m.hangUp net).1.front = m.hungUp net := by
  unfold hangUp hungUp
  cases hactive : m.active <;> simp [front, hactive]

theorem console_hangUp : (m.hangUp net).1.console = m.console := by
  unfold hangUp
  cases hactive : m.active <;> rfl

end HangUp

theorem lastFlush_answered {reason : Halt} {events : List (Event Link)}
    {result : Except Fault Unit} {console : Console}
    (hflush : m.console.flush = (result, console)) :
    m.lastFlush reason events = ⟨.ofFlush reason result, { m with console := console },
      (events ++ [Event.effect (.flushed result)]).toArray⟩ := by
  cases result <;> simp only [lastFlush, hflush, Ending.ofFlush]

theorem finish_unmarked {reason : Halt} {fault : Fault} {console : Console}
    (hreason : reason = .finished) (hwrite : m.console.write [0x0a] = (.error fault, console)) :
    m.finish net reason = ⟨.failed (.output fault), { (m.hangUp net).1 with console := console },
      ((m.hangUp net).2 ++ [Event.effect (.wrote [0x0a] (.error fault))]).toArray⟩ := by
  rw [← console_hangUp net m] at hwrite
  simp only [finish, if_pos hreason, print, hwrite]

theorem finish_marked {reason : Halt} {marked : Console} (hreason : reason = .finished)
    (hwrite : m.console.write [0x0a] = (.ok (), marked)) :
    m.finish net reason = lastFlush reason { (m.hangUp net).1 with console := marked }
      ((m.hangUp net).2 ++ [Event.effect (.wrote [0x0a] (.ok ()))]) := by
  rw [← console_hangUp net m] at hwrite
  simp only [finish, if_pos hreason, print, hwrite]

theorem finish_unwritten {reason : Halt} (hreason : reason ≠ .finished) :
    m.finish net reason = lastFlush reason (m.hangUp net).1 (m.hangUp net).2 := by
  simp only [finish, if_neg hreason]

/-- A cleanup that marks nothing comes to what its flush does. -/
theorem ending_finish {reason : Halt} (hreason : reason ≠ .finished) :
    (m.finish net reason).ending = .ofFlush reason m.console.flush.1 := by
  rcases hflush : m.console.flush with ⟨result, console⟩
  rw [finish_unwritten hreason,
    lastFlush_answered (m := (m.hangUp net).1) ((console_hangUp net m).symm ▸ hflush)]

/-- **Every cleanup follows a rule.** -/
theorem finish_cleanup (net : Network World Link) (m : Machine World Link) (reason : Halt) :
    m.Cleanup net reason (effectsOf (m.finish net reason).events.toList)
      (m.finish net reason).ending (m.finish net reason).machine.front := by
  have heffects := effectsOf_hangUp net m
  have hfront (console : Console) : front { (m.hangUp net).1 with console := console } =
      { m.hungUp net with console := console } := by
    rw [← front_hangUp]
    rfl
  by_cases hreason : reason = .finished
  · rcases hwrite : m.console.write [0x0a] with ⟨result, console⟩
    cases result with
    | error fault =>
      rw [finish_unmarked hreason hwrite, effectsOf_append, heffects, hfront]
      exact .unmarked hreason hwrite
    | ok =>
      rcases hflush : console.flush with ⟨result, flushed⟩
      rw [finish_marked hreason hwrite, lastFlush_answered hflush, List.append_assoc,
        effectsOf_append, heffects, hfront]
      exact .marked hreason hwrite hflush
  · rcases hflush : m.console.flush with ⟨result, console⟩
    rw [finish_unwritten hreason,
      lastFlush_answered (m := (m.hangUp net).1) ((console_hangUp net m).symm ▸ hflush),
      effectsOf_append, heffects, hfront]
    exact .flushed hreason hflush

theorem machine_hangUp (net : Network World Link) (m : Machine World Link) :
    (m.hangUp net).1 = { m with world := (m.hungUp net).world, active := none } := by
  unfold hangUp hungUp
  cases hactive : m.active with
  | none =>
    cases m
    cases hactive
    rfl
  | some connection => rfl

/-- **A cleanup keeps to the front**: all that it changes are the connection in use, the
world in which that was closed, and the console. -/
theorem machine_finish (net : Network World Link) (m : Machine World Link) (reason : Halt) :
    (m.finish net reason).machine =
      { m with
        console := (m.finish net reason).machine.console
        world := (m.hungUp net).world
        active := none } := by
  by_cases hreason : reason = .finished
  · rcases hwrite : m.console.write [0x0a] with ⟨fault | _, console⟩
    · rw [finish_unmarked hreason hwrite, machine_hangUp]
    · rcases hflush : console.flush with ⟨result, flushed⟩
      rw [finish_marked hreason hwrite, lastFlush_answered hflush, machine_hangUp]
  · rcases hflush : m.console.flush with ⟨result, console⟩
    rw [finish_unwritten hreason,
      lastFlush_answered (m := (m.hangUp net).1) ((console_hangUp net m).symm ▸ hflush),
      machine_hangUp]

end Machine
end RingTape
