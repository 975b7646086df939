import Mathlib.Data.List.Basic
import RingTape.Machine.Run
import RingTape.Proofs.Instructions

/-!
# No address is special

Turning the ring by `k` cells, and both cursors with it, gives a machine that does
exactly what the first one does.  `Machine.rotate` is that turn: what stood at
address `a` stands at `a + k`, the program counter and the head move along, and
nothing else changes.

Everything a machine does with an address is to add to it, to read or write the
cell there, and to walk from it, and each of these commutes with the turn.  The
seam between the highest address and zero is nowhere mentioned, because address
arithmetic goes round by itself: operand cells, the six cells of an endpoint, the
cell past a bracket and the full lap of a search all lie where they should on
either side of it.

What a machine does to the outside is compared by its effects.  Remarks, which are
for the log only, mention addresses and so are turned with the ring
(`Event.rotate`).
-/

namespace RingTape

theorem Direction.advance_add (dir : Direction) (a k : UInt16) :
    dir.advance (a + k) = dir.advance a + k := by
  cases dir with
  | forward => exact show a + k + 1 = a + 1 + k from by grind
  | backward => exact show a + k - 1 = a - 1 + k from by grind

namespace Memory

variable (m : Memory) (k : UInt16)

/-- The ring turned by `k` cells. -/
def rotate : Memory :=
  ⟨m.cells.mapIdx fun i _ => m.get (UInt16.ofNat i - k)⟩

/-- What stands at an address stood `k` addresses before it. -/
theorem get_rotate (a : UInt16) : (m.rotate k).get a = m.get (a - k) := by
  simp [get, rotate]

@[simp] theorem get_rotate_add (a : UInt16) : (m.rotate k).get (a + k) = m.get a := by
  rw [get_rotate, UInt16.add_sub_cancel]

/-- The cell `n` places past a turned address is the turned cell. -/
@[simp] theorem get_rotate_add_add (a n : UInt16) :
    (m.rotate k).get (a + k + n) = m.get (a + n) := by
  rw [show a + k + n = a + n + k from by grind, get_rotate_add]

@[simp] theorem set_rotate (a : UInt16) (value : UInt8) :
    (m.rotate k).set (a + k) value = (m.set a value).rotate k := by
  ext b
  rw [get_set, get_rotate, get_rotate, get_set]
  have hplace : a + k = b ↔ a = b - k := by grind
  by_cases h : a = b - k
  · rw [if_pos (hplace.mpr h), if_pos h]
  · rw [if_neg (fun h' => h (hplace.mp h')), if_neg h]

/-- A search on the turned ring passes the same cells in the same order. -/
theorem seek_rotate (dir : Direction) (left depth : Nat) (a : UInt16) :
    (m.rotate k).seek dir left depth (a + k) = (m.seek dir left depth a).map (· + k) := by
  induction left generalizing depth a with
  | zero => rfl
  | succ left ih =>
    simp only [seek, Direction.advance_add, get_rotate_add]
    split
    · split
      · rfl
      · exact ih (depth - 1) (dir.advance a)
    · split
      · exact ih (depth + 1) (dir.advance a)
      · exact ih depth (dir.advance a)

theorem matchingBracket_rotate (dir : Direction) (a : UInt16) :
    (m.rotate k).matchingBracket (a + k) dir = (m.matchingBracket a dir).map (· + k) :=
  seek_rotate m k dir size 1 a

end Memory

/-- The six cells of an endpoint are the same six cells. -/
theorem Endpoint.ofMemory_rotate (m : Memory) (k start : UInt16) :
    Endpoint.ofMemory (m.rotate k) (start + k) = Endpoint.ofMemory m start := by
  simp only [Endpoint.ofMemory, Memory.get_rotate_add, Memory.get_rotate_add_add]

/-- A remark about the turned ring. -/
def Remark.rotate (k : UInt16) : Remark → Remark
  | strayCell cell address => strayCell cell (address + k)
  | unmatched address dir => unmatched (address + k) dir

variable {World Link : Type}

/-- An event of the turned machine: the same effect, or a remark about the turned
ring. -/
def Event.rotate (k : UInt16) : Event Link → Event Link
  | effect e => effect e
  | remark r => remark (r.rotate k)

/-- Turning changes no effect. -/
theorem effectsOf_map_rotate (k : UInt16) (events : List (Event Link)) :
    effectsOf (events.map (Event.rotate k)) = effectsOf events := by
  rw [effectsOf, effectsOf, List.filterMap_map]
  refine List.filterMap_congr fun event _ => ?_
  cases event <;> rfl

/-- **The turned machine.**  Memory and cursors go round by `k`; all else stays. -/
def Machine.rotate (k : UInt16) (m : Machine World Link) : Machine World Link :=
  { m with memory := m.memory.rotate k, pc := m.pc + k, head := m.head + k }

/-- The turned result of a step. -/
def Transition.rotate (k : UInt16) (t : Transition World Link) : Transition World Link :=
  ⟨t.outcome, t.machine.rotate k, t.events.map (Event.rotate k)⟩

/-- The turned result of a run. -/
def RunReport.rotate (k : UInt16) (r : RunReport World Link) : RunReport World Link :=
  ⟨r.ending, r.machine.rotate k, r.events.map (Event.rotate k)⟩

namespace Machine

variable (net : Network World Link) (k : UInt16) (m : Machine World Link)

/-! ## Operations of a machine -/

@[simp] theorem current_rotate : (m.rotate k).current = m.current := by
  rw [current, current, rotate, Memory.get_rotate_add]

@[simp] theorem amount_rotate : (m.rotate k).amount = m.amount := by
  rw [amount, amount, rotate, Memory.get_rotate_add_add]

@[simp] theorem setCurrent_rotate (value : UInt8) :
    (m.rotate k).setCurrent value = (m.setCurrent value).rotate k := by
  simp only [setCurrent, rotate, Memory.set_rotate]

theorem counted_rotate (op : Option Opcode) :
    (m.rotate k).counted op = (m.counted op).rotate k := rfl

/-- Printing depends on the console alone. -/
theorem print_rotate (bytes : List UInt8) :
    (m.rotate k).print bytes = ((m.print bytes).1, (m.print bytes).2.rotate k) := rfl

theorem goOn_rotate (width : UInt16) (events : List (Event Link)) :
    (m.rotate k).goOn width (events.map (Event.rotate k)) = (m.goOn width events).rotate k := by
  have hpc : m.pc + k + width = m.pc + width + k := by grind
  simp only [goOn, Transition.rotate, rotate, hpc]

/-! ## Instructions -/

theorem proceed_rotate (width : UInt16) (result : Except Fault Unit) (events : List (Event Link)) :
    (m.rotate k).proceed width result (events.map (Event.rotate k)) =
      (m.proceed width result events).rotate k := by
  cases result with
  | ok => exact goOn_rotate k m width events
  | error fault => rfl

theorem stepStray_rotate (cell : UInt8) :
    (m.rotate k).stepStray cell = (m.stepStray cell).rotate k := by
  rcases hwrite : m.console.write (Text.utf8 strayCellText.toList) with ⟨result, console⟩
  rw [stepStray_offered hwrite, stepStray_offered (m := m.rotate k) hwrite, ← proceed_rotate]
  rfl

theorem stepWrite_rotate : (m.rotate k).stepWrite net = (m.stepWrite net).rotate k := by
  have hcurrent := current_rotate k m
  cases hactive : m.active with
  | some connection =>
    rw [stepWrite_connected hactive, stepWrite_connected (m := m.rotate k) hactive, hcurrent,
      ← goOn_rotate]
    rfl
  | none =>
    rcases hwrite : m.console.write [m.current] with ⟨result, console⟩
    rw [stepWrite_offered hactive hwrite,
      stepWrite_offered (m := m.rotate k) hactive (hcurrent ▸ hwrite), hcurrent, ← proceed_rotate]
    rfl

theorem takeReading_rotate (reading : Reading) (events : List (Event Link)) :
    (m.rotate k).takeReading reading (events.map (Event.rotate k)) =
      (m.takeReading reading events).rotate k := by
  unfold takeReading
  rw [show (m.rotate k).settings = m.settings from rfl]
  split
  · rw [setCurrent_rotate, goOn_rotate]
  · split
    · rw [setCurrent_rotate, goOn_rotate]
    · rw [goOn_rotate]
    · rfl

theorem stepRead_rotate : (m.rotate k).stepRead net = (m.stepRead net).rotate k := by
  cases hactive : m.active with
  | some connection =>
    rw [stepRead_connected (m := m.rotate k) hactive, stepRead_connected hactive]
    rw [← takeReading_rotate]
    rfl
  | none =>
    rcases hflush : m.console.flush with ⟨result, console⟩
    cases result with
    | ok =>
      rw [stepRead_flushed (m := m.rotate k) hactive hflush, stepRead_flushed hactive hflush]
      rw [← takeReading_rotate]
      rfl
    | error fault =>
      rw [stepRead_unflushed (m := m.rotate k) hactive hflush, stepRead_unflushed hactive hflush]
      rfl

theorem adopt_rotate (connection : Connection Link) :
    (m.rotate k).adopt connection = (m.adopt connection).rotate k := by
  unfold adopt
  rw [show (m.rotate k).active = m.active from rfl]
  cases hactive : m.active <;> rfl

/-- Superseding is an effect and mentions no address. -/
theorem supersedingEvents_rotate :
    (m.rotate k).supersedingEvents = m.supersedingEvents.map (Event.rotate k) := by
  unfold supersedingEvents
  rw [show (m.rotate k).active = m.active from rfl]
  cases hactive : m.active <;> rfl

theorem stepConnect_rotate : (m.rotate k).stepConnect net = (m.stepConnect net).rotate k := by
  rcases hdial : dialFirst net (Endpoint.ofMemory m.memory m.head) m.settings.dial
    m.settings.transports m.world with ⟨outcome, world⟩
  have hturned : dialFirst net (Endpoint.ofMemory (m.rotate k).memory (m.rotate k).head)
      (m.rotate k).settings.dial (m.rotate k).settings.transports (m.rotate k).world =
      (outcome, world) := by
    rw [← hdial]
    exact congrArg (fun e => dialFirst net e m.settings.dial m.settings.transports m.world)
      (Endpoint.ofMemory_rotate m.memory k m.head)
  cases hreached : outcome.reached with
  | some connection =>
    rw [stepConnect_reached hdial hreached, stepConnect_reached hturned hreached,
      supersedingEvents_rotate, ← goOn_rotate, ← adopt_rotate]
    rfl
  | none =>
    rcases hwrite : m.console.write (Text.utf8 noConnectionText.toList) with ⟨result, console⟩
    rw [stepConnect_offered hdial hreached hwrite,
      stepConnect_offered (m := m.rotate k) hturned hreached hwrite, ← proceed_rotate]
    rfl

theorem jumpPast_rotate (dir : Direction) :
    (m.rotate k).jumpPast dir = (m.jumpPast dir).rotate k := by
  have hturned : (m.rotate k).memory.matchingBracket (m.rotate k).pc dir =
      (m.memory.matchingBracket m.pc dir).map (· + k) := m.memory.matchingBracket_rotate k dir m.pc
  cases hpartner : m.memory.matchingBracket m.pc dir with
  | some address =>
    rw [hpartner] at hturned
    have hpast : address + k + 1 = address + 1 + k := by grind
    rw [jumpPast_matched hpartner, jumpPast_matched hturned, hpast]
    rfl
  | none =>
    rw [hpartner] at hturned
    rw [jumpPast_unmatched hpartner, jumpPast_unmatched hturned]
    exact goOn_rotate k m 1 [.remark (.unmatched m.pc dir)]

/-- Moving the head by some amount and turning the ring commute. -/
theorem goOn_move_rotate (move : UInt16 → UInt16) (hmove : ∀ a, move (a + k) = move a + k) :
    goOn { m.rotate k with head := move (m.rotate k).head } 2 [] =
      (goOn { m with head := move m.head } 2 []).rotate k := by
  rw [show (m.rotate k).head = m.head + k from rfl, hmove]
  exact goOn_rotate k { m with head := move m.head } 2 []

/-- Changing the current cell and turning the ring commute. -/
theorem goOn_setCurrent_rotate (value : UInt8) :
    ((m.rotate k).setCurrent value).goOn 2 [] = ((m.setCurrent value).goOn 2 []).rotate k := by
  rw [setCurrent_rotate]
  exact goOn_rotate k (m.setCurrent value) 2 []

theorem execute_rotate (op : Opcode) :
    (m.rotate k).execute net op = (m.execute net op).rotate k := by
  cases op with
  | nop => exact goOn_rotate k m 1 []
  | write => exact stepWrite_rotate net k m
  | read => exact stepRead_rotate net k m
  | opening =>
    rw [execute, execute, current_rotate]
    split
    · exact jumpPast_rotate k m .forward
    · exact goOn_rotate k m 1 []
  | closing =>
    rw [execute, execute, current_rotate]
    split
    · exact goOn_rotate k m 1 []
    · exact jumpPast_rotate k m .backward
  | forward =>
    rw [execute, execute, amount_rotate]
    exact goOn_move_rotate k m (· + m.amount.toUInt16) (fun a => by grind)
  | backward =>
    rw [execute, execute, amount_rotate]
    exact goOn_move_rotate k m (· - m.amount.toUInt16) (fun a => by grind)
  | increment =>
    rw [execute, execute, amount_rotate, current_rotate]
    exact goOn_setCurrent_rotate k m _
  | decrement =>
    rw [execute, execute, amount_rotate, current_rotate]
    exact goOn_setCurrent_rotate k m _
  | connect => exact stepConnect_rotate net k m
  | finish => rfl

/-- **A step of the turned machine is the turned step.** -/
theorem step_rotate : (m.rotate k).step net = (m.step net).rotate k := by
  have hcell : (m.rotate k).memory.get (m.rotate k).pc = m.memory.get m.pc :=
    m.memory.get_rotate_add k m.pc
  have hfetched : (m.rotate k).fetched = m.fetched := congrArg Opcode.decode hcell
  cases h : m.fetched with
  | none =>
    rw [step_of_fetched_none h, step_of_fetched_none (hfetched.trans h), hcell, counted_rotate]
    exact stepStray_rotate k (m.counted none) _
  | some op =>
    rw [step_of_fetched_some h, step_of_fetched_some (hfetched.trans h), counted_rotate]
    exact execute_rotate net k (m.counted (some op)) op

theorem after_rotate (n : Nat) : (m.rotate k).after net n = (m.after net n).rotate k := by
  induction n with
  | zero => rfl
  | succ n ih =>
    rw [after, after, ih, step_rotate]
    rfl

/-! ## Runs -/

theorem turn_rotate (raised : Bool) :
    (m.rotate k).turn net raised = (m.turn net raised).rotate k := by
  unfold turn
  rw [show (m.rotate k).limitReached = m.limitReached from rfl]
  split
  · rfl
  · split
    · rfl
    · exact step_rotate net k m

/-- Turn by turn, the turned machine takes the turned turns. -/
theorem takeTurns_rotate (flag : Nat → Bool) (turns look : Nat) (events : Array (Event Link)) :
    takeTurns net flag turns look (m.rotate k) (events.map (Event.rotate k)) =
      (takeTurns net flag turns look m events).rotate k := by
  induction turns generalizing look m events with
  | zero => rfl
  | succ turns ih =>
    have hevents (new : List (Event Link)) : events.map (Event.rotate k) ++
        new.map (Event.rotate k) = (events ++ new).map (Event.rotate k) := by
      rw [← Array.toList_inj]
      simp
    rw [takeTurns, takeTurns, turn_rotate]
    rcases m.turn net (flag look) with ⟨outcome, m', new⟩
    cases outcome with
    | continued =>
      simp only [Transition.rotate, hevents]
      exact ih m' (look + 1) (events ++ new)
    | halted reason =>
      simp only [Transition.rotate, hevents]
      rfl
    | failed fault =>
      simp only [Transition.rotate, hevents]
      rfl

theorem hangUp_rotate : (m.rotate k).hangUp net =
    ((m.hangUp net).1.rotate k, (m.hangUp net).2.map (Event.rotate k)) := by
  unfold hangUp
  rw [show (m.rotate k).active = m.active from rfl]
  cases hactive : m.active <;> rfl

theorem lastFlush_rotate (reason : Halt) (events : List (Event Link)) :
    (m.rotate k).lastFlush reason (events.map (Event.rotate k)) =
      (m.lastFlush reason events).rotate k := by
  unfold lastFlush
  rw [show (m.rotate k).console = m.console from rfl]
  rcases m.console.flush with ⟨_ | _, console⟩ <;> simp [RunReport.rotate, Event.rotate, rotate]

theorem finish_rotate (reason : Halt) :
    (m.rotate k).finish net reason = (m.finish net reason).rotate k := by
  unfold finish
  rw [hangUp_rotate]
  rcases m.hangUp net with ⟨m', events⟩
  dsimp only
  split
  · rw [print_rotate]
    rcases m'.print [0x0a] with ⟨_ | _, m''⟩
    · simp [RunReport.rotate, Event.rotate]
    · rw [← lastFlush_rotate]
      simp [Event.rotate]
  · exact lastFlush_rotate k m' reason events

/-- **A run of the turned machine is the turned run**, whatever the flag shows. -/
theorem runWatching_rotate (flag : Nat → Bool) :
    (m.rotate k).runWatching net flag = (m.runWatching net flag).rotate k := by
  have hturns : takeTurns net flag (m.rotate k).turnsLeft 0 (m.rotate k) #[] =
      (takeTurns net flag m.turnsLeft 0 m #[]).rotate k := by
    rw [← takeTurns_rotate, Array.map_empty]
    rfl
  unfold runWatching
  rw [hturns]
  rcases takeTurns net flag m.turnsLeft 0 m #[] with ⟨ending, m', events⟩
  cases ending with
  | halted reason =>
    simp only [RunReport.rotate, finish_rotate, Array.map_append]
  | failed fault => rfl
  | uncounted => rfl

/-- What the outside sees of a run does not show how the ring lies. -/
theorem effectsOf_events_rotate (r : RunReport World Link) :
    effectsOf (r.rotate k).events.toList = effectsOf r.events.toList := by
  rw [RunReport.rotate, Array.toList_map, effectsOf_map_rotate]

/-- **No address is special to execution.**  The turned machine comes to the same
outcome with the same effects and is left in the turned state, by one step, by each
of any number of steps, and by a run under whatever the stop flag shows. -/
theorem execution_commutes_with_rotation :
    (∀ a, (m.rotate k).memory.get a = m.memory.get (a - k)) ∧
    (((m.rotate k).step net).outcome = (m.step net).outcome ∧
      effectsOf ((m.rotate k).step net).events = effectsOf (m.step net).events ∧
      ((m.rotate k).step net).machine = (m.step net).machine.rotate k) ∧
    (∀ n, (m.rotate k).after net n = (m.after net n).rotate k ∧
      (((m.rotate k).after net n).step net).outcome = ((m.after net n).step net).outcome ∧
      effectsOf (((m.rotate k).after net n).step net).events =
        effectsOf ((m.after net n).step net).events) ∧
    (∀ flag, ((m.rotate k).runWatching net flag).ending = (m.runWatching net flag).ending ∧
      effectsOf ((m.rotate k).runWatching net flag).events.toList =
        effectsOf (m.runWatching net flag).events.toList ∧
      ((m.rotate k).runWatching net flag).machine = (m.runWatching net flag).machine.rotate k) ∧
    ((m.rotate k).run net).ending = (m.run net).ending ∧
      effectsOf ((m.rotate k).run net).events.toList = effectsOf (m.run net).events.toList ∧
      ((m.rotate k).run net).machine = (m.run net).machine.rotate k := by
  have hrun : (m.rotate k).run net = (m.run net).rotate k :=
    runWatching_rotate net k m fun _ => m.stop
  refine ⟨m.memory.get_rotate k, ?_, ?_, ?_, ?_⟩
  · rw [step_rotate]
    exact ⟨rfl, effectsOf_map_rotate k _, rfl⟩
  · intro n
    rw [after_rotate, step_rotate]
    exact ⟨rfl, rfl, effectsOf_map_rotate k _⟩
  · intro flag
    rw [runWatching_rotate]
    exact ⟨rfl, effectsOf_events_rotate k _, rfl⟩
  · rw [hrun]
    exact ⟨rfl, effectsOf_events_rotate k _, rfl⟩

end Machine
end RingTape
