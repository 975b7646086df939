import RingTape.Machine.Run
import RingTape.Proofs.Instructions

/-!
# The books of a machine

The settings of a machine, its step counter, its profile and its stop flag are its
*books*.  No instruction looks after them: a step enters itself before anything else
happens, and whatever the instruction does then, to the ring, to the console or over
the network, leaves the books alone (`books_step`).

So the settings are the same for ever (`settings_after`), and the counter tells how
many steps were made, as long as it has room (`steps_after`).
-/

namespace RingTape

/-- What a machine has in its books. -/
structure Books where
  /-- The settings. -/
  settings : Settings
  /-- The number of steps executed. -/
  steps : UInt64
  /-- The executed steps by instruction. -/
  profile : Profile
  /-- The stop flag. -/
  stop : Bool

namespace Machine

variable {World Link : Type}

/-- The books of a machine. -/
def books (m : Machine World Link) : Books :=
  ⟨m.settings, m.steps, m.profile, m.stop⟩

section Instructions

variable (net : Network World Link) (m : Machine World Link)

theorem books_proceed (width : UInt16) (result : Except Fault Unit) (events : List (Event Link)) :
    (m.proceed width result events).machine.books = m.books := by
  cases result <;> rfl

theorem books_takeReading (reading : Reading) (events : List (Event Link)) :
    (m.takeReading reading events).machine.books = m.books := by
  unfold takeReading
  split
  · rfl
  · split <;> rfl

theorem books_adopt (connection : Connection Link) : (m.adopt connection).books = m.books := by
  unfold adopt
  split <;> rfl

theorem books_jumpPast (dir : Direction) : (m.jumpPast dir).machine.books = m.books := by
  unfold jumpPast
  split <;> rfl

theorem books_stepStray (cell : UInt8) : (m.stepStray cell).machine.books = m.books := by
  rcases hwrite : m.console.write (Text.utf8 strayCellText.toList) with ⟨result, console⟩
  rw [stepStray_offered hwrite, books_proceed]
  rfl

theorem books_stepWrite : (m.stepWrite net).machine.books = m.books := by
  rcases m.active.eq_none_or_eq_some with hactive | ⟨connection, hactive⟩
  · rcases hwrite : m.console.write [m.current] with ⟨result, console⟩
    rw [stepWrite_offered hactive hwrite, books_proceed]
    rfl
  · rw [stepWrite_connected hactive]
    rfl

theorem books_stepRead : (m.stepRead net).machine.books = m.books := by
  rcases m.active.eq_none_or_eq_some with hactive | ⟨connection, hactive⟩
  · rcases hflush : m.console.flush with ⟨fault | _, console⟩
    · rw [stepRead_unflushed hactive hflush]
      rfl
    · rw [stepRead_flushed hactive hflush, books_takeReading]
      rfl
  · rw [stepRead_connected hactive, books_takeReading]
    rfl

theorem books_stepConnect : (m.stepConnect net).machine.books = m.books := by
  rcases hdial : dialFirst net (Endpoint.ofMemory m.memory m.head) m.settings.dial
    m.settings.transports m.world with ⟨outcome, world⟩
  cases hreached : outcome.reached with
  | some connection =>
    rw [stepConnect_reached hdial hreached]
    exact books_adopt { m with world := world } connection
  | none =>
    rcases hwrite : m.console.write (Text.utf8 noConnectionText.toList) with ⟨result, console⟩
    rw [stepConnect_offered hdial hreached hwrite, books_proceed]
    rfl

theorem books_execute (op : Opcode) : (m.execute net op).machine.books = m.books := by
  cases op with
  | write => exact books_stepWrite net m
  | read => exact books_stepRead net m
  | connect => exact books_stepConnect net m
  | opening =>
    rw [execute]
    split
    · exact books_jumpPast m .forward
    · rfl
  | closing =>
    rw [execute]
    split
    · rfl
    · exact books_jumpPast m .backward
  | nop | forward | backward | increment | decrement | finish => rfl

/-- **A step enters itself in the books and nothing else.** -/
theorem books_step : (m.step net).machine.books = (m.counted m.fetched).books := by
  cases hfetched : m.fetched with
  | none =>
    rw [step_of_fetched_none hfetched]
    exact books_stepStray (m.counted none) _
  | some op =>
    rw [step_of_fetched_some hfetched]
    exact books_execute net (m.counted (some op)) op

end Instructions

section Settings

variable (net : Network World Link) (m : Machine World Link)

theorem settings_step : (m.step net).machine.settings = m.settings :=
  congrArg Books.settings (books_step net m)

theorem steps_step : (m.step net).machine.steps = m.steps + 1 :=
  congrArg Books.steps (books_step net m)

/-- **Settings never change.** -/
theorem settings_after (n : Nat) : (m.after net n).settings = m.settings := by
  induction n with
  | zero => rfl
  | succ n ih => rw [after, settings_step, ih]

/-- **The counter tells how many steps were made**, as long as it has room. -/
theorem steps_after {n : Nat} (hroom : m.steps.toNat + n < UInt64.size) :
    (m.after net n).steps.toNat = m.steps.toNat + n := by
  induction n with
  | zero => rfl
  | succ n ih =>
    have hcount := ih (by omega)
    have hone : (1 : UInt64).toNat = 1 := rfl
    rw [after, steps_step, UInt64.toNat_add, hcount, hone]
    exact Nat.mod_eq_of_lt hroom

end Settings

end Machine
end RingTape
