import RingTape.Proofs.Departures
import RingTape.Proofs.SinkContract

/-!
# What a machine takes from its console

An interruption says nothing about a stream, so what a reader has to say are its other
answers, in order (`finals`), and after them the end of the stream for ever (`nth`).
Reading one byte takes the first of these, however many interruptions come before it
(`readOne_fst`, `finals_readOne`).

A machine takes a reading from its console in one case only: it executes a reading without
a connection, and the console has been flushed (`readsConsole`).  A step takes one reading
then and none otherwise (`input_step`), and a cleanup takes none.  So a history advances
the reader by as many readings as it has such steps (`input_play`).
-/

namespace RingTape

namespace Reader

/-- The answers that say something about the stream, in order. -/
def finals (r : Reader) : List Reading :=
  r.script.filterMap Response.reading?

/-- The reading that follows `j` others. -/
def nth (r : Reader) (j : Nat) : Reading :=
  r.finals[j]?.getD (.ok none)

/-- The reader after a number of readings. -/
def advance (r : Reader) : Nat → Reader
  | 0 => r
  | n + 1 => r.readOne.2.advance n

/-- Asking passes over interruptions to the first answer that is none. -/
theorem ask_eq (script : List Response) (requests : Nat) :
    (ask script requests).1 = (script.filterMap Response.reading?).head?.getD (.ok none) ∧
      (ask script requests).2.finals = (script.filterMap Response.reading?).tail := by
  induction script generalizing requests with
  | nil => exact ⟨rfl, rfl⟩
  | cons response rest ih =>
    cases hreading : response.reading? with
    | none =>
      rw [ask, hreading, List.filterMap_cons_none hreading]
      exact ih (requests + 1)
    | some reading =>
      rw [ask, hreading, List.filterMap_cons_some hreading]
      exact ⟨rfl, rfl⟩

/-- **One reading uses up one answer** that is no interruption. -/
theorem finals_readOne (r : Reader) : r.readOne.2.finals = r.finals.tail :=
  (ask_eq r.script r.requests).2

theorem readOne_fst (r : Reader) : r.readOne.1 = r.nth 0 := by
  rw [nth, ← List.head?_eq_getElem?]
  exact (ask_eq r.script r.requests).1

theorem nth_readOne (r : Reader) (j : Nat) : r.readOne.2.nth j = r.nth (j + 1) := by
  rw [nth, nth, finals_readOne, List.getElem?_tail]

theorem nth_advance (r : Reader) (n j : Nat) : (r.advance n).nth j = r.nth (n + j) := by
  induction n generalizing r with
  | zero => rw [advance, Nat.zero_add]
  | succ n ih =>
    rw [advance, ih, nth_readOne]
    congr 1
    omega

theorem advance_add (r : Reader) (n k : Nat) : r.advance (n + k) = (r.advance n).advance k := by
  induction n generalizing r with
  | zero => rw [Nat.zero_add, advance]
  | succ n ih => rw [Nat.succ_add, advance, ih, advance]

end Reader

theorem Console.input_write {c d : Console} {bytes : List UInt8} {result : Except Fault Unit}
    (h : c.write bytes = (result, d)) : d.input = c.input :=
  (Console.write_contract h).1

theorem Console.input_of_flush {c d : Console} {result : Except Fault Unit}
    (h : c.flush = (result, d)) : d.input = c.input := by
  rw [← c.input_flush, h]

namespace Machine

variable {World Link : Type}

/-- The step at the program counter takes a reading from the console: it reads, there is
no connection, and the console can be flushed. -/
def readsConsole (m : Machine World Link) : Bool :=
  match m.fetched, m.active, m.console.flush.1 with
  | some .read, none, .ok () => true
  | _, _, _ => false

theorem readsConsole_iff {m : Machine World Link} : m.readsConsole = true ↔
    m.fetched = some .read ∧ m.active = none ∧ m.console.flush.1 = .ok () := by
  unfold readsConsole
  split <;> simp_all

theorem readsConsole_of_ne {m : Machine World Link} (h : m.fetched ≠ some .read) :
    m.readsConsole = false := by
  rw [← Bool.not_eq_true, readsConsole_iff]
  exact fun hreads => h hreads.1

/-- The number of readings that the steps of a history take from the console. -/
def reads (net : Network World Link) (m : Machine World Link) (moves : List Move) : Nat :=
  (m.departures net moves).countP readsConsole

section Input

variable {net : Network World Link} {m : Machine World Link}

theorem Conduct.input {effects : List (Effect Link)} {outcome : Outcome}
    {front : Front World Link} (h : m.Conduct net effects outcome front) :
    front.console.input = m.console.input.advance (if m.readsConsole then 1 else 0) := by
  cases h with
  | stray hfetched hwrite =>
    rw [readsConsole_of_ne (by simp [hfetched])]
    exact Console.input_write hwrite
  | wrote hfetched _ hwrite | unreached hfetched _ _ hwrite =>
    rw [readsConsole_of_ne (by simp [hfetched])]
    exact Console.input_write hwrite
  | sent hfetched _ _ | reached hfetched _ _ | finished hfetched =>
    rw [readsConsole_of_ne (by simp [hfetched])]
    rfl
  | quiet hfetched hop =>
    rw [readsConsole_of_ne (by rintro h; simp_all)]
    rfl
  | received hfetched hactive _ =>
    have hreads : m.readsConsole = false := by simp [readsConsole, hfetched, hactive]
    rw [hreads]
    rfl
  | unflushed hfetched hactive hflush =>
    have hreads : m.readsConsole = false := by simp [readsConsole, hfetched, hactive, hflush]
    rw [hreads]
    exact Console.input_of_flush hflush
  | @read flushed console reading hfetched hactive hflush hread =>
    have hreads : m.readsConsole = true := by simp [readsConsole, hfetched, hactive, hflush]
    have hinput : console.input = flushed.input.readOne.2 := by
      rw [← show flushed.readByte.2 = console from congrArg Prod.snd hread]
      rfl
    rw [hreads, if_pos rfl, hinput, Console.input_of_flush hflush]
    rfl

variable (net m)

/-- **A step takes one reading from the console or none.** -/
theorem input_step : (m.step net).machine.console.input =
    m.console.input.advance (if m.readsConsole then 1 else 0) :=
  (step_conduct net m).input

theorem input_finish (reason : Halt) :
    (m.finish net reason).machine.console.input = m.console.input := by
  have hcleanup := finish_cleanup net m reason
  have hfront : (m.finish net reason).machine.console =
      (m.finish net reason).machine.front.console := rfl
  rw [hfront]
  generalize (m.finish net reason).machine.front = front at hcleanup ⊢
  generalize (m.finish net reason).ending = ending at hcleanup
  generalize effectsOf (m.finish net reason).events.toList = effects at hcleanup
  cases hcleanup with
  | unmarked _ hwrite => exact Console.input_write hwrite
  | marked _ hwrite hflush =>
    exact (Console.input_of_flush hflush).trans (Console.input_write hwrite)
  | flushed _ hflush => exact Console.input_of_flush hflush

theorem reads_step (rest : List Move) : m.reads net (.step :: rest) =
    (if m.readsConsole then 1 else 0) + (m.step net).machine.reads net rest := by
  rw [reads, departures_step, List.countP_cons, Nat.add_comm]
  rfl

theorem reads_cleanup (reason : Halt) (rest : List Move) :
    m.reads net (.cleanup reason :: rest) = (m.finish net reason).machine.reads net rest := rfl

/-- **A history takes as many readings as it has steps that read from the console.** -/
theorem input_play (moves : List Move) : (m.play net moves).1.console.input =
    m.console.input.advance (m.reads net moves) := by
  induction moves generalizing m with
  | nil => rfl
  | cons move rest ih =>
    cases move with
    | step =>
      have hrest := ih (m.step net).machine
      rw [input_step, ← Reader.advance_add, ← reads_step] at hrest
      exact hrest
    | cleanup reason =>
      have hrest := ih (m.finish net reason).machine
      rw [input_finish, ← reads_cleanup] at hrest
      exact hrest

end Input

end Machine
end RingTape
