import RingTape.Proofs.Frame

/-!
# A step, part by part

A machine consists of its tape, its front and its books, and what a step does to each of
them is said once: `step_leads` for the ring and the cursors, `step_conduct` for the
outside, `books_step` for the counters.  So two steps are compared part by part, and two
machines with the same three parts are the same (`eq_of_parts`).

For the front this needs that the rules of conduct exclude each other: whoever meets the
conditions of a rule knows the step (`Conduct.eq_step`).  For an instruction that does not
deal with the outside the three parts give the machine after it (`step_of_quiet`).
-/

namespace RingTape
namespace Machine

variable {World Link : Type}

theorem eq_of_parts {m t : Machine World Link} (htape : m.tape = t.tape)
    (hfront : m.front = t.front) (hbooks : m.books = t.books) : m = t := by
  cases m
  cases t
  simp only [tape, Tape.mk.injEq] at htape
  simp only [front, Front.mk.injEq, Array.toList_inj] at hfront
  simp only [books, Books.mk.injEq] at hbooks
  simp only [mk.injEq]
  exact ⟨htape.1, htape.2.1, htape.2.2, hfront.2.2.1, hfront.2.2.2, hfront.1, hfront.2.1, hbooks⟩

variable {net : Network World Link} {m : Machine World Link}

/-- **A rule decides the step**: its conditions hold of no step that does otherwise. -/
theorem Conduct.eq_step {effects : List (Effect Link)} {outcome : Outcome}
    {front : Front World Link} (h : m.Conduct net effects outcome front) :
    effectsOf (m.step net).events = effects ∧ (m.step net).outcome = outcome ∧
      (m.step net).machine.front = front := by
  cases h with
  | stray hfetched hwrite =>
    rw [step_of_fetched_none hfetched, stepStray_offered (m := m.counted none) hwrite,
      events_proceed, outcome_proceed, front_proceed]
    exact ⟨rfl, rfl, rfl⟩
  | @sent connection result world hfetched hactive hsend =>
    have hanswer : net.send connection.link (m.counted (some .write)).current
        (m.counted (some .write)).world = (result, world) := hsend
    rw [step_of_fetched_some hfetched, execute,
      stepWrite_connected (m := m.counted (some .write)) hactive, hanswer]
    exact ⟨rfl, rfl, rfl⟩
  | wrote hfetched hactive hwrite =>
    rw [step_of_fetched_some hfetched, execute,
      stepWrite_offered (m := m.counted (some .write)) hactive hwrite, events_proceed,
      outcome_proceed, front_proceed]
    exact ⟨rfl, rfl, rfl⟩
  | @received connection reading world hfetched hactive hreceive =>
    have hanswer : net.receive connection.link (m.counted (some .read)).world =
        (reading, world) := hreceive
    rw [step_of_fetched_some hfetched, execute,
      stepRead_connected (m := m.counted (some .read)) hactive, hanswer, events_takeReading,
      outcome_takeReading, front_takeReading]
    exact ⟨rfl, rfl, rfl⟩
  | unflushed hfetched hactive hflush =>
    rw [step_of_fetched_some hfetched, execute,
      stepRead_unflushed (m := m.counted (some .read)) hactive hflush]
    exact ⟨rfl, rfl, rfl⟩
  | read hfetched hactive hflush hread =>
    rw [step_of_fetched_some hfetched, execute,
      stepRead_flushed (m := m.counted (some .read)) hactive hflush, hread, events_takeReading,
      outcome_takeReading, front_takeReading]
    exact ⟨rfl, rfl, rfl⟩
  | @reached dialled world connection hfetched hdial hreached =>
    rw [step_of_fetched_some hfetched, execute,
      stepConnect_reached (m := m.counted (some .connect)) hdial hreached]
    refine ⟨?_, rfl, front_adopt { m.counted (some .connect) with world := world } connection⟩
    exact congrArg (.dialled dialled :: ·) (effectsOf_supersedingEvents (m.counted (some .connect)))
  | unreached hfetched hdial hreached hwrite =>
    rw [step_of_fetched_some hfetched, execute,
      stepConnect_offered (m := m.counted (some .connect)) hdial hreached hwrite, events_proceed,
      outcome_proceed, front_proceed]
    exact ⟨rfl, rfl, rfl⟩
  | finished hfetched =>
    rw [step_of_fetched_some hfetched]
    exact ⟨rfl, rfl, rfl⟩
  | quiet hfetched hop =>
    -- only the rule of quiet instructions fits the instruction
    have hstep := step_conduct net m
    generalize effectsOf (m.step net).events = effects at hstep ⊢
    generalize (m.step net).outcome = outcome at hstep ⊢
    generalize (m.step net).machine.front = front at hstep ⊢
    cases hstep with
    | quiet => exact ⟨rfl, rfl, rfl⟩
    | _ => simp_all

/-- **A quiet instruction keeps to the ring**: it always goes on, the outside sees nothing
of it, and what it changes apart from the counters is the tape alone. -/
theorem step_of_quiet (net : Network World Link) {op : Opcode} (hfetched : m.fetched = some op)
    (hop : op ∉ [Opcode.write, .read, .connect, .finish]) :
    (m.step net).outcome = .continued ∧ effectsOf (m.step net).events = [] ∧
      (m.step net).machine =
        { m.counted m.fetched with
          memory := m.nextMemory net
          pc := m.nextPc
          head := m.head + m.stride } := by
  have hquiet : m.Conduct net [] .continued m.front := .quiet hfetched hop
  obtain ⟨heffects, hcontinued, hfront⟩ := hquiet.eq_step
  refine ⟨hcontinued, heffects, eq_of_parts ?_ hfront (books_step net m)⟩
  rw [tape_of_continued hcontinued]
  rfl

end Machine
end RingTape
