import RingTape.Network.Peers
import RingTape.Proofs.Frame
import RingTape.Proofs.StepLimit
import RingTape.Proofs.WorkingConsole

/-!
# Cells that a machine does not leave

Two sorts of cells keep the program counter where it is: the end of the program, and a
cell that names no instruction.  Neither touches the ring, so a machine that has come to
such a cell finds the same cell at its next step, and at every step after it
(`AtRest.undisturbed_after`).  At the end of the program nothing else happens
(`console_after_finish`), and at a cell without an instruction each step puts one copy of
the same text on the console (`console_after_stray`).

A run that comes to a cell without an instruction can only be stopped from outside.
Under a limit it complains as often as it has room for (`runWatching_of_stray`).  A run
from the end of the program ends at once (`runWatching_of_finish`), whatever calls were
made since the program came to its end.
-/

namespace RingTape

namespace Console

/-- The console after the same bytes were offered to it a number of times. -/
def offered (c : Console) (bytes : List UInt8) : Nat → Console
  | 0 => c
  | n + 1 => ((c.offered bytes n).write bytes).2

/-- The console takes the same bytes a number of times, one after the other. -/
def TakesCopies (c : Console) (bytes : List UInt8) (n : Nat) : Prop :=
  ∀ i, i < n → ((c.offered bytes i).write bytes).1 = .ok ()

variable {c : Console} {bytes : List UInt8} {n : Nat}

theorem written_offered (h : c.TakesCopies bytes n) :
    (c.offered bytes n).written = c.written ++ (List.replicate n bytes).flatten := by
  induction n with
  | zero => exact (List.append_nil _).symm
  | succ n ih =>
    have hbefore := ih fun i hi => h i (Nat.lt_succ_of_lt hi)
    have hlast : (c.offered bytes n).write bytes = (.ok (), c.offered bytes (n + 1)) :=
      Prod.ext (h n (Nat.lt_succ_self n)) rfl
    rw [written_write hlast, hbefore, List.replicate_succ', List.flatten_concat,
      List.append_assoc]

/-- A console that works takes every number of copies. -/
theorem Working.offered (h : c.Working) (bytes : List UInt8) (n : Nat) :
    (c.offered bytes n).Working := by
  induction n with
  | zero => exact h
  | succ n ih => exact (ih.write rfl).2

theorem Working.takesCopies (h : c.Working) (bytes : List UInt8) (n : Nat) :
    c.TakesCopies bytes n :=
  fun i _ => ((h.offered bytes i).write rfl).1

end Console

namespace Machine

variable {World Link : Type} {net : Network World Link} {flag : Nat → Bool}
  {m t : Machine World Link}

/-- What a step puts on the console at a cell that names no instruction. -/
def strayBytes : List UInt8 :=
  Text.utf8 strayCellText.toList

/-- The program counter is at a cell that it does not leave. -/
def AtRest (m : Machine World Link) : Prop :=
  m.fetched = none ∨ m.fetched = some .finish

/-! ## One step -/

theorem step_of_stray (net : Network World Link) (h : m.fetched = none) :
    (m.step net).outcome = .ofAnswer (m.console.write strayBytes).1 ∧
      (m.step net).machine =
        { m.counted none with console := (m.console.write strayBytes).2 } := by
  rcases hwrite : m.console.write strayBytes with ⟨result, console⟩
  rw [step_of_fetched_none h, stepStray_offered (m := m.counted none) hwrite]
  refine ⟨outcome_proceed _ _ _ _, ?_⟩
  cases result with
  | ok => simp only [proceed, goOn, UInt16.add_zero]
  | error fault => rfl

theorem step_of_finish (net : Network World Link) (h : m.fetched = some .finish) :
    m.step net = ⟨.halted .finished, m.counted (some .finish), []⟩ :=
  step_of_fetched_some h

/-- A step at a cell that names no instruction goes on or fails. -/
theorem outcome_of_stray (net : Network World Link) (h : m.fetched = none) (reason : Halt) :
    (m.step net).outcome ≠ .halted reason := by
  rw [(step_of_stray net h).1]
  cases (m.console.write strayBytes).1 <;> exact Outcome.noConfusion

theorem AtRest.undisturbed_step (net : Network World Link) (h : m.AtRest) :
    m.Undisturbed (m.step net).machine ∧ (m.step net).machine.world = m.world := by
  rcases h with hstray | hfinish
  · rw [(step_of_stray net hstray).2]
    exact ⟨⟨rfl, rfl, rfl, rfl, rfl, rfl, rfl, (Console.write_contract rfl).1⟩, rfl⟩
  · rw [step_of_finish net hfinish]
    exact ⟨⟨rfl, rfl, rfl, rfl, rfl, rfl, rfl, rfl⟩, rfl⟩

/-! ## Any number of steps -/

/-- **A machine at rest stays at rest**, whatever its console does. -/
theorem AtRest.undisturbed_after (net : Network World Link) (h : m.AtRest) (n : Nat) :
    m.Undisturbed (m.after net n) ∧ (m.after net n).world = m.world := by
  induction n with
  | zero => exact ⟨.refl m, rfl⟩
  | succ n ih =>
    obtain ⟨hsame, hworld⟩ := ih
    have hrest : (m.after net n).AtRest := by
      rw [AtRest, hsame.fetched]
      exact h
    obtain ⟨hnext, hnextWorld⟩ := hrest.undisturbed_step net
    exact ⟨hsame.trans hnext, hnextWorld.trans hworld⟩

theorem AtRest.fetched_after (net : Network World Link) (h : m.AtRest) (n : Nat) :
    (m.after net n).fetched = m.fetched :=
  (h.undisturbed_after net n).1.fetched

theorem console_after_finish (net : Network World Link) (h : m.fetched = some .finish) (n : Nat) :
    (m.after net n).console = m.console := by
  induction n with
  | zero => rfl
  | succ n ih =>
    have hfetched := (AtRest.fetched_after net (Or.inr h) n).trans h
    rw [after, step_of_finish net hfetched]
    exact ih

theorem console_after_stray (net : Network World Link) (h : m.fetched = none) (n : Nat) :
    (m.after net n).console = m.console.offered strayBytes n := by
  induction n with
  | zero => rfl
  | succ n ih =>
    have hfetched := (AtRest.fetched_after net (Or.inl h) n).trans h
    rw [after, (step_of_stray net hfetched).2, Console.offered, ← ih]

/-- As long as the console takes the text, the steps go on. -/
theorem continues_of_stray (net : Network World Link) (h : m.fetched = none) {n : Nat}
    (htakes : m.console.TakesCopies strayBytes n) : m.Continues net n := by
  intro i hi
  have hfetched := (AtRest.fetched_after net (Or.inl h) i).trans h
  rw [(step_of_stray net hfetched).1, console_after_stray net h, htakes i hi]
  rfl

/-! ## Runs that come to a cell without an instruction -/

/-- The last step of a run that a step has halted is the one that halted it. -/
theorem exists_halted_of_watched {reason : Halt}
    (hreason : reason = .finished ∨ reason = .inputExhausted)
    (h : (m.watched net flag).ending = .halted reason) :
    ∃ last, m.paces net flag = last + 1 ∧
      ((m.after net last).step net).outcome = .halted reason := by
  obtain ⟨n, moves, -, hends, hmoves⟩ := watched_ends net flag m
  rw [h] at hends
  generalize (m.watched net flag).machine = t at hends
  cases hends with
  | raised | limited => simp at hreason
  | halted _ _ _ hstep => exact ⟨n, paces_of_moves hmoves, hstep⟩

theorem fetched_of_tape (h : t.tape = m.tape) : t.fetched = m.fetched := by
  have hmemory : t.memory = m.memory := congrArg Tape.memory h
  have hpc : t.pc = m.pc := congrArg Tape.pc h
  rw [fetched, fetched, hmemory, hpc]

/-- A step that halts finds the same cell again. -/
theorem tape_of_halted {reason : Halt} (h : (m.step net).outcome = .halted reason) :
    (m.step net).machine.tape = m.tape := by
  apply tape_of_not_continued
  rw [h]
  exact Outcome.noConfusion

/-- **No step halts a run that has come to a cell without an instruction.** -/
theorem runWatching_ne_of_stray {k : Nat} {reason : Halt} (hk : k ≤ m.paces net flag)
    (hstray : (m.after net k).fetched = none)
    (hreason : reason = .finished ∨ reason = .inputExhausted) :
    (m.runWatching net flag).ending ≠ .halted reason := by
  intro hended
  obtain ⟨last, hpaces, hstep⟩ := exists_halted_of_watched hreason (ending_of_cleaned hended)
  have hlast : (m.after net last).fetched = none := by
    rcases Nat.lt_or_ge last k with hlt | hle
    · -- the run came to the cell with its last step, which has not moved it
      obtain rfl : k = last + 1 := by omega
      rw [← fetched_of_tape (tape_of_halted hstep)]
      exact hstray
    · obtain ⟨more, rfl⟩ := Nat.exists_eq_add_of_le hle
      rw [after_add]
      exact (AtRest.fetched_after net (Or.inl hstray) more).trans hstray
  exact outcome_of_stray net hlast reason hstep

/-- A cleanup after a halt other than the end of the program writes nothing. -/
theorem finish_flushed (net : Network World Link) (m : Machine World Link) {reason : Halt}
    (hreason : reason ≠ .finished) (hflush : m.console.flush.1 = .ok ()) :
    (m.finish net reason).ending = .halted reason ∧
      (m.finish net reason).machine.console.written = m.console.written := by
  have hending : (m.finish net reason).ending = .halted reason := by
    rw [ending_finish hreason, hflush]
    rfl
  have hcleanup := finish_cleanup net m reason
  rw [hending] at hcleanup
  obtain ⟨-, hwritten, -⟩ := hcleanup.of_halted
  rw [Halt.mark, if_neg hreason, List.append_nil] at hwritten
  exact ⟨hending, hwritten⟩

/-- **A run at a cell without an instruction** ends at its limit, and has complained as
often as there was room for. -/
theorem runWatching_of_stray (net : Network World Link) (h : m.fetched = none) {limit : UInt64}
    (hlimit : m.settings.maxSteps = some limit) (hsteps : m.steps ≤ limit)
    (hflag : ∀ i, i ≤ m.roomTo limit → flag i = false)
    (htakes : m.console.TakesCopies strayBytes (m.roomTo limit))
    (hflush : (m.console.offered strayBytes (m.roomTo limit)).flush.1 = .ok ()) :
    (m.runWatching net flag).ending = .halted .stepLimit ∧
      m.paces net flag = m.roomTo limit ∧
      (m.runWatching net flag).machine.console.written =
        m.console.written ++ (List.replicate (m.roomTo limit) strayBytes).flatten ∧
      (m.runWatching net flag).machine.tape = m.tape := by
  have hroom : m.HasRoom (m.roomTo limit) := by
    intro n hn
    obtain rfl : limit = n := Option.some.inj (hlimit.symm.trans hn)
    exact Nat.le_of_eq (steps_add_roomTo hsteps)
  have hgoes : m.Goes net flag 0 (m.roomTo limit) := by
    refine ⟨fun i hi => ?_, fun i hi => hroom.limitReached_after hi,
      continues_of_stray net h htakes⟩
    rw [Nat.zero_add]
    exact hflag i (Nat.le_of_lt hi)
  have hreached := limitReached_after_roomTo hlimit net
  have hclear : flag (0 + m.roomTo limit) = false := hflag _ (by omega)
  obtain ⟨hstopped, hmachine, hpaces⟩ :=
    watched_of_ends hgoes (.limited (roomTo_lt_turns limit m) hclear hreached)
  have hconsole := console_after_stray net h (m.roomTo limit)
  have hunmarked : Halt.stepLimit ≠ .finished := by decide
  obtain ⟨hending, hwritten⟩ := finish_flushed net _ hunmarked (hconsole ▸ hflush)
  rw [runWatching_halted hstopped, hmachine]
  refine ⟨hending, hpaces, ?_, ?_⟩
  · rw [hwritten, hconsole, Console.written_offered htakes]
  · obtain ⟨hsame, -⟩ := AtRest.undisturbed_after net (Or.inl h) (m.roomTo limit)
    rw [tape_finish, tape, hsame.memory, hsame.pc, hsame.head]
    rfl

/-! ## Runs from the end of the program -/

/-- **A run from the end of the program** makes one step and marks the end. -/
theorem runWatching_of_finish (net : Network World Link) (h : m.fetched = some .finish)
    (hflag : flag 0 = false) (hlimit : m.limitReached = false)
    (hwrite : (m.console.write [0x0a]).1 = .ok ())
    (hflush : (m.console.write [0x0a]).2.flush.1 = .ok ()) :
    (m.runWatching net flag).ending = .halted .finished ∧ m.paces net flag = 1 ∧
      (m.runWatching net flag).machine.console.written = m.console.written ++ [0x0a] ∧
      (m.runWatching net flag).machine.tape = m.tape := by
  have hstep := step_of_finish net h
  have hhalts : ((m.after net 0).step net).outcome = .halted .finished := by
    rw [after, hstep]
  have hturns : 0 < m.turnsLeft := Nat.sub_pos_of_lt m.steps.toNat_lt
  obtain ⟨hstopped, hmachine, hpaces⟩ :=
    watched_of_ends .zero (.halted hturns hflag hlimit hhalts)
  rw [after, after, hstep] at hmachine
  rcases hmarked : m.console.write [0x0a] with ⟨result, marked⟩
  rcases hflushed : marked.flush with ⟨answer, flushed⟩
  rw [hmarked] at hwrite hflush
  rw [hflushed] at hflush
  obtain rfl : result = .ok () := hwrite
  obtain rfl : answer = .ok () := hflush
  have hending : ((m.counted (some .finish)).finish net .finished).ending =
      .halted .finished := by
    rw [finish_marked (m := m.counted (some .finish)) rfl hmarked, lastFlush_answered hflushed]
    rfl
  have hcleanup := finish_cleanup net (m.counted (some .finish)) .finished
  rw [hending] at hcleanup
  rw [runWatching_halted hstopped, hmachine]
  exact ⟨hending, hpaces, hcleanup.of_halted.2.1, tape_finish net _ .finished⟩

/-- A run that has come to the end of the program is still there. -/
theorem fetched_of_run_finished (h : (m.runWatching net flag).ending = .halted .finished) :
    (m.runWatching net flag).machine.fetched = some .finish := by
  have hstopped : (m.watched net flag).ending = .halted .finished := ending_of_cleaned h
  obtain ⟨last, hpaces, hstep⟩ := exists_halted_of_watched (Or.inl rfl) hstopped
  have hfinish := (step_conduct net (m.after net last)).verdict.finished_iff.mp hstep
  have htape : (m.runWatching net flag).machine.tape = (m.after net last).tape := by
    rw [runWatching_halted hstopped, machine_watched, hpaces, tape_finish, after,
      tape_of_halted hstep]
  exact (fetched_of_tape htape).trans hfinish

/-- At the end of the program no move changes the ring or a cursor. -/
theorem tape_play_of_finish (net : Network World Link) (h : m.fetched = some .finish)
    (moves : List Move) : (m.play net moves).1.tape = m.tape := by
  induction moves generalizing m with
  | nil => rfl
  | cons move rest ih =>
    have htape : (m.move net move).1.tape = m.tape := by
      cases move with
      | step =>
        rw [Machine.move, step_of_finish net h]
        rfl
      | cleanup reason => exact tape_finish net m reason
    exact (ih ((fetched_of_tape htape).trans h)).trans htape

theorem tape_callAll_of_finish (net : Network World Link) (h : m.fetched = some .finish)
    (calls : List Call) : (m.callAll net calls).1.tape = m.tape := by
  rw [callAll_eq_play]
  exact tape_play_of_finish net h _

/-- **Cells that a machine does not leave.**  At the end of the program, and at a cell that
names no instruction, every number of steps leaves the ring, the cursors, the connections
and the network as they were.  At the end of the program nothing is put on the console and
every step halts; at a cell without an instruction the steps go on for as long as the
console takes their text, and put it there once each.

So a run that comes to a cell without an instruction never comes to the end of the program
or to that of its input.  If it starts there below a limit, under a flag that stays clear
and on a console that takes what is written, it stops at the limit after one copy of the
text for each step there was room for.

After a run that came to the end of the program, calls no longer change the ring or a
cursor.  A later run on the same ring with its cursors there, if its flag is clear, its
limit not reached and the mark of the end is taken, comes to the end of the program with
one step, and adds a newline. -/
theorem resting_cells_absorb (net : Network World Link) (m : Machine World Link) :
    (m.AtRest → ∀ n,
      m.Undisturbed (m.after net n) ∧ (m.after net n).world = m.world) ∧
    (m.fetched = some .finish → ∀ n,
      (m.after net n).console = m.console ∧
        ((m.after net n).step net).outcome = .halted .finished) ∧
    (m.fetched = none → ∀ n, m.console.TakesCopies strayBytes n →
      m.Continues net n ∧ (m.after net n).console.written =
        m.console.written ++ (List.replicate n strayBytes).flatten) ∧
    (∀ flag k, k ≤ m.paces net flag → (m.after net k).fetched = none →
      (m.runWatching net flag).ending ≠ .halted .finished ∧
        (m.runWatching net flag).ending ≠ .halted .inputExhausted) ∧
    (∀ flag limit, m.fetched = none → m.settings.maxSteps = some limit → m.steps ≤ limit →
      (∀ i, i ≤ m.roomTo limit → flag i = false) →
      m.console.TakesCopies strayBytes (m.roomTo limit) →
      (m.console.offered strayBytes (m.roomTo limit)).flush.1 = .ok () →
      let run := m.runWatching net flag
      run.ending = .halted .stepLimit ∧ m.paces net flag = m.roomTo limit ∧
        run.machine.console.written =
          m.console.written ++ (List.replicate (m.roomTo limit) strayBytes).flatten ∧
        run.machine.tape = m.tape) ∧
    ∀ flag, (m.runWatching net flag).ending = .halted .finished →
      let last := (m.runWatching net flag).machine
      (∀ calls, (last.callAll net calls).1.tape = last.tape) ∧
      ∀ (t : Machine World Link) (flag : Nat → Bool), t.tape = last.tape → flag 0 = false →
        t.limitReached = false → (t.console.write [0x0a]).1 = .ok () →
        (t.console.write [0x0a]).2.flush.1 = .ok () →
        let run := t.runWatching net flag
        run.ending = .halted .finished ∧ t.paces net flag = 1 ∧
          run.machine.console.written = t.console.written ++ [0x0a] ∧
          run.machine.tape = t.tape := by
  refine ⟨fun h n => h.undisturbed_after net n, fun h n => ⟨console_after_finish net h n, ?_⟩,
    fun h n htakes => ⟨continues_of_stray net h htakes, ?_⟩, fun flag k hk hstray => ?_,
    fun flag limit h hlimit hsteps hflag htakes hflush =>
      runWatching_of_stray net h hlimit hsteps hflag htakes hflush,
    fun flag hended => ?_⟩
  · rw [step_of_finish net ((AtRest.fetched_after net (Or.inr h) n).trans h)]
  · rw [console_after_stray net h, Console.written_offered htakes]
  · exact ⟨runWatching_ne_of_stray hk hstray (Or.inl rfl),
      runWatching_ne_of_stray hk hstray (Or.inr rfl)⟩
  · intro last
    have hfinish : last.fetched = some .finish := fetched_of_run_finished hended
    refine ⟨tape_callAll_of_finish net hfinish,
      fun t flag htape hflag hlimit hwrite hflush => ?_⟩
    exact runWatching_of_finish net ((fetched_of_tape htape).trans hfinish) hflag hlimit hwrite
      hflush

/-- A machine that holds a connection, at a cell without an instruction, complains three
times if its limit is three, and holds the connection meanwhile.  One that has come to the
end of its program comes there again on a new console. -/
theorem resting_cells_absorb_linked :
    (let m := (linked 0x0f {}).limitedTo (some 3)
     let run := m.runWatching PeerWorld.network fun _ => false
     m.fetched = none ∧ (m.after PeerWorld.network 3).active = some ⟨.unix, "", 0⟩ ∧
      run.ending = .halted .stepLimit ∧ m.paces PeerWorld.network (fun _ => false) = 3 ∧
      run.machine.console.written = strayBytes ++ strayBytes ++ strayBytes) ∧
    let first := (linked Opcode.finish.code {}).runWatching PeerWorld.network fun _ => false
    let last := first.machine
    let again : Machine PeerWorld Nat := { last with console := .new [] {} }
    let run := again.runWatching PeerWorld.network fun _ => false
    run.ending = .halted .finished ∧ again.paces PeerWorld.network (fun _ => false) = 1 ∧
      run.machine.console.written = [0x0a] ∧ run.machine.tape = last.tape := by
  have hworking : (Console.new [] {}).Working := Console.working_unruled _
  constructor
  · intro m run
    have hstray : m.fetched = none := (fetched_linked 0x0f {}).trans (by decide)
    have hroom : m.roomTo 3 = 3 := rfl
    obtain ⟨hrest, -, -, -, hlimited, -⟩ := resting_cells_absorb PeerWorld.network m
    obtain ⟨hending, hpaces, hwritten, -⟩ := hlimited (fun _ => false) 3 hstray rfl (by decide)
      (fun _ _ => rfl) (hworking.takesCopies strayBytes _)
      ((hworking.offered strayBytes _).flush rfl).1
    refine ⟨hstray, (hrest (Or.inl hstray) 3).1.active, hending, hpaces.trans hroom, ?_⟩
    rw [hroom] at hwritten
    exact hwritten.trans (by simp [Console.written]; rfl)
  · intro first last again run
    have hunlimited : again.limitReached = false := by
      have hsettings : last.settings = {} := by
        have hbooks := books_runWatching PeerWorld.network (fun _ => false)
          (linked Opcode.finish.code {})
        rw [machine_watched] at hbooks
        exact (congrArg Books.settings hbooks).trans (settings_after PeerWorld.network _ _)
      rw [limitReached, show again.settings = {} from hsettings]
    obtain ⟨-, -, -, -, -, hfinished⟩ := resting_cells_absorb PeerWorld.network
      (linked Opcode.finish.code {})
    obtain ⟨-, hagain⟩ := hfinished (fun _ => false) ending_linked_finish
    have hmark : (again.console.write [0x0a]).1 = .ok () ∧
        (again.console.write [0x0a]).2.Working := hworking.write rfl
    exact hagain again (fun _ => false) rfl rfl hunlimited hmark.1 (hmark.2.flush rfl).1

end Machine
end RingTape
