import RingTape.Network.Peers
import RingTape.Proofs.Departures
import RingTape.Proofs.StepOutcome

/-!
# What execution changes, and what it leaves alone

Program and data share one ring, and every instruction can reach all of it.  This module
says what an instruction does there: which cells a step that goes on leaves
(`nextMemory`), by how much it moves the head (`stride`), and where it goes on
(`nextPc`).  A step that does not go on leaves the ring and both cursors as they were
(`step_leads`).

So a step changes at most the cell that it started from, and only if it adds, subtracts
or reads (`Touches`), and it moves the head by its stride.  By induction over a history,
a cell that has changed was touched by one of its steps (`exists_touches_of_ne`), and the
head has moved by their strides (`head_play`).  Cleanups change none of this.
-/

namespace RingTape

variable {World Link : Type}

/-- The ring and the two cursors on it. -/
structure Tape where
  /-- The cells. -/
  memory : Memory
  /-- The address of the next instruction. -/
  pc : UInt16
  /-- The address of the current cell. -/
  head : UInt16

/-- The ring and the cursors of a machine. -/
def Machine.tape (m : Machine World Link) : Tape :=
  ⟨m.memory, m.pc, m.head⟩

/-- The transition of a machine with tape `start` goes to `next` if it goes on, and stays
where it is if not. -/
def Transition.Leads (t : Transition World Link) (start next : Tape) : Prop :=
  t.machine.tape = if t.outcome = .continued then next else start

namespace Machine

section Next

variable (net : Network World Link) (m : Machine World Link)

/-- The cells after something was read, or nothing: the end of the input writes a zero if
that is the policy. -/
def refilled (reading : Reading) : Memory :=
  match reading with
  | .ok (some byte) => m.memory.set m.head byte
  | _ => if m.settings.onEnd = .zero then m.memory.set m.head 0 else m.memory

/-- The cells after a step that goes on. -/
def nextMemory : Memory :=
  match m.fetched with
  | some .increment => m.memory.set m.head (m.memory.get m.head + (m.memory.get (m.pc + 1) + 1))
  | some .decrement => m.memory.set m.head (m.memory.get m.head - (m.memory.get (m.pc + 1) + 1))
  | some .read => m.refilled (m.supply net)
  | _ => m.memory

/-- What a step adds to the address of the head: its operand plus one, modulo 256, or the
opposite of that. -/
def stride : UInt16 :=
  match m.fetched with
  | some .forward => (m.memory.get (m.pc + 1) + 1).toUInt16
  | some .backward => -(m.memory.get (m.pc + 1) + 1).toUInt16
  | _ => 0

/-- The address past the partner of the bracket at the program counter, or past that
bracket if it has none. -/
def pastPartner (dir : Direction) : UInt16 :=
  match m.memory.matchingBracket m.pc dir with
  | some address => address + 1
  | none => m.pc + 1

/-- Where a step goes on. -/
def nextPc : UInt16 :=
  match m.fetched with
  | none => m.pc
  | some .opening => if m.memory.get m.head = 0 then m.pastPartner .forward else m.pc + 1
  | some .closing => if m.memory.get m.head = 0 then m.pc + 1 else m.pastPartner .backward
  | some .forward | some .backward | some .increment | some .decrement => m.pc + 2
  | some _ => m.pc + 1

/-- The tape after a step that goes on. -/
def nextTape : Tape :=
  ⟨m.nextMemory net, m.nextPc, m.head + m.stride⟩

/-- The step at the program counter may write the cell at an address: it adds, subtracts
or reads, and the head is there. -/
def Touches (a : UInt16) : Prop :=
  m.head = a ∧
    (m.fetched = some .increment ∨ m.fetched = some .decrement ∨ m.fetched = some .read)

end Next

/-! ## One step -/

section Instructions

variable (net : Network World Link) (m : Machine World Link)

theorem proceed_leads (width : UInt16) (result : Except Fault Unit) (events : List (Event Link)) :
    (m.proceed width result events).Leads m.tape ⟨m.memory, m.pc + width, m.head⟩ := by
  cases result <;> rfl

theorem stepStray_leads (cell : UInt8) : (m.stepStray cell).Leads m.tape m.tape := by
  rcases hwrite : m.console.write (Text.utf8 strayCellText.toList) with ⟨result, console⟩
  have hleads := proceed_leads { m with console := console } 0 result
    [.remark (.strayCell cell m.pc), .effect (.wrote (Text.utf8 strayCellText.toList) result)]
  rw [UInt16.add_zero] at hleads
  rw [stepStray_offered hwrite]
  exact hleads

theorem stepWrite_leads : (m.stepWrite net).Leads m.tape ⟨m.memory, m.pc + 1, m.head⟩ := by
  rcases m.active.eq_none_or_eq_some with hactive | ⟨connection, hactive⟩
  · rcases hwrite : m.console.write [m.current] with ⟨result, console⟩
    rw [stepWrite_offered hactive hwrite]
    exact proceed_leads { m with console := console } 1 result _
  · rw [stepWrite_connected hactive]
    rfl

theorem takeReading_leads (reading : Reading) (events : List (Event Link)) :
    (m.takeReading reading events).Leads m.tape ⟨m.refilled reading, m.pc + 1, m.head⟩ := by
  rcases reading with fault | _ | byte
  · cases hpolicy : m.settings.onEnd <;> simp [takeReading, refilled, hpolicy] <;> rfl
  · cases hpolicy : m.settings.onEnd <;> simp [takeReading, refilled, hpolicy] <;> rfl
  · rfl

theorem stepRead_leads :
    (m.stepRead net).Leads m.tape ⟨m.refilled (m.supply net), m.pc + 1, m.head⟩ := by
  rcases m.active.eq_none_or_eq_some with hactive | ⟨connection, hactive⟩
  · rcases hflush : m.console.flush with ⟨fault | _, console⟩
    · rw [stepRead_unflushed hactive hflush]
      rfl
    · have hsupply : m.supply net = console.readByte.1 := by simp only [supply, hactive, hflush]
      rw [stepRead_flushed hactive hflush, hsupply]
      exact takeReading_leads { m with console := console.readByte.2 } _ _
  · have hsupply : m.supply net = (net.receive connection.link m.world).1 := by
      simp only [supply, hactive]
    rw [stepRead_connected hactive, hsupply]
    exact takeReading_leads { m with world := (net.receive connection.link m.world).2 } _ _

theorem stepConnect_leads : (m.stepConnect net).Leads m.tape ⟨m.memory, m.pc + 1, m.head⟩ := by
  rcases hdial : m.dialling net with ⟨outcome, world⟩
  cases hreached : outcome.reached with
  | some connection =>
    rw [stepConnect_reached hdial hreached]
    unfold adopt
    split <;> rfl
  | none =>
    rcases hwrite : m.console.write (Text.utf8 noConnectionText.toList) with ⟨result, console⟩
    rw [stepConnect_offered hdial hreached hwrite]
    exact proceed_leads { m with console := console, world := world } 1 result _

theorem jumpPast_leads (dir : Direction) :
    (m.jumpPast dir).Leads m.tape ⟨m.memory, m.pastPartner dir, m.head⟩ := by
  cases hpartner : m.memory.matchingBracket m.pc dir with
  | some address =>
    rw [jumpPast_matched hpartner, pastPartner, hpartner]
    rfl
  | none =>
    rw [jumpPast_unmatched hpartner, pastPartner, hpartner]
    rfl

variable {m}

theorem execute_leads {op : Opcode} (hfetched : m.fetched = some op) :
    (m.execute net op).Leads m.tape (m.nextTape net) := by
  simp only [nextTape, nextMemory, nextPc, stride, hfetched]
  cases op with
  | nop | forward | increment | decrement | finish =>
    simp [execute, goOn, Transition.Leads, tape, setCurrent, current_eq, amount_eq]
  | backward =>
    simp [execute, goOn, Transition.Leads, tape, amount_eq, UInt16.sub_eq_add_neg]
  | opening =>
    simp only [UInt16.add_zero, execute]
    by_cases hzero : m.memory.get m.head = 0
    · rw [if_pos (m.current_eq.trans hzero), if_pos hzero]
      exact jumpPast_leads m .forward
    · rw [if_neg (m.current_eq ▸ hzero), if_neg hzero]
      rfl
  | closing =>
    simp only [UInt16.add_zero, execute]
    by_cases hzero : m.memory.get m.head = 0
    · rw [if_pos (m.current_eq.trans hzero), if_pos hzero]
      rfl
    · rw [if_neg (m.current_eq ▸ hzero), if_neg hzero]
      exact jumpPast_leads m .backward
  | write =>
    simp only [UInt16.add_zero]
    exact stepWrite_leads net m
  | read =>
    simp only [UInt16.add_zero]
    exact stepRead_leads net m
  | connect =>
    simp only [UInt16.add_zero]
    exact stepConnect_leads net m

/-- **What a step does to the ring and the cursors.** -/
theorem step_leads (net : Network World Link) (m : Machine World Link) :
    (m.step net).Leads m.tape (m.nextTape net) := by
  cases hfetched : m.fetched with
  | none =>
    have hnext : m.nextTape net = m.tape := by
      simp [nextTape, nextMemory, nextPc, stride, hfetched, tape]
    rw [step_of_fetched_none hfetched, hnext]
    exact stepStray_leads (m.counted none) _
  | some op =>
    rw [step_of_fetched_some hfetched]
    exact execute_leads (m := m.counted (some op)) net hfetched

end Instructions

/-! ## What a step leaves alone -/

section Steps

variable {net : Network World Link} {m : Machine World Link} {a : UInt16}

theorem tape_of_continued (h : (m.step net).outcome = .continued) :
    (m.step net).machine.tape = m.nextTape net :=
  (step_leads net m).trans (if_pos h)

theorem tape_of_not_continued (h : (m.step net).outcome ≠ .continued) :
    (m.step net).machine.tape = m.tape :=
  (step_leads net m).trans (if_neg h)

theorem get_refilled (reading : Reading) (h : m.head ≠ a) :
    (m.refilled reading).get a = m.memory.get a := by
  unfold refilled
  split
  · exact Memory.get_set_of_ne _ h _
  · split
    · exact Memory.get_set_of_ne _ h _
    · rfl

theorem get_nextMemory (net : Network World Link) (h : ¬ m.Touches a) :
    (m.nextMemory net).get a = m.memory.get a := by
  have hhead (hop : m.fetched = some .increment ∨ m.fetched = some .decrement ∨
      m.fetched = some .read) : m.head ≠ a := by
    intro hhead
    exact h ⟨hhead, hop⟩
  unfold nextMemory
  split
  case h_1 hfetched => exact Memory.get_set_of_ne _ (hhead (Or.inl hfetched)) _
  case h_2 hfetched => exact Memory.get_set_of_ne _ (hhead (Or.inr (Or.inl hfetched))) _
  case h_3 hfetched => exact get_refilled _ (hhead (Or.inr (Or.inr hfetched)))
  case h_4 => rfl

/-- **A step changes no cell that it does not touch**, whatever it comes to. -/
theorem get_step (net : Network World Link) (h : ¬ m.Touches a) :
    (m.step net).machine.memory.get a = m.memory.get a := by
  by_cases hcontinued : (m.step net).outcome = .continued
  · have hmemory : (m.step net).machine.memory = m.nextMemory net :=
      congrArg Tape.memory (tape_of_continued hcontinued)
    rw [hmemory, get_nextMemory net h]
  · have hmemory : (m.step net).machine.memory = m.memory :=
      congrArg Tape.memory (tape_of_not_continued hcontinued)
    rw [hmemory]

/-- An instruction that moves the head always goes on. -/
theorem continued_of_stride (net : Network World Link) (h : m.stride ≠ 0) :
    (m.step net).outcome = .continued := by
  unfold stride at h
  split at h
  case h_1 hfetched =>
    rw [step_of_fetched_some hfetched]
    rfl
  case h_2 hfetched =>
    rw [step_of_fetched_some hfetched]
    rfl
  case h_3 => exact absurd rfl h

variable (net m)

/-- **The head moves by the stride of the step**, whatever the step comes to. -/
theorem head_step : (m.step net).machine.head = m.head + m.stride := by
  by_cases hcontinued : (m.step net).outcome = .continued
  · exact congrArg Tape.head (tape_of_continued hcontinued)
  · have hstride : m.stride = 0 :=
      Decidable.byContradiction fun hmoves => hcontinued (continued_of_stride net hmoves)
    rw [hstride, UInt16.add_zero]
    exact congrArg Tape.head (tape_of_not_continued hcontinued)

end Steps

/-! ## Histories -/

section Histories

variable (net : Network World Link) (m : Machine World Link)

theorem tape_finish (reason : Halt) : (m.finish net reason).machine.tape = m.tape := by
  rw [machine_finish]
  rfl

variable {m} in
/-- **A cell that a history has changed was touched** by one of its steps. -/
theorem exists_touches_of_ne {moves : List Move} {a : UInt16}
    (h : (m.play net moves).1.memory.get a ≠ m.memory.get a) :
    ∃ t ∈ m.departures net moves, t.Touches a := by
  induction moves generalizing m with
  | nil => exact absurd rfl h
  | cons move rest ih =>
    cases move with
    | step =>
      rw [departures_step]
      by_cases htouches : m.Touches a
      · exact ⟨m, List.mem_cons_self, htouches⟩
      · rw [← get_step net htouches] at h
        obtain ⟨t, ht, htouched⟩ := ih h
        exact ⟨t, List.mem_cons_of_mem _ ht, htouched⟩
    | cleanup reason =>
      have hmemory : (m.finish net reason).machine.memory = m.memory :=
        congrArg Tape.memory (tape_finish net m reason)
      rw [← hmemory] at h
      exact ih h

/-- **The way of the head** is made of the strides of the steps. -/
theorem head_play (moves : List Move) : (m.play net moves).1.head =
    (m.departures net moves).foldl (fun head t => head + t.stride) m.head := by
  induction moves generalizing m with
  | nil => rfl
  | cons move rest ih =>
    cases move with
    | step =>
      have hrest := ih (m.step net).machine
      rw [head_step] at hrest
      exact hrest
    | cleanup reason =>
      have hrest := ih (m.finish net reason).machine
      have hhead : (m.finish net reason).machine.head = m.head :=
        congrArg Tape.head (tape_finish net m reason)
      rw [hhead] at hrest
      exact hrest

end Histories

/-- **What execution may change.**  A step changes no cell but the one that it starts
from, and that only if it adds, subtracts or reads.  It moves the head by its stride,
which is not zero only for the two instructions that move the head.  A step that goes on
goes to `nextPc`, and one that does not leaves the ring and both cursors alone.  No step
changes the settings.

So over any calls, whatever each of them comes to, a cell differs in the end only if one
of the steps that were made touched it, the head has moved by the strides of these steps,
and the settings are what they were. -/
theorem execution_frame (net : Network World Link) (m : Machine World Link) :
    (let next := (m.step net).machine
     (∀ a, next.memory.get a ≠ m.memory.get a → m.Touches a) ∧
      next.head = m.head + m.stride ∧
      next.settings = m.settings ∧
      ((m.step net).outcome = .continued → next.pc = m.nextPc) ∧
      ((m.step net).outcome ≠ .continued → next.tape = m.tape)) ∧
    ∀ calls : List Call,
      let moves := m.allMoves net calls
      let last := (m.callAll net calls).1
      m.callAll net calls = m.play net moves ∧
      (∀ a, last.memory.get a ≠ m.memory.get a → ∃ t ∈ m.departures net moves, t.Touches a) ∧
      last.head = (m.departures net moves).foldl (fun head t => head + t.stride) m.head ∧
      last.settings = m.settings := by
  refine ⟨⟨fun a hchanged => ?_, head_step net m, settings_step net m, fun hcontinued => ?_,
    tape_of_not_continued⟩, fun calls => ?_⟩
  · exact Classical.byContradiction fun htouches => hchanged (get_step net htouches)
  · exact congrArg Tape.pc (tape_of_continued hcontinued)
  · intro moves last
    have hlast : last = (m.play net moves).1 := congrArg Prod.fst (callAll_eq_play net m calls)
    rw [hlast]
    exact ⟨callAll_eq_play net m calls, fun a => exists_touches_of_ne net, head_play net m moves,
      settings_play net m moves⟩

/-- A machine whose head is on the instruction that it executes: it adds three to the
cell, which ends the program from then on. -/
def selfEditor : Machine PeerWorld Nat :=
  { load (.ofBytes [Opcode.increment.code, 2]) (.new [] {}) (.ofPeers .isolated []) {} with
    head := 0 }

/-- The cell that names the executed instruction is the one that the step touches. -/
theorem execution_frame_selfEditor :
    (selfEditor.step PeerWorld.network).outcome = .continued ∧
      (selfEditor.step PeerWorld.network).machine.pc = 2 ∧
      (selfEditor.step PeerWorld.network).machine.memory.get 0 = Opcode.finish.code ∧
      selfEditor.Touches 0 ∧
      ∃ t ∈ selfEditor.departures PeerWorld.network
        (selfEditor.allMoves PeerWorld.network [.step, .run fun _ => true]), t.Touches 0 := by
  obtain ⟨⟨hcells, -, -, hpc, -⟩, hcalls⟩ := execution_frame PeerWorld.network selfEditor
  have hcontinued : (selfEditor.step PeerWorld.network).outcome = .continued := by
    decide +kernel
  have hcell : (selfEditor.step PeerWorld.network).machine.memory.get 0 = Opcode.finish.code := by
    decide +kernel
  have hbefore : selfEditor.memory.get 0 = Opcode.increment.code := by decide +kernel
  obtain ⟨-, hcallCells, -⟩ := hcalls [.step, .run fun _ => true]
  have hafter : (selfEditor.callAll PeerWorld.network [.step, .run fun _ => true]).1.memory.get 0 =
      Opcode.finish.code := by decide +kernel
  refine ⟨hcontinued, ?_, hcell, hcells 0 ?_, hcallCells 0 ?_⟩
  · rw [hpc hcontinued]
    decide +kernel
  · rw [hcell, hbefore]
    decide
  · rw [hafter, hbefore]
    decide

end Machine
end RingTape
