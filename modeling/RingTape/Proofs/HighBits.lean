import RingTape.Proofs.Parts

/-!
# The high bits of an instruction

A cell that is only ever met as an instruction is met by its low four bits.  Two machines
that differ in the high bits of one cell fetch the same instructions and find the same
partners of brackets, because a search, too, looks at what the cells on its way decode to
(`Memory.seek_of_low`).

Only three things look at the whole value of a cell: the current cell, an operand, and the
six cells of an endpoint.  A step for which the cell is none of these (`Consults`) is the
same step for both machines, and it leaves the cell alone, so the two stay alike
(`AlikeBut.step`).  By induction this holds for as long as no step of the first machine
consults the cell.
-/

namespace RingTape

/-- Comparing bits looks at the low four only. -/
theorem Opcode.isNamedBy_of_low {cell other : UInt8} (h : other &&& 0x0f = cell &&& 0x0f)
    (op : Opcode) : op.isNamedBy other = op.isNamedBy cell := by
  rw [isNamedBy, isNamedBy, h]

namespace Memory

/-- **Two rings that are alike but for the high bits of one cell.** -/
structure AlikeBut (a : UInt16) (m n : Memory) : Prop where
  /-- Every other cell is the same. -/
  cells : ∀ b, b ≠ a → n.get b = m.get b
  /-- The low four bits of the cell are the same. -/
  low : n.get a &&& 0x0f = m.get a &&& 0x0f

variable {m n : Memory} {a : UInt16}

theorem AlikeBut.low_eq (h : m.AlikeBut a n) (b : UInt16) :
    n.get b &&& 0x0f = m.get b &&& 0x0f := by
  by_cases hb : b = a
  · rw [hb]
    exact h.low
  · rw [h.cells b hb]

/-- The same write to both rings. -/
theorem AlikeBut.set (h : m.AlikeBut a n) (b : UInt16) (value : UInt8) :
    (m.set b value).AlikeBut a (n.set b value) := by
  refine ⟨fun c hc => ?_, ?_⟩
  · rw [get_set, get_set, h.cells c hc]
  · rw [get_set, get_set]
    split
    · rfl
    · exact h.low

/-- **A search sees the low bits of the cells on its way** and nothing else of them. -/
theorem seek_of_low (h : ∀ b, n.get b &&& 0x0f = m.get b &&& 0x0f) (dir : Direction)
    (left depth : Nat) (b : UInt16) : n.seek dir left depth b = m.seek dir left depth b := by
  induction left generalizing depth b with
  | zero => rfl
  | succ left ih =>
    have hnamed (op : Opcode) :
        op.isNamedBy (n.get (dir.advance b)) = op.isNamedBy (m.get (dir.advance b)) :=
      Opcode.isNamedBy_of_low (h _) op
    simp only [seek, hnamed, ih]

end Memory

/-- An endpoint depends on its six cells only. -/
theorem Endpoint.ofMemory_congr {m n : Memory} {start : UInt16}
    (h : ∀ i, i < 6 → n.get (start + UInt16.ofNat i) = m.get (start + UInt16.ofNat i)) :
    ofMemory n start = ofMemory m start := by
  have hfirst : n.get start = m.get start := by simpa using h 0 (by decide)
  have hcell (i : UInt16) (hi : i.toNat < 6) : n.get (start + i) = m.get (start + i) := by
    simpa using h i.toNat hi
  rw [ofMemory, ofMemory, hfirst, hcell 1 (by decide), hcell 2 (by decide), hcell 3 (by decide),
    hcell 4 (by decide), hcell 5 (by decide)]

/-- The same for rings with cursors on them, which stand at the same places. -/
structure Tape.AlikeBut (a : UInt16) (x y : Tape) : Prop where
  memory : x.memory.AlikeBut a y.memory
  pc : y.pc = x.pc
  head : y.head = x.head

namespace Machine

variable {World Link : Type}

/-- The machine with other cells. -/
def holding (memory : Memory) (m : Machine World Link) : Machine World Link :=
  { m with memory := memory }

/-- The step at the program counter may look at the whole value of the cell at an address:
it is the current cell, or the operand of the instruction, or one of the six cells of the
endpoint that is dialled. -/
def Consults (m : Machine World Link) (a : UInt16) : Prop :=
  a = m.head ∨
  (a = m.pc + 1 ∧ ∃ op, m.fetched = some op ∧ 0 < op.operandCount) ∨
  (m.fetched = some .connect ∧ ∃ i, i < 6 ∧ a = m.head + UInt16.ofNat i)

/-- **Two machines that are alike but for the high bits of one cell.** -/
structure AlikeBut (a : UInt16) (m t : Machine World Link) : Prop where
  memory : m.memory.AlikeBut a t.memory
  rest : t = m.holding t.memory

/-! ## What a step looks at -/

section Holding

variable {net : Network World Link} {m : Machine World Link} {memory : Memory} {a : UInt16}
variable (h : m.memory.AlikeBut a memory)
include h

theorem fetched_holding : (m.holding memory).fetched = m.fetched :=
  Opcode.decode_eq_of_low_bits (h.low_eq m.pc)

theorem pastPartner_holding (dir : Direction) :
    (m.holding memory).pastPartner dir = m.pastPartner dir := by
  have hpartner : memory.matchingBracket m.pc dir = m.memory.matchingBracket m.pc dir :=
    Memory.seek_of_low h.low_eq dir Memory.size 1 m.pc
  simp only [pastPartner, holding, hpartner]

variable (hunused : ¬ m.Consults a)
include hunused

theorem get_head_holding :
    (m.holding memory).memory.get (m.holding memory).head = m.memory.get m.head :=
  h.cells m.head fun heq => hunused (Or.inl heq.symm)

theorem get_operand_holding {op : Opcode} (hfetched : m.fetched = some op)
    (hoperand : 0 < op.operandCount) :
    (m.holding memory).memory.get ((m.holding memory).pc + 1) = m.memory.get (m.pc + 1) :=
  h.cells (m.pc + 1) fun heq => hunused (Or.inr (Or.inl ⟨heq.symm, op, hfetched, hoperand⟩))

theorem dialling_holding (hfetched : m.fetched = some .connect) :
    (m.holding memory).dialling net = m.dialling net := by
  have hendpoint : Endpoint.ofMemory memory m.head = Endpoint.ofMemory m.memory m.head := by
    refine Endpoint.ofMemory_congr fun i hi => h.cells _ fun heq => ?_
    exact hunused (Or.inr (Or.inr ⟨hfetched, i, hi, heq.symm⟩))
  simp only [dialling, holding, hendpoint]

/-- The conditions of a rule hold for both machines or for none. -/
theorem Conduct.holding {effects : List (Effect Link)} {outcome : Outcome}
    {front : Front World Link} (hconduct : m.Conduct net effects outcome front) :
    (m.holding memory).Conduct net effects outcome front := by
  have hfetch := fetched_holding h
  have hcell := get_head_holding h hunused
  cases hconduct with
  | stray hfetched hwrite => exact .stray (hfetch.trans hfetched) hwrite
  | sent hfetched hactive hsend =>
    rw [← hcell] at hsend ⊢
    exact .sent (hfetch.trans hfetched) hactive hsend
  | wrote hfetched hactive hwrite =>
    rw [← hcell] at hwrite ⊢
    exact .wrote (hfetch.trans hfetched) hactive hwrite
  | received hfetched hactive hreceive =>
    exact .received (hfetch.trans hfetched) hactive hreceive
  | unflushed hfetched hactive hflush => exact .unflushed (hfetch.trans hfetched) hactive hflush
  | read hfetched hactive hflush hread =>
    exact .read (hfetch.trans hfetched) hactive hflush hread
  | reached hfetched hdial hreached =>
    rw [← dialling_holding h hunused hfetched] at hdial
    exact .reached (hfetch.trans hfetched) hdial hreached
  | unreached hfetched hdial hreached hwrite =>
    rw [← dialling_holding h hunused hfetched] at hdial
    exact .unreached (hfetch.trans hfetched) hdial hreached hwrite
  | finished hfetched => exact .finished (hfetch.trans hfetched)
  | quiet hfetched hop => exact .quiet (hfetch.trans hfetched) hop

theorem nextPc_holding : (m.holding memory).nextPc = m.nextPc := by
  simp only [nextPc, fetched_holding h, get_head_holding h hunused, pastPartner_holding h]
  rfl

theorem stride_holding : (m.holding memory).stride = m.stride := by
  unfold stride
  rw [fetched_holding h]
  split
  case h_1 hfetched => rw [get_operand_holding h hunused hfetched (by decide)]
  case h_2 hfetched => rw [get_operand_holding h hunused hfetched (by decide)]
  case h_3 => rfl

/-- The cells after a step are alike as well, because both machines write the same value
to the same cell. -/
theorem nextMemory_holding :
    (m.nextMemory net).AlikeBut a ((m.holding memory).nextMemory net) := by
  unfold nextMemory
  rw [fetched_holding h, get_head_holding h hunused]
  split
  case h_1 hfetched =>
    rw [get_operand_holding h hunused hfetched (by decide)]
    exact h.set m.head _
  case h_2 hfetched =>
    rw [get_operand_holding h hunused hfetched (by decide)]
    exact h.set m.head _
  case h_3 =>
    rw [show (m.holding memory).supply net = m.supply net from rfl]
    unfold refilled
    split
    · exact h.set m.head _
    · rw [show (m.holding memory).settings = m.settings from rfl]
      split
      · exact h.set m.head 0
      · exact h
  case h_4 => exact h

theorem nextTape_holding : (m.nextTape net).AlikeBut a ((m.holding memory).nextTape net) where
  memory := nextMemory_holding h hunused
  pc := nextPc_holding h hunused
  head := congrArg (m.head + ·) (stride_holding h hunused)

end Holding

/-! ## Steps -/

section Steps

variable (net : Network World Link) {m t : Machine World Link} {a : UInt16}

/-- **A step that does not consult the cell** comes to the same, does the same to the
outside, and leaves the machines as alike as they were. -/
theorem AlikeBut.step (h : m.AlikeBut a t) (hunused : ¬ m.Consults a) :
    (t.step net).outcome = (m.step net).outcome ∧
      effectsOf (t.step net).events = effectsOf (m.step net).events ∧
      (m.step net).machine.AlikeBut a (t.step net).machine := by
  obtain ⟨halike, hrest⟩ := h
  generalize t.memory = memory at halike hrest
  subst hrest
  obtain ⟨heffects, houtcome, hfront⟩ :=
    (Conduct.holding halike hunused (step_conduct net m)).eq_step
  have hbooks : ((m.holding memory).step net).machine.books = (m.step net).machine.books := by
    rw [books_step, books_step, fetched_holding halike]
    rfl
  have htape : (m.step net).machine.tape.AlikeBut a
      ((m.holding memory).step net).machine.tape := by
    rw [step_leads net m, step_leads net (m.holding memory), houtcome]
    split
    · exact nextTape_holding halike hunused
    · exact ⟨halike, rfl, rfl⟩
  have hcells : ((m.holding memory).step net).machine.tape =
      ((m.step net).machine.holding ((m.holding memory).step net).machine.memory).tape := by
    have hpc : ((m.holding memory).step net).machine.pc = (m.step net).machine.pc := htape.pc
    have hhead : ((m.holding memory).step net).machine.head = (m.step net).machine.head :=
      htape.head
    rw [tape, hpc, hhead]
    rfl
  exact ⟨houtcome, heffects, htape.memory, eq_of_parts hcells hfront hbooks⟩

/-- The cell itself is not written by such a step. -/
theorem AlikeBut.get_step (h : m.AlikeBut a t) (hunused : ¬ m.Consults a) :
    (m.step net).machine.memory.get a = m.memory.get a ∧
      (t.step net).machine.memory.get a = t.memory.get a := by
  have hhead : m.head ≠ a := fun heq => hunused (Or.inl heq.symm)
  have hsame : t.head = (m.holding t.memory).head := congrArg Machine.head h.rest
  exact ⟨Machine.get_step net fun htouches => hhead htouches.1,
    Machine.get_step net fun htouches => hhead (hsame ▸ htouches.1)⟩

/-- **The machines stay alike** for as long as no step of the first consults the cell. -/
theorem AlikeBut.after (h : m.AlikeBut a t) {n : Nat}
    (hunused : ∀ i, i < n → ¬ (m.after net i).Consults a) :
    (m.after net n).AlikeBut a (t.after net n) ∧
      (m.after net n).memory.get a = m.memory.get a ∧
      (t.after net n).memory.get a = t.memory.get a := by
  induction n with
  | zero => exact ⟨h, rfl, rfl⟩
  | succ n ih =>
    obtain ⟨halike, hcell, hcell'⟩ := ih fun i hi => hunused i (Nat.lt_succ_of_lt hi)
    have hlast := hunused n (Nat.lt_succ_self n)
    obtain ⟨-, -, hnext⟩ := halike.step net hlast
    obtain ⟨hkept, hkept'⟩ := halike.get_step net hlast
    exact ⟨hnext, hkept.trans hcell, hkept'.trans hcell'⟩

end Steps

/-- **The high bits of a cell that is only met as an instruction do not matter.**  Two
machines are alike but for the high bits of one cell.  For as long as no step of the first
has that cell for its current cell, for its operand, or among the six cells of the endpoint
that it dials, both make the same steps: each step comes to the same and does the same to
the outside, the machines stay alike, and the cell keeps its value in either. -/
theorem high_bits_irrelevant (net : Network World Link) (m t : Machine World Link) (a : UInt16)
    (halike : m.AlikeBut a t) (n : Nat) (hunused : ∀ i, i < n → ¬ (m.after net i).Consults a) :
    (∀ i, i < n →
      ((t.after net i).step net).outcome = ((m.after net i).step net).outcome ∧
      effectsOf ((t.after net i).step net).events = effectsOf ((m.after net i).step net).events) ∧
    ∀ i, i ≤ n → (m.after net i).AlikeBut a (t.after net i) ∧
      (m.after net i).memory.get a = m.memory.get a ∧
      (t.after net i).memory.get a = t.memory.get a := by
  have hafter (i : Nat) (hi : i ≤ n) := halike.after net (n := i)
    fun j hj => hunused j (Nat.lt_of_lt_of_le hj hi)
  refine ⟨fun i hi => ?_, hafter⟩
  obtain ⟨houtcome, heffects, -⟩ := (hafter i (Nat.le_of_lt hi)).1.step net (hunused i hi)
  exact ⟨houtcome, heffects⟩

/-- A machine about to pass an opening bracket and to jump back to it from the closing
one, which is its current cell. -/
def pacer : Machine PeerWorld Nat :=
  { load (.ofBytes [Opcode.opening.code, Opcode.closing.code]) (.new [] {})
      (.ofPeers .isolated []) {} with
    head := 1 }

/-- The opening bracket is first fetched and then found by a search, with any high bits. -/
theorem high_bits_irrelevant_pacer :
    let other := pacer.holding (pacer.memory.set 0 0x53)
    pacer.AlikeBut 0 other ∧ pacer.memory.get 0 ≠ other.memory.get 0 ∧
      (other.after PeerWorld.network 2).pc = 1 ∧
      ((other.after PeerWorld.network 1).step PeerWorld.network).outcome = .continued ∧
      (other.after PeerWorld.network 2).memory.get 0 = 0x53 := by
  intro other
  have halike : pacer.AlikeBut 0 other :=
    ⟨⟨fun b hb => Memory.get_set_of_ne _ hb.symm _, by decide +kernel⟩, rfl⟩
  have hhead : ∀ i < 2, 0 ≠ (pacer.after PeerWorld.network i).head := by decide +kernel
  have hpc : ∀ i < 2, 0 ≠ (pacer.after PeerWorld.network i).pc + 1 := by decide +kernel
  have hfetched : ∀ i < 2, (pacer.after PeerWorld.network i).fetched ≠ some .connect := by
    decide +kernel
  have hunused (i : Nat) (hi : i < 2) : ¬ (pacer.after PeerWorld.network i).Consults 0 := by
    rintro (hcurrent | ⟨hoperand, -⟩ | ⟨hconnect, -⟩)
    · exact hhead i hi hcurrent
    · exact hpc i hi hoperand
    · exact hfetched i hi hconnect
  obtain ⟨hsteps, hstates⟩ := high_bits_irrelevant PeerWorld.network pacer other 0 halike 2 hunused
  obtain ⟨houtcome, -⟩ := hsteps 1 (by decide)
  obtain ⟨hlast, -, hcell⟩ := hstates 2 (by decide)
  have hback : (pacer.after PeerWorld.network 2).pc = 1 := by decide +kernel
  have hcontinued : ((pacer.after PeerWorld.network 1).step PeerWorld.network).outcome =
      .continued := by decide +kernel
  refine ⟨halike, by decide +kernel, ?_, houtcome.trans hcontinued, ?_⟩
  · exact (congrArg Machine.pc hlast.rest).trans hback
  · exact hcell.trans (Memory.get_set_self _ _ _)

end Machine
end RingTape
