import Mathlib.Algebra.GroupWithZero.Nat
import Mathlib.Algebra.Ring.Int.Defs
import RingTape.Network.Peers
import RingTape.Proofs.Parts

/-!
# Straight-line code

Five instructions only move the head, add to the current cell or do nothing, and go on
with the cell after their own.  Code that is made of them is executed from its first cell
to its last, and what it does is known without executing it: the head moves by what its
instructions move it, and each cell grows by what is added to it while the head is there.

Program and data share one ring, so all this holds only as long as the code is still what
it was when its turn comes.  An instruction that adds may do so to a cell that was
executed before, and to its own cells, which were read before they are written; it has to
spare the cells of the instructions after it (`Spares`).  One instruction then leaves the
rest of the code as it stood (`holds_nextMemory`), and by induction over the code the
effects of its instructions add up (`composes_take`).
-/

namespace RingTape

/-- **An instruction of straight-line code**, with its operand if it takes one. -/
inductive TapeInstruction where
  /-- Does nothing. -/
  | nop
  /-- Moves the head toward higher addresses. -/
  | forward (operand : UInt8)
  /-- Moves the head toward lower addresses. -/
  | backward (operand : UInt8)
  /-- Adds to the current cell. -/
  | increment (operand : UInt8)
  /-- Subtracts from the current cell. -/
  | decrement (operand : UInt8)
deriving DecidableEq, Repr

namespace TapeInstruction

/-- The instruction without its operand. -/
def op : TapeInstruction → Opcode
  | nop => .nop
  | forward _ => .forward
  | backward _ => .backward
  | increment _ => .increment
  | decrement _ => .decrement

/-- The operand. -/
def operand? : TapeInstruction → Option UInt8
  | nop => none
  | forward n | backward n | increment n | decrement n => some n

/-- The number of cells that the instruction takes up. -/
def width (i : TapeInstruction) : Nat :=
  1 + i.op.operandCount

/-- The amount that an operand stands for: one more, modulo 256. -/
def amount (operand : UInt8) : Int :=
  (operand.toNat + 1) % 256

/-- By how much the instruction moves the head. -/
def motion : TapeInstruction → Int
  | forward n => amount n
  | backward n => -amount n
  | nop | increment _ | decrement _ => 0

/-- By how much the instruction raises the current cell. -/
def growth : TapeInstruction → Int
  | increment n => amount n
  | decrement n => -amount n
  | nop | forward _ | backward _ => 0

/-- The instruction writes to the current cell. -/
def Adds (i : TapeInstruction) : Prop :=
  i.op = .increment ∨ i.op = .decrement

instance (i : TapeInstruction) : Decidable i.Adds :=
  inferInstanceAs (Decidable (_ ∨ _))

/-- The number of cells that code takes up. -/
def extent (code : List TapeInstruction) : Nat :=
  (code.map width).sum

/-- By how much code moves the head. -/
def travel (code : List TapeInstruction) : Int :=
  (code.map motion).sum

/-- **The code spares what is still to be executed**, if it stands from `a` on and the
head starts at `head`: no instruction that adds has the head on a cell of the
instructions after it. -/
def Spares (a head : UInt16) : List TapeInstruction → Prop
  | [] => True
  | i :: rest =>
    (i.Adds → ∀ j, j < extent rest → head ≠ a + UInt16.ofNat i.width + UInt16.ofNat j) ∧
      Spares (a + UInt16.ofNat i.width) (head + UInt16.ofInt i.motion) rest

instance decidableSpares (a head : UInt16) :
    (code : List TapeInstruction) → Decidable (Spares a head code)
  | [] => .isTrue trivial
  | i :: rest =>
    have := decidableSpares (a + UInt16.ofNat i.width) (head + UInt16.ofInt i.motion) rest
    inferInstanceAs (Decidable (_ ∧ _))

theorem extent_cons (i : TapeInstruction) (rest : List TapeInstruction) :
    extent (i :: rest) = i.width + extent rest :=
  List.sum_cons

theorem travel_cons (i : TapeInstruction) (rest : List TapeInstruction) :
    travel (i :: rest) = i.motion + travel rest :=
  List.sum_cons

/-- No instruction of straight-line code deals with the outside. -/
theorem op_quiet (i : TapeInstruction) :
    i.op ∉ [Opcode.write, .read, .connect, .finish] := by
  cases i <;> simp [op]

/-- As a cell, the amount is the operand and one. -/
theorem ofInt_amount (n : UInt8) : UInt8.ofInt (amount n) = n + 1 := by
  apply UInt8.toNat_inj.mp
  rw [UInt8.ofInt, UInt8.toNat_ofNat', UInt8.toNat_add, UInt8.toNat_one, amount]
  omega

/-- As a distance, it is that cell. -/
theorem ofInt_amount_distance (n : UInt8) : UInt16.ofInt (amount n) = (n + 1).toUInt16 := by
  apply UInt16.toNat_inj.mp
  rw [UInt16.ofInt, UInt16.toNat_ofNat', UInt8.toNat_toUInt16, UInt8.toNat_add,
    UInt8.toNat_one, amount]
  omega

end TapeInstruction

open TapeInstruction

namespace Memory

variable {memory other : Memory} {a : UInt16} {i : TapeInstruction} {code : List TapeInstruction}

/-- An instruction stands at an address, whatever the high bits of its cell are. -/
def Shows (memory : Memory) (a : UInt16) (i : TapeInstruction) : Prop :=
  Opcode.decode (memory.get a) = some i.op ∧ ∀ n, i.operand? = some n → memory.get (a + 1) = n

/-- **Code stands in the cells from an address on**, one instruction after the other. -/
def Holds (memory : Memory) (a : UInt16) : List TapeInstruction → Prop
  | [] => True
  | i :: rest => memory.Shows a i ∧ memory.Holds (a + UInt16.ofNat i.width) rest

theorem Shows.congr (h : memory.Shows a i)
    (hsame : ∀ j, j < i.width → other.get (a + UInt16.ofNat j) = memory.get (a + UInt16.ofNat j)) :
    other.Shows a i := by
  obtain ⟨hop, hoperand⟩ := h
  refine ⟨?_, fun n hn => ?_⟩
  · have hcell := hsame 0 (Nat.lt_of_lt_of_le Nat.one_pos (Nat.le_add_right 1 _))
    rw [show UInt16.ofNat 0 = 0 from rfl, UInt16.add_zero] at hcell
    rw [hcell, hop]
  · have hwide : 1 < i.width := by
      cases i with
      | nop => cases hn
      | forward | backward | increment | decrement => exact Nat.one_lt_two
    have hcell := hsame 1 hwide
    rw [show UInt16.ofNat 1 = 1 from rfl] at hcell
    rw [hcell, hoperand n hn]

/-- Code stands where its cells are the same. -/
theorem Holds.congr (h : memory.Holds a code)
    (hsame : ∀ j, j < extent code →
      other.get (a + UInt16.ofNat j) = memory.get (a + UInt16.ofNat j)) : other.Holds a code := by
  induction code generalizing a with
  | nil => trivial
  | cons i rest ih =>
    obtain ⟨hfirst, hrest⟩ := h
    rw [extent_cons] at hsame
    refine ⟨hfirst.congr fun j hj => hsame j (by omega), ih hrest fun j hj => ?_⟩
    have hcell := hsame (i.width + j) (by omega)
    rw [UInt16.ofNat_add, ← UInt16.add_assoc] at hcell
    exact hcell

end Memory

namespace Machine

variable {World Link : Type} {net : Network World Link} {m : Machine World Link}
  {i : TapeInstruction} {code : List TapeInstruction}

/-! ## One instruction -/

section Instruction

variable (hshows : m.memory.Shows m.pc i)
include hshows

theorem fetched_of_shows : m.fetched = some i.op :=
  hshows.1

theorem amount_of_shows {n : UInt8} (hn : i.operand? = some n) : m.amount = n + 1 := by
  rw [amount_eq, hshows.2 n hn]

theorem nextPc_of_shows : m.nextPc = m.pc + UInt16.ofNat i.width := by
  unfold nextPc
  rw [fetched_of_shows hshows]
  cases i <;> rfl

theorem stride_of_shows : m.stride = UInt16.ofInt i.motion := by
  unfold stride
  rw [fetched_of_shows hshows]
  cases i with
  | nop | increment n | decrement n => rfl
  | forward n => rw [motion, ofInt_amount_distance, ← amount_of_shows hshows rfl]; rfl
  | backward n =>
    rw [motion, UInt16.ofInt_neg, ofInt_amount_distance, ← amount_of_shows hshows rfl]; rfl

theorem get_nextMemory_of_shows (net : Network World Link) (c : UInt16) :
    (m.nextMemory net).get c =
      m.memory.get c + UInt8.ofInt (if m.head = c then i.growth else 0) := by
  have hset (value : UInt8) : (m.memory.set m.head (m.current + value)).get c =
      m.memory.get c + if m.head = c then value else 0 := by
    rw [Memory.get_set]
    split
    · rename_i hhead
      rw [current, hhead]
    · exact (UInt8.add_zero _).symm
  unfold nextMemory
  rw [fetched_of_shows hshows]
  cases i with
  | nop | forward n | backward n =>
    rw [growth, ite_self, show UInt8.ofInt 0 = 0 from rfl, UInt8.add_zero]
    rfl
  | increment n =>
    rw [growth, apply_ite UInt8.ofInt, ofInt_amount, ← amount_of_shows hshows rfl]
    exact hset m.amount
  | decrement n =>
    rw [growth, apply_ite UInt8.ofInt, UInt8.ofInt_neg, ofInt_amount,
      ← amount_of_shows hshows rfl, show UInt8.ofInt 0 = 0 from rfl, ← hset,
      ← UInt8.sub_eq_add_neg]
    rfl

/-- **What an instruction of straight-line code does.** -/
theorem step_of_shows (net : Network World Link) :
    (m.step net).outcome = .continued ∧ effectsOf (m.step net).events = [] ∧
      (m.step net).machine =
        { m.counted (some i.op) with
          memory := m.nextMemory net
          pc := m.pc + UInt16.ofNat i.width
          head := m.head + UInt16.ofInt i.motion } := by
  rw [← nextPc_of_shows hshows, ← stride_of_shows hshows, ← fetched_of_shows hshows]
  exact step_of_quiet net (fetched_of_shows hshows) i.op_quiet

end Instruction

/-! ## One instruction after the other -/

/-- **The code has done what its instructions do**, after as many steps as it has
instructions.  Every step has continued, and the outside has seen nothing. -/
structure Composes (net : Network World Link) (m : Machine World Link)
    (code : List TapeInstruction) : Prop where
  continues : m.Continues net code.length
  unseen : ∀ k, k < code.length → effectsOf ((m.after net k).step net).events = []
  machine : m.after net code.length =
    { m with
      memory := (m.after net code.length).memory
      pc := m.pc + UInt16.ofNat (extent code)
      head := m.head + UInt16.ofInt (travel code)
      steps := m.steps + UInt64.ofNat code.length
      profile := code.foldl (fun profile i => profile.record (some i.op)) m.profile }
  cells : ∀ c, (m.after net code.length).memory.get c = m.memory.get c +
    UInt8.ofInt (code.mapIdx fun k i => if (m.after net k).head = c then i.growth else 0).sum

theorem Composes.nil : m.Composes net [] := by
  refine ⟨nofun, nofun, ?_, fun c => (UInt8.add_zero _).symm⟩
  rw [show UInt16.ofNat (extent []) = 0 from rfl, show UInt16.ofInt (travel []) = 0 from rfl,
    show UInt64.ofNat [].length = 0 from rfl, UInt16.add_zero, UInt16.add_zero, UInt64.add_zero]
  rfl

/-- What an instruction does comes before what the rest of the code does. -/
theorem Composes.cons {rest : List TapeInstruction} (hshows : m.memory.Shows m.pc i)
    (h : (m.step net).machine.Composes net rest) : m.Composes net (i :: rest) := by
  obtain ⟨hcontinued, hunseen, hmachine⟩ := step_of_shows hshows net
  have hafter (k : Nat) := after_succ_eq net m k
  refine ⟨fun k hk => ?_, fun k hk => ?_, ?_, fun c => ?_⟩
  · cases k with
    | zero => exact hcontinued
    | succ k =>
      rw [hafter]
      exact h.continues k (Nat.lt_of_succ_lt_succ hk)
  · cases k with
    | zero => exact hunseen
    | succ k =>
      rw [hafter]
      exact h.unseen k (Nat.lt_of_succ_lt_succ hk)
  · have hpc : m.pc + UInt16.ofNat (extent (i :: rest)) =
        m.pc + UInt16.ofNat i.width + UInt16.ofNat (extent rest) := by
      rw [extent_cons, UInt16.ofNat_add, UInt16.add_assoc]
    have hhead : m.head + UInt16.ofInt (travel (i :: rest)) =
        m.head + UInt16.ofInt i.motion + UInt16.ofInt (travel rest) := by
      rw [travel_cons, UInt16.ofInt_add, UInt16.add_assoc]
    have hsteps : m.steps + UInt64.ofNat (i :: rest).length =
        m.steps + 1 + UInt64.ofNat rest.length := by
      rw [List.length_cons, Nat.add_comm, UInt64.ofNat_add, ← UInt64.add_assoc]
      rfl
    rw [hpc, hhead, hsteps, List.length_cons, hafter, List.foldl_cons]
    refine h.machine.trans ?_
    generalize ((m.step net).machine.after net rest.length).memory = memory
    rw [hmachine]
    rfl
  · have hfirst := get_nextMemory_of_shows hshows net c
    rw [List.length_cons, hafter, h.cells c, List.mapIdx_cons, List.sum_cons, UInt8.ofInt_add,
      ← UInt8.add_assoc, after, ← hfirst]
    simp only [hafter]
    rw [show (m.step net).machine.memory = m.nextMemory net from congrArg Machine.memory hmachine]

/-- **One instruction leaves the rest of the code as it stood**, if it spares it. -/
theorem holds_nextMemory {rest : List TapeInstruction} {a : UInt16} (net : Network World Link)
    (hshows : m.memory.Shows m.pc i) (hrest : m.memory.Holds a rest)
    (hspares : i.Adds → ∀ j, j < extent rest → m.head ≠ a + UInt16.ofNat j) :
    (m.nextMemory net).Holds a rest := by
  refine hrest.congr fun j hj => ?_
  rw [get_nextMemory_of_shows hshows]
  by_cases hadds : i.Adds
  · rw [if_neg (hspares hadds j hj)]
    exact UInt8.add_zero _
  · have hgrowth : i.growth = 0 := by
      cases i with
      | nop | forward n | backward n => rfl
      | increment n => exact absurd (Or.inl rfl) hadds
      | decrement n => exact absurd (Or.inr rfl) hadds
    rw [hgrowth, ite_self]
    exact UInt8.add_zero _

/-- The effects of a first part of the code add up. -/
theorem composes_take (net : Network World Link) (hholds : m.memory.Holds m.pc code)
    (hspares : Spares m.pc m.head code) (k : Nat) : m.Composes net (code.take k) := by
  induction code generalizing m k with
  | nil =>
    rw [List.take_nil]
    exact .nil
  | cons i rest ih =>
    cases k with
    | zero => exact .nil
    | succ k =>
      obtain ⟨hshows, hrest⟩ := hholds
      obtain ⟨hfirst, hlater⟩ := hspares
      obtain ⟨-, -, hmachine⟩ := step_of_shows hshows net
      refine .cons hshows (ih ?_ ?_ k)
      · rw [hmachine]
        exact holds_nextMemory net hshows hrest hfirst
      · rw [hmachine]
        exact hlater

/-- **Straight-line code computes the composition of its effects.**  Let code stand in the
cells from the program counter on, and let no instruction of it write to a cell of the
instructions after it.  Then as many steps as it has instructions lead past its last cell,
with the head moved by what its instructions move it, and with each cell raised by what was
added while the head was there.  Nothing else changes but the counters.  The same holds of
every first part of the code, so that the head is where the code says when the turn of an
instruction comes. -/
theorem straight_line_composes (net : Network World Link) (m : Machine World Link)
    (code : List TapeInstruction) (hholds : m.memory.Holds m.pc code)
    (hspares : Spares m.pc m.head code) :
    m.Composes net code ∧ ∀ k, m.Composes net (code.take k) := by
  have hparts := composes_take net hholds hspares
  refine ⟨?_, hparts⟩
  have hall := hparts code.length
  rwa [List.take_length] at hall

/-- Code across the seam, with stray high bits, that adds five to its own first cell,
subtracts nothing from it and moves the head back by two. -/
def seamCode : List TapeInstruction :=
  [.increment 4, .nop, .decrement 255, .backward 1]

/-- A machine about to execute it. -/
def seamWorker : Machine PeerWorld Nat :=
  { load ⟨Memory.blank.write 65534 [0x57, 4, 0x10, 0xf8, 255, 0x06, 1], 0⟩ (.new [] {})
      (.ofPeers .isolated []) {} with
    pc := 65534
    head := 65534 }

theorem get_seamWorker (a : UInt16) : seamWorker.memory.get a =
    if 4 = a then 1 else if 3 = a then 0x06 else if 2 = a then 255 else if 1 = a then 0xf8
    else if 0 = a then 0x10 else if 65535 = a then 4 else if 65534 = a then 0x57 else 0 := by
  show (Memory.blank.write 65534 [0x57, 4, 0x10, 0xf8, 255, 0x06, 1]).get a = _
  simp only [Memory.write, Memory.get_set, Memory.get_blank]
  rfl

theorem holds_seamCode : seamWorker.memory.Holds 65534 seamCode := by
  have hoperand {a : UInt16} {n : UInt8} (h : seamWorker.memory.get (a + 1) = n) :
      ∀ k, some n = some k → seamWorker.memory.get (a + 1) = k :=
    fun k hk => h.trans (Option.some.inj hk)
  refine ⟨⟨?_, hoperand ?_⟩, ⟨?_, nofun⟩, ⟨?_, hoperand ?_⟩, ⟨?_, hoperand ?_⟩, trivial⟩
  all_goals
    rw [get_seamWorker]
    decide

/-- The code is executed across the seam, although its first instruction has written to its
own cell, which would be something else if it came again. -/
theorem straight_line_composes_across_seam :
    (seamWorker.memory.Holds seamWorker.pc seamCode ∧
      Spares seamWorker.pc seamWorker.head seamCode) ∧
    seamWorker.Continues PeerWorld.network 4 ∧
    (seamWorker.after PeerWorld.network 4).pc = 5 ∧
    (seamWorker.after PeerWorld.network 4).head = 65532 ∧
    (seamWorker.after PeerWorld.network 4).memory.get 65534 = 0x5c := by
  have hspares : Spares seamWorker.pc seamWorker.head seamCode :=
    show Spares 65534 65534 seamCode from by decide
  obtain ⟨hcomposes, -⟩ := straight_line_composes PeerWorld.network seamWorker seamCode
    holds_seamCode hspares
  have hgrowth : (seamCode.mapIdx fun k i =>
      if (seamWorker.after PeerWorld.network k).head = 65534 then i.growth else 0).sum = 5 := by
    have hstart : (seamWorker.after PeerWorld.network 0).head = 65534 := rfl
    simp [seamCode, growth, TapeInstruction.amount, hstart]
  refine ⟨⟨holds_seamCode, hspares⟩, hcomposes.continues, ?_, ?_, ?_⟩
  · exact (congrArg Machine.pc hcomposes.machine).trans (by decide)
  · exact (congrArg Machine.head hcomposes.machine).trans (by decide)
  · have hcell := hcomposes.cells 65534
    rw [hgrowth, get_seamWorker] at hcell
    exact hcell.trans (by decide)

end Machine
end RingTape
