import RingTape.Network.Peers
import RingTape.Proofs.BracketCensus
import RingTape.Proofs.Parts

/-!
# The two ends of a loop

An opening bracket jumps on zero and a closing one jumps on anything else, each past the
partner that it finds in its own direction.  Partners find each other, so that both jumps
lead to where the other bracket goes on by itself: past the closing bracket on zero, and
past the opening one otherwise.  A machine that stands on either end of a loop therefore
goes on at the same address, and a loop is entered and repeated under one condition.

A step on a bracket keeps to the ring, changes no cell of it and leaves the head where it
is, whether or not there is a partner (`moves_of_bracket`).  All that is left to say is
where it goes on (`nextPc`).
-/

namespace RingTape
namespace Machine

variable {World Link : Type}

/-- **A step that only moves on**: it continues, the outside sees nothing of it, and the
machine is what it was, apart from its counters and the program counter. -/
structure MovesTo (net : Network World Link) (m : Machine World Link) (next : UInt16) : Prop where
  continued : (m.step net).outcome = .continued
  unseen : effectsOf (m.step net).events = []
  machine : (m.step net).machine = { m.counted m.fetched with pc := next }

section Brackets

variable {m : Machine World Link} {dir : Direction}

/-- **A bracket only moves on**, with a partner or without. -/
theorem moves_of_bracket (net : Network World Link) (dir : Direction)
    (hfetched : m.fetched = some dir.opener) : m.MovesTo net m.nextPc := by
  obtain ⟨hcontinued, hunseen, hmachine⟩ := step_of_quiet net hfetched (by cases dir <;> decide)
  have hring : m.nextMemory net = m.memory ∧ m.stride = 0 := by
    unfold nextMemory stride
    rw [hfetched]
    cases dir <;> exact ⟨rfl, rfl⟩
  refine ⟨hcontinued, hunseen, hmachine.trans ?_⟩
  rw [hring.1, hring.2, UInt16.add_zero]
  rfl

/-- A bracket without a partner is passed over, whatever the current cell holds. -/
theorem nextPc_unmatched (hfetched : m.fetched = some dir.opener)
    (hnone : m.memory.matchingBracket m.pc dir = none) : m.nextPc = m.pc + 1 := by
  have hpast : m.pastPartner dir = m.pc + 1 := by rw [pastPartner, hnone]
  cases dir with
  | forward => simp only [nextPc, hfetched, Direction.opener, hpast, ite_self]
  | backward => simp only [nextPc, hfetched, Direction.opener, hpast, ite_self]

theorem nextPc_opening {a : UInt16} (hfetched : m.fetched = some .opening)
    (hpartner : m.memory.matchingBracket m.pc .forward = some a) :
    m.nextPc = if m.memory.get m.head = 0 then a + 1 else m.pc + 1 := by
  simp only [nextPc, hfetched, pastPartner, hpartner]

theorem nextPc_closing {x : UInt16} (hfetched : m.fetched = some .closing)
    (hpartner : m.memory.matchingBracket m.pc .backward = some x) :
    m.nextPc = if m.memory.get m.head = 0 then m.pc + 1 else x + 1 := by
  simp only [nextPc, hfetched, pastPartner, hpartner]

end Brackets

/-- **Brackets are the two ends of one loop.**  Let an opening bracket at `x` have its
partner at `a`.  Every machine with these cells and this head that stands on either of the
two goes on past the closing bracket if the current cell is zero, and past the opening one
if not, and does nothing else.  A bracket without a partner is passed over, whatever the
current cell holds. -/
theorem brackets_end_one_loop (net : Network World Link) (m : Machine World Link) :
    (∀ x a, Opcode.decode (m.memory.get x) = some .opening →
      m.memory.matchingBracket x .forward = some a →
      Opcode.decode (m.memory.get a) = some .closing ∧
      ∀ t : Machine World Link, t.memory = m.memory → t.head = m.head → t.pc = x ∨ t.pc = a →
        t.MovesTo net (if m.current = 0 then a + 1 else x + 1)) ∧
    ∀ dir : Direction, m.fetched = some dir.opener →
      m.memory.matchingBracket m.pc dir = none → m.MovesTo net (m.pc + 1) := by
  refine ⟨fun x a hopening hpartner => ?_, fun dir hfetched hnone => ?_⟩
  · obtain ⟨hclosing, -, hback⟩ := Memory.matchingBracket_flip .forward hopening hpartner
    refine ⟨hclosing, fun t hmemory hhead hpc => ?_⟩
    rw [← hmemory] at hopening hpartner hclosing hback
    rw [current_eq, ← hmemory, ← hhead]
    rcases hpc with rfl | rfl
    · rw [← nextPc_opening hopening hpartner]
      exact moves_of_bracket net .forward hopening
    · rw [← nextPc_closing hclosing hback]
      exact moves_of_bracket net .backward hclosing
  · rw [← nextPc_unmatched hfetched hnone]
    exact moves_of_bracket net dir hfetched

/-- A machine on a ring with a loop across the seam, which ends at address 1, and a closing
bracket without a partner after it. -/
def seamLooper (pc head : UInt16) : Machine PeerWorld Nat :=
  { load ⟨Memory.lopsided, 0⟩ (.new [] {}) (.ofPeers .isolated []) {} with pc := pc, head := head }

/-- From both ends of the loop the machine leaves it on a zero and goes on at address 0,
inside the loop, on anything else; the bracket after it is passed over. -/
theorem brackets_end_one_loop_across_seam :
    ((seamLooper 65535 0).current = 0 ∧ (seamLooper 65535 1).current ≠ 0) ∧
    ((seamLooper 65535 0).MovesTo PeerWorld.network 2 ∧
      (seamLooper 1 0).MovesTo PeerWorld.network 2) ∧
    ((seamLooper 65535 1).MovesTo PeerWorld.network 0 ∧
      (seamLooper 1 1).MovesTo PeerWorld.network 0) ∧
    (seamLooper 2 0).MovesTo PeerWorld.network 3 ∧
      (seamLooper 2 1).MovesTo PeerWorld.network 3 := by
  have hopening : Opcode.decode (Memory.lopsided.get 65535) = some .opening := by
    rw [Memory.decode_lopsided]
    decide
  have hpartner : Memory.lopsided.matchingBracket 65535 .forward = some 1 := by
    refine (Memory.matchingBracket_iff_firstLead _ _).mpr ⟨2, by decide, by decide, ?_, ?_⟩
    · simp only [Memory.excess, Direction.tilt, Memory.decode_lopsided]
      decide
    · simp only [Memory.excess, Direction.tilt, Memory.decode_lopsided]
      decide
  have hlast : Opcode.decode (Memory.lopsided.get 2) = some .closing := by
    rw [Memory.decode_lopsided]
    decide
  -- the only opening bracket has another partner
  have hnone : Memory.lopsided.matchingBracket 2 .backward = none := by
    rw [Option.eq_none_iff_forall_ne_some]
    intro b hb
    obtain ⟨hopener, -, hback⟩ := Memory.matchingBracket_flip .backward hlast hb
    rw [Memory.decode_lopsided, show Direction.closer .backward = .opening from rfl] at hopener
    obtain rfl : b = 65535 := by grind
    rw [show Direction.flip .backward = .forward from rfl, hpartner] at hback
    cases hback
  have hzero : (seamLooper 65535 0).current = 0 :=
    show Memory.lopsided.get 0 = 0 from by simp [Memory.lopsided, Memory.get_set]
  have hone : (seamLooper 65535 1).current ≠ 0 := by
    rw [show (seamLooper 65535 1).current = Opcode.closing.code from
      show Memory.lopsided.get 1 = _ from by simp [Memory.lopsided, Memory.get_set]]
    decide
  have hloop (head : UInt16) := (brackets_end_one_loop PeerWorld.network
    (seamLooper 65535 head)).1 65535 1 hopening hpartner
  have hpassed (head : UInt16) := (brackets_end_one_loop PeerWorld.network
    (seamLooper 2 head)).2 .backward hlast hnone
  have hleft := (hloop 0).2
  have hinside := (hloop 1).2
  rw [if_pos hzero] at hleft
  rw [if_neg hone] at hinside
  exact ⟨⟨hzero, hone⟩,
    ⟨hleft _ rfl rfl (Or.inl rfl), hleft _ rfl rfl (Or.inr rfl)⟩,
    ⟨hinside _ rfl rfl (Or.inl rfl), hinside _ rfl rfl (Or.inr rfl)⟩, hpassed 0, hpassed 1⟩

end Machine
end RingTape
