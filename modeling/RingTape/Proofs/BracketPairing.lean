import Mathlib.Algebra.BigOperators.Intervals
import Mathlib.Tactic.Linarith
import RingTape.Memory.Bracket

/-!
# Partners of brackets

A search for a partner counts depth.  Read as a sum, it asks how far the closers
are ahead of the openers among the cells passed so far (`excess`), and it ends at
the first cell where they are ahead by one (`matchingBracket_eq_some_iff`).

The two directions are different searches over the same cells: what closes for the
one opens for the other, so the cells count with opposite signs.  Going back over
the stretch between two partners, the excess is therefore what is left of the first
search (`excess_flip`): it stays below one all the way, because the first search
did, and reaches one exactly where that search began.  So partners find each other,
wherever the stretch between them lies on the ring and whatever else stands there.
-/

namespace RingTape

namespace Direction

/-- The opposite way. -/
def flip : Direction → Direction
  | forward => backward
  | backward => forward

/-- The address `i` cells along the way from `a`. -/
def along : Direction → UInt16 → Nat → UInt16
  | forward, a, i => a + UInt16.ofNat i
  | backward, a, i => a - UInt16.ofNat i

/-- What a cell adds to the lead of the closers. -/
def tilt (dir : Direction) (cell : UInt8) : Int :=
  if Opcode.decode cell = some dir.closer then 1
  else if Opcode.decode cell = some dir.opener then -1
  else 0

variable (dir : Direction) (a : UInt16)

@[simp] theorem along_zero : dir.along a 0 = a := by
  cases dir with
  | forward => exact UInt16.add_zero a
  | backward => exact UInt16.sub_zero a

theorem along_succ (i : Nat) : dir.along a (i + 1) = dir.along (dir.advance a) i := by
  cases dir with
  | forward =>
    rw [along, along, advance, UInt16.ofNat_add]
    exact show a + (UInt16.ofNat i + 1) = a + 1 + UInt16.ofNat i from by grind
  | backward =>
    rw [along, along, advance, UInt16.ofNat_add]
    exact show a - (UInt16.ofNat i + 1) = a - 1 - UInt16.ofNat i from by grind

/-- Going back `j` of `k` cells leaves `k - j`. -/
theorem along_flip {j k : Nat} (h : j ≤ k) :
    dir.flip.along (dir.along a k) j = dir.along a (k - j) := by
  obtain ⟨i, rfl⟩ := Nat.exists_eq_add_of_le' h
  rw [Nat.add_sub_cancel]
  cases dir with
  | forward =>
    rw [flip, along, along, along, UInt16.ofNat_add]
    grind
  | backward =>
    rw [flip, along, along, along, UInt16.ofNat_add]
    grind

theorem closer_ne_opener : dir.closer ≠ dir.opener := by
  cases dir <;> decide

/-- What closes for one direction opens for the other. -/
theorem tilt_flip (cell : UInt8) : dir.flip.tilt cell = -dir.tilt cell := by
  have hcloser : dir.flip.closer = dir.opener := by cases dir <;> rfl
  have hopener : dir.flip.opener = dir.closer := by cases dir <;> rfl
  have hne := dir.closer_ne_opener
  unfold tilt
  rw [hcloser, hopener]
  by_cases hc : Opcode.decode cell = some dir.closer
  · simp [hc, hne]
  · by_cases ho : Opcode.decode cell = some dir.opener <;> simp [hc, ho, hne.symm]

theorem tilt_le_one (cell : UInt8) : dir.tilt cell ≤ 1 := by
  unfold tilt
  split
  · exact le_refl _
  · split <;> decide

variable {dir}

theorem tilt_of_opener {cell : UInt8} (h : Opcode.decode cell = some dir.opener) :
    dir.tilt cell = -1 := by
  have hne := dir.closer_ne_opener
  simp [tilt, h, hne.symm]

theorem decode_of_tilt_pos {cell : UInt8} (h : 0 < dir.tilt cell) :
    Opcode.decode cell = some dir.closer := by
  unfold tilt at h
  split at h
  · assumption
  · split at h <;> exact absurd h (by decide)

end Direction

namespace Memory

variable (m : Memory) (dir : Direction)

/-- **The lead of the closers** over the openers among the `k` cells that follow `a`. -/
def excess (a : UInt16) (k : Nat) : Int :=
  ∑ i ∈ Finset.range k, dir.tilt (m.get (dir.along a (i + 1)))

/-- The walk from `a` comes upon `b` within `left` cells, and `b` is the first cell at
which the closers are ahead by `depth`. -/
def Closes (left : Nat) (depth : Int) (a b : UInt16) : Prop :=
  ∃ k, k ≤ left ∧ b = dir.along a k ∧ m.excess dir a k = depth ∧
    ∀ j, j < k → m.excess dir a j < depth

@[simp] theorem excess_zero (a : UInt16) : m.excess dir a 0 = 0 :=
  Finset.sum_range_zero _

theorem excess_succ (a : UInt16) (k : Nat) :
    m.excess dir a (k + 1) = m.excess dir a k + dir.tilt (m.get (dir.along a (k + 1))) :=
  Finset.sum_range_succ _ k

/-- The first cell passed counts, and then the rest of the walk. -/
theorem excess_succ_advance (a : UInt16) (k : Nat) :
    m.excess dir a (k + 1) =
      dir.tilt (m.get (dir.advance a)) + m.excess dir (dir.advance a) k := by
  unfold excess
  rw [Finset.sum_range_succ', add_comm]
  simp only [dir.along_succ a, dir.along_zero]

/-! ## A search is a first passage -/

variable {m dir} {left : Nat} {depth : Int} {a b : UInt16}

/-- Nothing has to be made up for: the walk ends where it is. -/
theorem closes_zero_iff : m.Closes dir left 0 a b ↔ b = a := by
  constructor
  · rintro ⟨k, -, rfl, -, hbefore⟩
    cases k with
    | zero => exact dir.along_zero a
    | succ k => exact absurd (hbefore 0 k.succ_pos) (by simp)
  · rintro rfl
    exact ⟨0, left.zero_le, (dir.along_zero b).symm, m.excess_zero dir b,
      fun j hj => absurd hj j.not_lt_zero⟩

/-- A walk passes its first cell, and what that cell adds need not be made up for by
the rest. -/
theorem closes_succ_iff (hdepth : 0 < depth) :
    m.Closes dir (left + 1) depth a b ↔
      m.Closes dir left (depth - dir.tilt (m.get (dir.advance a))) (dir.advance a) b := by
  constructor
  · rintro ⟨k, hk, rfl, hat, hbefore⟩
    cases k with
    | zero =>
      rw [excess_zero] at hat
      omega
    | succ k =>
      rw [excess_succ_advance] at hat
      refine ⟨k, by omega, dir.along_succ a k, by omega, fun j hj => ?_⟩
      have hstep := hbefore (j + 1) (by omega)
      rw [excess_succ_advance] at hstep
      omega
  · rintro ⟨k, hk, rfl, hat, hbefore⟩
    refine ⟨k + 1, by omega, (dir.along_succ a k).symm, ?_, fun j hj => ?_⟩
    · rw [excess_succ_advance]
      omega
    · cases j with
      | zero =>
        rw [excess_zero]
        exact hdepth
      | succ j =>
        have hstep := hbefore j (by omega)
        rw [excess_succ_advance]
        omega

/-- **What a search finds**, at any depth and after any number of cells. -/
theorem seek_eq_some_iff {depth : Nat} (hdepth : 0 < depth) :
    m.seek dir left depth a = some b ↔ m.Closes dir left depth a b := by
  induction left generalizing depth a with
  | zero =>
    constructor
    · intro h
      cases h
    · rintro ⟨k, hk, -, hat, -⟩
      rw [Nat.le_zero.mp hk, excess_zero] at hat
      omega
  | succ left ih =>
    rw [closes_succ_iff (by omega), seek]
    -- the two tests of a search are the two cases of `tilt`
    simp only [Opcode.isNamedBy_iff, Direction.tilt]
    split
    · split
      · rename_i hone
        rw [hone, show ((1 : Nat) : Int) - 1 = 0 from rfl, closes_zero_iff, Option.some.injEq]
        exact eq_comm
      · rw [ih (by omega), show ((depth - 1 : Nat) : Int) = depth - 1 from by omega]
    · split
      · rw [ih (by omega), show ((depth + 1 : Nat) : Int) = depth - -1 from by omega]
      · rw [ih hdepth, sub_zero]

/-- **The partner of a bracket** is the first cell along the way at which the closers
are ahead by one. -/
theorem matchingBracket_eq_some_iff :
    m.matchingBracket a dir = some b ↔ m.Closes dir size 1 a b :=
  seek_eq_some_iff Nat.one_pos

/-! ## Going back -/

/-- Going back from a cell, the excess is what the cells still ahead had, less what the
whole stretch had. -/
theorem excess_flip (m : Memory) (dir : Direction) (a : UInt16) {j k : Nat} (h : j ≤ k) :
    m.excess dir.flip (dir.along a (k + 1)) j = m.excess dir a (k - j) - m.excess dir a k := by
  induction j with
  | zero =>
    rw [excess_zero, Nat.sub_zero, sub_self]
  | succ j ih =>
    obtain ⟨i, rfl⟩ := Nat.exists_eq_add_of_le' h
    have hback : i + (j + 1) + 1 - (j + 1) = i + 1 := by omega
    rw [excess_succ, ih (by omega), dir.along_flip a (by omega), dir.tilt_flip, hback,
      show i + (j + 1) - j = i + 1 from by omega, show i + (j + 1) - (j + 1) = i from by omega,
      m.excess_succ dir a i]
    omega

/-- **Partners find each other.**  A search that starts on an opener ends on a closer,
and the search back from there ends where the first one began. -/
theorem closes_flip (hopener : Opcode.decode (m.get a) = some dir.opener)
    (h : m.Closes dir left 1 a b) :
    Opcode.decode (m.get b) = some dir.closer ∧ m.Closes dir.flip left 1 b a := by
  obtain ⟨k, hk, rfl, hat, hbefore⟩ := h
  cases k with
  | zero =>
    rw [excess_zero] at hat
    exact absurd hat (by decide)
  | succ k =>
    have hlast := m.excess_succ dir a k
    have hprior := hbefore k (Nat.lt_succ_self k)
    have hmost := dir.tilt_le_one (m.get (dir.along a (k + 1)))
    -- the last cell brings the lead from nothing to one
    have hlevel : m.excess dir a k = 0 := by omega
    refine ⟨Direction.decode_of_tilt_pos (by omega), k + 1, hk, ?_, ?_, fun j hj => ?_⟩
    · rw [dir.along_flip a (Nat.le_refl (k + 1)), Nat.sub_self, dir.along_zero]
    · rw [excess_succ, excess_flip m dir a (Nat.le_refl k), dir.along_flip a (Nat.le_refl (k + 1)),
        Nat.sub_self, Nat.sub_self, dir.along_zero, dir.tilt_flip, Direction.tilt_of_opener hopener,
        excess_zero, hlevel]
      rfl
    · rw [excess_flip m dir a (Nat.le_of_lt_succ hj), hlevel, sub_zero]
      exact hbefore (k - j) (by omega)

/-- Brackets of different kinds stand at different addresses. -/
theorem ne_of_decode {p q : Opcode} (hpq : p ≠ q) (ha : Opcode.decode (m.get a) = some p)
    (hb : Opcode.decode (m.get b) = some q) : b ≠ a := by
  rintro rfl
  exact hpq (Option.some.inj (ha.symm.trans hb))

/-- The partner of an opener, for either direction. -/
theorem matchingBracket_flip (dir : Direction)
    (hopener : Opcode.decode (m.get a) = some dir.opener)
    (h : m.matchingBracket a dir = some b) :
    Opcode.decode (m.get b) = some dir.closer ∧ b ≠ a ∧ m.matchingBracket b dir.flip = some a := by
  obtain ⟨hcloser, hback⟩ := closes_flip hopener (matchingBracket_eq_some_iff.mp h)
  exact ⟨hcloser, ne_of_decode dir.closer_ne_opener.symm hopener hcloser,
    matchingBracket_eq_some_iff.mpr hback⟩

/-- **Bracket pairing is an involution.**  The partner of an opening bracket is a
closing bracket at another address whose partner is the first, and the other way
round; the stretch between them may go past the highest address. -/
theorem bracket_pairing_involutive (m : Memory) :
    (∀ x a, Opcode.decode (m.get x) = some .opening → m.matchingBracket x .forward = some a →
      Opcode.decode (m.get a) = some .closing ∧ a ≠ x ∧ m.matchingBracket a .backward = some x) ∧
    (∀ a x, Opcode.decode (m.get a) = some .closing → m.matchingBracket a .backward = some x →
      Opcode.decode (m.get x) = some .opening ∧ x ≠ a ∧ m.matchingBracket x .forward = some a) :=
  ⟨fun _ _ hopening h => matchingBracket_flip .forward hopening h,
    fun _ _ hclosing h => matchingBracket_flip .backward hclosing h⟩

/-- A ring with an opening bracket at the highest address and a closing one at address 1. -/
def seamPair : Memory :=
  (blank.set 65535 Opcode.opening.code).set 1 Opcode.closing.code

/-- Brackets on both sides of the seam are each other's partners. -/
theorem bracket_pairing_across_seam :
    (Opcode.decode (seamPair.get 65535) = some .opening ∧
      seamPair.matchingBracket 65535 .forward = some 1) ∧
    Opcode.decode (seamPair.get 1) = some .closing ∧ (1 : UInt16) ≠ 65535 ∧
      seamPair.matchingBracket 1 .backward = some 65535 := by
  have hopening : Opcode.decode (seamPair.get 65535) = some .opening := by
    rw [show seamPair.get 65535 = Opcode.opening.code from by simp [seamPair, get_set]]
    decide
  have hzero : Direction.tilt .forward (seamPair.get 0) = 0 := by
    rw [show seamPair.get 0 = 0 from by simp [seamPair, get_set]]
    decide
  have hone : Direction.tilt .forward (seamPair.get 1) = 1 := by
    rw [show seamPair.get 1 = Opcode.closing.code from by simp [seamPair]]
    decide
  -- the walk passes the blank cell 0 and then finds the closing bracket
  have hwalk : seamPair.excess .forward 65535 1 = 0 := by
    rw [excess_succ, excess_zero, zero_add,
      show Direction.along .forward 65535 (0 + 1) = 0 from by decide, hzero]
  have hforward : seamPair.matchingBracket 65535 .forward = some 1 := by
    refine matchingBracket_eq_some_iff.mpr ⟨2, by decide, by decide, ?_, fun j hj => ?_⟩
    · rw [excess_succ, hwalk, zero_add,
        show Direction.along .forward 65535 (1 + 1) = 1 from by decide, hone]
    · match j, hj with
      | 0, _ => exact Int.one_pos
      | 1, _ => rw [hwalk]; exact Int.one_pos
  exact ⟨⟨hopening, hforward⟩, (bracket_pairing_involutive seamPair).1 65535 1 hopening hforward⟩

end Memory
end RingTape
