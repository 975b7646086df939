import Mathlib.Data.Set.Function
import Mathlib.Order.Interval.Finset.Nat
import RingTape.Proofs.BracketPairing

/-!
# What a search for a bracket finds

A search looks at the cells that follow its start, one lap of them, and the start
itself is the last of the lap (`along_bijOn`, `along_size`).  It finds the first cell
at which it has passed exactly one closer more than openers, and nothing if there is
no such cell.

The lead of the closers starts at nothing and grows by at most one with each cell.  So
it cannot be ahead without having been ahead by exactly one before
(`exists_firstLead`), which is why the first cell with a lead of one is also the first
with any lead at all.

The depth of a search is kept in a word.  `seekWord` is the search that fails if its
depth leaves the range of 32 bits.  On the way the depth is one more than the
openers are ahead, so that it is never zero before a cell is looked at and never
larger than the number of cells passed allows: that search never fails
(`seekWord_eq_seek`).
-/

namespace RingTape

namespace Direction

variable (dir : Direction) (a : UInt16)

theorem flip_flip : dir.flip.flip = dir := by
  cases dir <;> rfl

theorem along_add (i j : Nat) : dir.along (dir.along a i) j = dir.along a (i + j) := by
  cases dir with
  | forward =>
    rw [along, along, along, UInt16.ofNat_add, UInt16.add_assoc]
  | backward =>
    rw [along, along, along, UInt16.ofNat_add]
    grind

/-- A lap leads back to its start. -/
theorem along_size : dir.along a Memory.size = a := by
  have hlap : UInt16.ofNat Memory.size = 0 := by decide
  cases dir with
  | forward => rw [along, hlap, UInt16.add_zero]
  | backward => rw [along, hlap, UInt16.sub_zero]

variable {dir a} in
/-- Within a lap, different numbers of cells lead to different addresses. -/
theorem along_inj {i j : Nat} (h : dir.along a i = dir.along a j) :
    i % Memory.size = j % Memory.size := by
  have hword : UInt16.ofNat i = UInt16.ofNat j := by
    cases dir with
    | forward => exact (UInt16.add_right_inj a).mp h
    | backward => exact (UInt16.sub_right_inj a).mp h
  have hnat := congrArg UInt16.toNat hword
  rwa [UInt16.toNat_ofNat', UInt16.toNat_ofNat'] at hnat

/-- Every address lies within a lap. -/
theorem exists_along (b : UInt16) : ∃ i, i < Memory.size ∧ dir.along a (i + 1) = b := by
  cases dir with
  | forward =>
    refine ⟨(b - a - 1).toNat, (b - a - 1).toNat_lt, ?_⟩
    rw [along, UInt16.ofNat_add, UInt16.ofNat_toNat]
    grind
  | backward =>
    refine ⟨(a - b - 1).toNat, (a - b - 1).toNat_lt, ?_⟩
    rw [along, UInt16.ofNat_add, UInt16.ofNat_toNat]
    grind

/-- **A lap passes every address once.** -/
theorem along_bijOn : Set.BijOn (dir.along a) (Set.Icc 1 Memory.size) Set.univ := by
  refine ⟨Set.mapsTo_univ _ _, ?_, ?_⟩
  · intro i hi j hj h
    have hmod := along_inj h
    obtain ⟨hi, hi'⟩ := hi
    obtain ⟨hj, hj'⟩ := hj
    unfold Memory.size at hi' hj' hmod
    omega
  · intro b _
    obtain ⟨i, hi, hb⟩ := dir.exists_along a b
    exact ⟨i + 1, ⟨by omega, hi⟩, hb⟩

variable {dir} in
theorem tilt_of_closer {cell : UInt8} (h : Opcode.decode cell = some dir.closer) :
    dir.tilt cell = 1 :=
  if_pos h

end Direction

namespace Memory

variable (m : Memory) (dir : Direction)

/-- The number of cells with a given instruction among the `k` that follow `a`. -/
def tally (op : Opcode) (a : UInt16) (k : Nat) : Nat :=
  (Finset.Icc 1 k).filter (fun i => Opcode.decode (m.get (dir.along a i)) = some op) |>.card

/-- Among the `k` cells that follow `a` there is exactly one closer more than openers. -/
def Surplus (a : UInt16) (k : Nat) : Prop :=
  m.tally dir dir.closer a k = m.tally dir dir.opener a k + 1

@[simp] theorem tally_zero (op : Opcode) (a : UInt16) : m.tally dir op a 0 = 0 := rfl

theorem tally_succ (op : Opcode) (a : UInt16) (k : Nat) : m.tally dir op a (k + 1) =
    m.tally dir op a k +
      if Opcode.decode (m.get (dir.along a (k + 1))) = some op then 1 else 0 := by
  have hlast : k + 1 ∉ Finset.Icc 1 k := by
    rw [Finset.mem_Icc]
    omega
  rw [tally, tally, ← Finset.insert_Icc_right_eq_Icc_add_one (by omega), Finset.filter_insert]
  split
  · rw [Finset.card_insert_of_notMem fun h => hlast (Finset.mem_of_mem_filter _ h)]
  · rfl

/-- The lead is the difference of the two numbers. -/
theorem excess_eq_tally (a : UInt16) (k : Nat) :
    m.excess dir a k = m.tally dir dir.closer a k - m.tally dir dir.opener a k := by
  induction k with
  | zero => simp
  | succ k ih =>
    have hne := dir.closer_ne_opener
    rw [excess_succ, ih, tally_succ, tally_succ]
    by_cases hcloser : Opcode.decode (m.get (dir.along a (k + 1))) = some dir.closer
    · simp [Direction.tilt, hcloser, hne]
      omega
    · by_cases hopener : Opcode.decode (m.get (dir.along a (k + 1))) = some dir.opener
      · simp [Direction.tilt, hopener, hne.symm]
        omega
      · simp [Direction.tilt, hcloser, hopener]

theorem surplus_iff {a : UInt16} {k : Nat} : m.Surplus dir a k ↔ m.excess dir a k = 1 := by
  rw [Surplus, excess_eq_tally]
  omega

/-! ## The first lead -/

/-- **The first lead**: the closers are ahead by one after `k` cells, and not ahead
before. -/
structure FirstLead (a : UInt16) (k : Nat) : Prop where
  ahead : m.excess dir a k = 1
  behind : ∀ j, j < k → m.excess dir a j < 1

theorem matchingBracket_iff_firstLead {a b : UInt16} : m.matchingBracket a dir = some b ↔
    ∃ k, k ≤ size ∧ b = dir.along a k ∧ m.FirstLead dir a k := by
  rw [matchingBracket_eq_some_iff]
  constructor
  · rintro ⟨k, hk, hb, hahead, hbehind⟩
    exact ⟨k, hk, hb, hahead, hbehind⟩
  · rintro ⟨k, hk, hb, hahead, hbehind⟩
    exact ⟨k, hk, hb, hahead, hbehind⟩

variable {m dir} {a : UInt16} {k : Nat}

/-- There is no lead before the first cell. -/
theorem pos_of_excess_eq_one (h : m.excess dir a k = 1) : 0 < k := by
  apply Nat.pos_of_ne_zero
  rintro rfl
  rw [excess_zero] at h
  omega

/-- The last cell of a first lead is a closer that brings it from nothing to one. -/
theorem FirstLead.excess_pred (h : m.FirstLead dir a (k + 1)) : m.excess dir a k = 0 := by
  have hlast := m.excess_succ dir a k
  have hprior := h.behind k (Nat.lt_succ_self k)
  have hmost := dir.tilt_le_one (m.get (dir.along a (k + 1)))
  rw [h.ahead] at hlast
  omega

variable (m dir a) in
/-- **A lead begins with a lead of one**: closers that are ahead after `n` cells have got
ahead at one of them. -/
theorem exists_firstLead {n : Nat} (h : 1 ≤ m.excess dir a n) :
    ∃ k, 0 < k ∧ k ≤ n ∧ m.FirstLead dir a k := by
  have hlead : ∃ k, 1 ≤ m.excess dir a k := ⟨n, h⟩
  have hle := Nat.find_min' hlead h
  have hfirst := Nat.find_spec hlead
  have hbehind (j : Nat) (hj : j < Nat.find hlead) : m.excess dir a j < 1 :=
    Int.not_le.mp (Nat.find_min hlead hj)
  generalize Nat.find hlead = k at hle hfirst hbehind
  cases k with
  | zero =>
    rw [excess_zero] at hfirst
    omega
  | succ k =>
    have hprior := hbehind k (Nat.lt_succ_self k)
    have hmost := dir.tilt_le_one (m.get (dir.along a (k + 1)))
    have hlast := m.excess_succ dir a k
    exact ⟨k + 1, k.succ_pos, hle, by omega, hbehind⟩

/-- The first cell of a lap at which the closers are ahead is the first at which they are
ahead by one. -/
theorem firstLead_iff_isLeast :
    k ≤ size ∧ m.FirstLead dir a k ↔
      IsLeast {k | 1 ≤ k ∧ k ≤ size ∧ m.Surplus dir a k} k := by
  constructor
  · rintro ⟨hk, h⟩
    refine ⟨⟨pos_of_excess_eq_one h.ahead, hk, (m.surplus_iff dir).mpr h.ahead⟩, ?_⟩
    rintro j ⟨-, -, hj⟩
    apply Nat.le_of_not_lt
    intro hlt
    have hahead := (m.surplus_iff dir).mp hj
    have hbehind := h.behind j hlt
    omega
  · rintro ⟨⟨-, hk, hat⟩, hleast⟩
    refine ⟨hk, (m.surplus_iff dir).mp hat, ?_⟩
    intro j hj
    apply Int.not_le.mp
    intro hlead
    -- a lead before `k` would have begun before `k`
    obtain ⟨i, hpos, hi, hfirst⟩ := exists_firstLead m dir a hlead
    have hki : k ≤ i := hleast ⟨hpos, by omega, (m.surplus_iff dir).mpr hfirst.ahead⟩
    omega

/-! ## The depth as a word -/

section Word

/-- How a count that is kept in a word can leave its range. -/
inductive WordFault where
  /-- Below zero. -/
  | underflow
  /-- Above the largest value. -/
  | overflow
deriving DecidableEq, Repr

/-- The depth after a cell. -/
def wordDepth (dir : Direction) (depth : UInt32) (cell : UInt8) : Except WordFault UInt32 :=
  if dir.closer.isNamedBy cell then
    if depth.toNat = 0 then .error .underflow else .ok (depth - 1)
  else if dir.opener.isNamedBy cell then
    if depth.toNat + 1 = UInt32.size then .error .overflow else .ok (depth + 1)
  else .ok depth

/-- **A search with its depth in a word**: at each cell the depth is brought up to date,
and then compared with zero. -/
def seekWord (m : Memory) (dir : Direction) :
    (left : Nat) → (depth : UInt32) → (a : UInt16) → Except WordFault (Option UInt16)
  | 0, _, _ => .ok none
  | left + 1, depth, a =>
    let next := dir.advance a
    match wordDepth dir depth (m.get next) with
    | .error fault => .error fault
    | .ok depth => if depth = 0 then .ok (some next) else seekWord m dir left depth next

variable {left : Nat}

/-- A word in range follows the tilt of the cell. -/
theorem wordDepth_spec (dir : Direction) {depth : UInt32} (hpos : 0 < depth.toNat)
    (hroom : depth.toNat + 1 < UInt32.size) (cell : UInt8) :
    ∃ next, wordDepth dir depth cell = .ok next ∧
      (next.toNat : Int) = depth.toNat - dir.tilt cell := by
  unfold wordDepth Direction.tilt
  simp only [Opcode.isNamedBy_iff]
  by_cases hcloser : Opcode.decode cell = some dir.closer
  · have hone : (1 : UInt32) ≤ depth := by
      rw [UInt32.le_iff_toNat_le]
      exact hpos
    rw [if_pos hcloser, if_neg (Nat.ne_of_gt hpos), if_pos hcloser]
    refine ⟨depth - 1, rfl, ?_⟩
    rw [UInt32.toNat_sub_of_le _ _ hone, UInt32.toNat_one]
    omega
  · by_cases hopener : Opcode.decode cell = some dir.opener
    · rw [if_neg hcloser, if_pos hopener, if_neg (Nat.ne_of_lt hroom), if_neg hcloser,
        if_pos hopener]
      refine ⟨depth + 1, rfl, ?_⟩
      rw [UInt32.toNat_add, UInt32.toNat_one]
      unfold UInt32.size at hroom
      omega
    · rw [if_neg hcloser, if_neg hopener, if_neg hcloser, if_neg hopener]
      exact ⟨depth, rfl, (sub_zero _).symm⟩

/-- A search that looks at a cell goes on with the depth after it, or ends if that is
zero. -/
theorem seek_succ {depth next : Nat} (hpos : 0 < depth)
    (hnext : (next : Int) = depth - dir.tilt (m.get (dir.advance a))) :
    m.seek dir (left + 1) depth a =
      if next = 0 then some (dir.advance a) else m.seek dir left next (dir.advance a) := by
  rw [seek]
  simp only [Opcode.isNamedBy_iff]
  unfold Direction.tilt at hnext
  split at hnext
  · rename_i hcloser
    obtain rfl : next = depth - 1 := by omega
    rw [if_pos hcloser]
    by_cases hone : depth = 1
    · simp [hone]
    · rw [if_neg hone, if_neg (by omega)]
  · rename_i hcloser
    rw [if_neg hcloser]
    split at hnext
    · rename_i hopener
      obtain rfl : next = depth + 1 := by omega
      rw [if_pos hopener, if_neg (by omega)]
    · rename_i hopener
      obtain rfl : next = depth := by omega
      rw [if_neg hopener, if_neg (by omega)]

/-- **The word never leaves its range**, if it has room for the cells that are left. -/
theorem seekWord_eq_seek {depth : UInt32} (hpos : 0 < depth.toNat)
    (hroom : depth.toNat + left < UInt32.size) :
    m.seekWord dir left depth a = .ok (m.seek dir left depth.toNat a) := by
  induction left generalizing depth a with
  | zero => rfl
  | succ left ih =>
    obtain ⟨next, hword, hnext⟩ := wordDepth_spec dir hpos (by omega) (m.get (dir.advance a))
    rw [seekWord, hword, seek_succ hpos hnext]
    by_cases hzero : next = 0
    · simp [hzero]
    · have hleast := dir.flip.tilt_le_one (m.get (dir.advance a))
      rw [dir.tilt_flip] at hleast
      have hnonzero : next.toNat ≠ 0 := fun h => hzero (UInt32.toNat_inj.mp h)
      simp only [if_neg hzero, if_neg hnonzero]
      exact ih (by omega) (by omega)

end Word

/-- **What a search for a bracket finds.**  Number the cells that follow an address along
a direction from 1 on.  The search finds the first cell, within a lap, up to which there
is exactly one closer more than openers, and it finds nothing exactly if there is no such
cell.  A lap passes every address once and the start itself last.  A depth that is kept
in 32 bits never leaves their range on the way. -/
theorem search_finds_first_surplus (m : Memory) (dir : Direction) (a : UInt16) :
    (∀ b, m.matchingBracket a dir = some b ↔
      ∃ k, IsLeast {k | 1 ≤ k ∧ k ≤ size ∧ m.Surplus dir a k} k ∧ b = dir.along a k) ∧
    (m.matchingBracket a dir = none ↔ ¬ ∃ k, 1 ≤ k ∧ k ≤ size ∧ m.Surplus dir a k) ∧
    (Set.BijOn (dir.along a) (Set.Icc 1 size) Set.univ ∧ dir.along a size = a) ∧
    m.seekWord dir size 1 a = .ok (m.matchingBracket a dir) := by
  refine ⟨fun b => ?_, ?_, ⟨dir.along_bijOn a, dir.along_size a⟩,
    seekWord_eq_seek (by decide) (by decide)⟩
  · rw [matchingBracket_iff_firstLead]
    constructor
    · rintro ⟨k, hk, hb, hfirst⟩
      exact ⟨k, firstLead_iff_isLeast.mp ⟨hk, hfirst⟩, hb⟩
    · rintro ⟨k, hleast, hb⟩
      obtain ⟨hk, hfirst⟩ := firstLead_iff_isLeast.mpr hleast
      exact ⟨k, hk, hb, hfirst⟩
  · rw [Option.eq_none_iff_forall_ne_some]
    constructor
    · rintro hnone ⟨k, -, hk, hat⟩
      have hlead : 1 ≤ m.excess dir a k := Int.le_of_eq ((m.surplus_iff dir).mp hat).symm
      obtain ⟨i, -, hi, hfirst⟩ := exists_firstLead m dir a hlead
      exact hnone _ ((m.matchingBracket_iff_firstLead dir).mpr
        ⟨i, Nat.le_trans hi hk, rfl, hfirst⟩)
    · intro hnever b hfound
      obtain ⟨k, hk, -, hfirst⟩ := (m.matchingBracket_iff_firstLead dir).mp hfound
      exact hnever ⟨k, pos_of_excess_eq_one hfirst.ahead, hk,
        (m.surplus_iff dir).mpr hfirst.ahead⟩

end Memory
end RingTape
