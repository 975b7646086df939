import RingTape.Proofs.BracketSearch

/-!
# Matched brackets nest

The lead of the closers, followed from a bracket to its partner, stays below one until
the partner is reached (`FirstLead`).  A bracket between the two starts from a point of
this curve.  An opener lowers it, so that what the opener has taken away must be made
up for before the partner of the outer bracket raises the lead to one
(`FirstLead.after_opener`).  A closer raises it, and still not above zero, so that the
curve was below zero just before and has come down from zero since the start
(`FirstLead.before_closer`).  Either way the partner is found between the two outer
brackets, and pairs never cross.

Both facts are about distances along one direction.  The addresses between two brackets
are those whose distance from the first is less than that of the second (`arc`), also
where the way leads past the highest address.
-/

namespace RingTape
namespace Memory

/-- **The distance** from `x` to `y`, in cells toward higher addresses. -/
def arc (x y : UInt16) : Nat :=
  (y - x).toNat

theorem along_arc (x y : UInt16) : Direction.along .forward x (arc x y) = y := by
  rw [Direction.along, arc, UInt16.ofNat_toNat]
  grind

theorem arc_along (x : UInt16) {k : Nat} (hk : k < size) :
    arc x (Direction.along .forward x k) = k := by
  have hword : x + UInt16.ofNat k - x = UInt16.ofNat k := by grind
  rw [Direction.along, arc, hword, UInt16.toNat_ofNat_of_lt' hk]

section Nesting

variable {m : Memory} {dir : Direction} {a : UInt16}

/-- A search that starts on the way of another one counts from there. -/
theorem excess_along (m : Memory) (dir : Direction) (a : UInt16) (i j : Nat) :
    m.excess dir (dir.along a i) j = m.excess dir a (i + j) - m.excess dir a i := by
  induction j with
  | zero => rw [excess_zero, Nat.add_zero, sub_self]
  | succ j ih =>
    rw [excess_succ, ih, dir.along_add, ← Nat.add_assoc, excess_succ, Nat.add_assoc]
    omega

variable {k i : Nat} (h : m.FirstLead dir a k) (hi : i + 1 < k)
include h hi

/-- **An opener on the way has its partner further on**, before the end of the way. -/
theorem FirstLead.after_opener
    (hopener : Opcode.decode (m.get (dir.along a (i + 1))) = some dir.opener) :
    ∃ n, 0 < n ∧ i + 1 + n < k ∧ m.FirstLead dir (dir.along a (i + 1)) n := by
  obtain ⟨last, rfl⟩ := Nat.exists_eq_add_one.mpr (Nat.zero_lt_of_lt hi)
  -- the opener leaves the lead below zero, and before the end it is zero again
  have hdrop := m.excess_succ dir a i
  rw [Direction.tilt_of_opener hopener] at hdrop
  have hprior := h.behind i (by omega)
  have hrest := m.excess_along dir a (i + 1) (last - (i + 1))
  rw [Nat.add_sub_of_le (by omega), h.excess_pred] at hrest
  have hlead : 1 ≤ m.excess dir (dir.along a (i + 1)) (last - (i + 1)) := by omega
  obtain ⟨n, hpos, hn, hfirst⟩ := exists_firstLead m dir _ hlead
  exact ⟨n, hpos, by omega, hfirst⟩

/-- **A closer on the way has its partner further back**, after the start of the way. -/
theorem FirstLead.before_closer
    (hcloser : Opcode.decode (m.get (dir.along a (i + 1))) = some dir.closer) :
    ∃ n, 0 < n ∧ n < i + 1 ∧ m.FirstLead dir.flip (dir.along a (i + 1)) n := by
  -- the closer does not bring the lead above zero, so it was below zero before
  have hrise := m.excess_succ dir a i
  rw [Direction.tilt_of_closer hcloser] at hrise
  have hbehind := h.behind (i + 1) hi
  have hback := m.excess_flip dir a (Nat.le_refl i)
  rw [Nat.sub_self, excess_zero] at hback
  have hlead : 1 ≤ m.excess dir.flip (dir.along a (i + 1)) i := by omega
  obtain ⟨n, hpos, hn, hfirst⟩ := exists_firstLead m dir.flip _ hlead
  exact ⟨n, hpos, by omega, hfirst⟩

end Nesting

/-- **Matched brackets nest and never cross.**  Between an opening bracket and its partner,
every opening bracket has its partner between itself and the end, and every closing
bracket has its partner between the start and itself.  Between the two are the addresses
that are reached from the first before the second, past the highest address if the way
leads there. -/
theorem matched_brackets_nest (m : Memory) (x a y : UInt16)
    (hopening : Opcode.decode (m.get x) = some .opening)
    (hmatch : m.matchingBracket x .forward = some a)
    (hafter : 0 < arc x y) (hbefore : arc x y < arc x a) :
    (Opcode.decode (m.get y) = some .opening →
      ∃ b, m.matchingBracket y .forward = some b ∧ arc x y < arc x b ∧ arc x b < arc x a) ∧
    (Opcode.decode (m.get y) = some .closing →
      ∃ z, m.matchingBracket y .backward = some z ∧ 0 < arc x z ∧ arc x z < arc x y) := by
  obtain ⟨k, hk, rfl, hfirst⟩ := (m.matchingBracket_iff_firstLead .forward).mp hmatch
  obtain ⟨i, hi⟩ := Nat.exists_eq_add_one.mpr hafter
  obtain rfl : Direction.along .forward x (i + 1) = y := hi ▸ along_arc x y
  -- the partner stands at another address, so the way is no full lap
  have hshort : k < size := by
    obtain ⟨-, hne, -⟩ := matchingBracket_flip .forward hopening hmatch
    apply Nat.lt_of_le_of_ne hk
    rintro rfl
    exact hne (Direction.along_size .forward x)
  rw [arc_along x hshort, hi] at hbefore
  rw [arc_along x hshort, hi]
  constructor
  · intro hopener
    obtain ⟨n, hpos, hn, hinner⟩ := hfirst.after_opener hbefore hopener
    refine ⟨_, (m.matchingBracket_iff_firstLead .forward).mpr ⟨n, by omega, rfl, hinner⟩, ?_⟩
    rw [Direction.along_add, arc_along x (by omega)]
    omega
  · intro hcloser
    obtain ⟨n, hpos, hn, hinner⟩ := hfirst.before_closer hbefore hcloser
    refine ⟨_, (m.matchingBracket_iff_firstLead .backward).mpr ⟨n, by omega, rfl, hinner⟩, ?_⟩
    have hback := Direction.along_flip .forward x (Nat.le_of_lt hn)
    rw [show Direction.flip .forward = .backward from rfl] at hback
    rw [hback, arc_along x (by omega)]
    omega

/-- A ring with two opening brackets at the highest addresses and two closing ones past
the seam. -/
def seamNest : Memory :=
  (((blank.set 65534 Opcode.opening.code).set 65535 Opcode.opening.code).set 1
    Opcode.closing.code).set 2 Opcode.closing.code

theorem tilt_seamNest (b : UInt16) : Direction.tilt .forward (seamNest.get b) =
    if 2 = b then 1 else if 1 = b then 1 else if 65535 = b then -1 else if 65534 = b then -1
    else 0 := by
  have hopening : Direction.tilt .forward Opcode.opening.code = -1 := by decide
  have hclosing : Direction.tilt .forward Opcode.closing.code = 1 := by decide
  have hblank : Direction.tilt .forward 0 = 0 := by decide
  simp only [seamNest, get_set, get_blank, apply_ite (Direction.tilt .forward), hopening,
    hclosing, hblank]

/-- Of two pairs across the seam, the inner one lies inside the outer one. -/
theorem matched_brackets_nest_across_seam :
    (Opcode.decode (seamNest.get 65534) = some .opening ∧
      seamNest.matchingBracket 65534 .forward = some 2) ∧
    (∃ b, seamNest.matchingBracket 65535 .forward = some b ∧
      arc 65534 65535 < arc 65534 b ∧ arc 65534 b < arc 65534 2) ∧
    ∃ z, seamNest.matchingBracket 1 .backward = some z ∧
      0 < arc 65534 z ∧ arc 65534 z < arc 65534 1 := by
  have hopening (b : UInt16) (hb : b = 65534 ∨ b = 65535) :
      Opcode.decode (seamNest.get b) = some .opening := by
    rcases hb with rfl | rfl
    · rw [show seamNest.get 65534 = Opcode.opening.code from by simp [seamNest, get_set]]
      decide
    · rw [show seamNest.get 65535 = Opcode.opening.code from by simp [seamNest, get_set]]
      decide
  have hclosing : Opcode.decode (seamNest.get 1) = some .closing := by
    rw [show seamNest.get 1 = Opcode.closing.code from by simp [seamNest, get_set]]
    decide
  have hmatch : seamNest.matchingBracket 65534 .forward = some 2 := by
    refine (matchingBracket_iff_firstLead _ _).mpr ⟨4, by decide, by decide, ?_, ?_⟩
    · simp only [excess, tilt_seamNest]
      decide
    · simp only [excess, tilt_seamNest]
      decide
  have hnest (y : UInt16) :=
    matched_brackets_nest seamNest 65534 2 y (hopening _ (Or.inl rfl)) hmatch
  refine ⟨⟨hopening _ (Or.inl rfl), hmatch⟩, ?_, ?_⟩
  · exact (hnest 65535 (by decide) (by decide)).1 (hopening _ (Or.inr rfl))
  · exact (hnest 1 (by decide) (by decide)).2 hclosing

end Memory
end RingTape
