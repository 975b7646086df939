import Mathlib.Data.FinEnum
import RingTape.Proofs.BracketSearch

/-!
# How many brackets have a partner

A full lap passes every cell of the ring once, so at its end the closers are ahead by
the difference of the two numbers of brackets, wherever it began (`excess_lap`).  A lap
that begins on an opener passes that opener last.  If there are no more openers than
closers, the closers are therefore ahead before the lap is over, and the opener has a
partner (`matchingBracket_ne_none`).

Partners find each other, so the openers that have a partner for one direction are as
many as those that have one for the other (`card_matched_flip`).  In one of the
directions these are all the openers, which gives their number in both.
-/

namespace RingTape

namespace Direction

variable (dir : Direction)

@[simp] theorem opener_flip : dir.flip.opener = dir.closer := by
  cases dir <;> rfl

@[simp] theorem closer_flip : dir.flip.closer = dir.opener := by
  cases dir <;> rfl

end Direction

namespace Memory

variable (m : Memory) (dir : Direction)

/-- The addresses whose cells hold a given instruction. -/
def sites (op : Opcode) : Finset UInt16 :=
  Finset.univ.filter fun b => Opcode.decode (m.get b) = some op

/-- The openers of a direction that have a partner. -/
def matched : Finset UInt16 :=
  (m.sites dir.opener).filter fun b => m.matchingBracket b dir ≠ none

theorem mem_sites {op : Opcode} {b : UInt16} :
    b ∈ m.sites op ↔ Opcode.decode (m.get b) = some op := by
  simp [sites]

/-- A lap passes every cell with an instruction. -/
theorem tally_lap (op : Opcode) (a : UInt16) : m.tally dir op a size = (m.sites op).card := by
  obtain ⟨-, hinj, hsurj⟩ := dir.along_bijOn a
  apply Finset.card_nbij (dir.along a)
  · intro i hi
    rw [Finset.mem_coe, Finset.mem_filter] at hi
    exact m.mem_sites.mpr hi.2
  · intro i hi j hj h
    rw [Finset.mem_coe, Finset.mem_filter, Finset.mem_Icc] at hi hj
    exact hinj hi.1 hj.1 h
  · intro b hb
    rw [Finset.mem_coe, mem_sites] at hb
    obtain ⟨i, hi, rfl⟩ := hsurj (Set.mem_univ b)
    refine ⟨i, ?_, rfl⟩
    rw [Finset.mem_coe, Finset.mem_filter, Finset.mem_Icc]
    exact ⟨hi, hb⟩

/-- **The lead after a lap** is the same from every start. -/
theorem excess_lap (a : UInt16) :
    m.excess dir a size = (m.sites dir.closer).card - (m.sites dir.opener).card := by
  rw [excess_eq_tally, tally_lap, tally_lap]

/-- **Openers that are no more than the closers all have partners.** -/
theorem matchingBracket_ne_none (h : (m.sites dir.opener).card ≤ (m.sites dir.closer).card)
    {b : UInt16} (hb : b ∈ m.sites dir.opener) : m.matchingBracket b dir ≠ none := by
  have hlap := m.excess_lap dir b
  -- the last cell of the lap is the opener itself
  have hlast := m.excess_succ dir b 65535
  rw [show 65535 + 1 = size from rfl, dir.along_size,
    Direction.tilt_of_opener (m.mem_sites.mp hb)] at hlast
  have hlead : 1 ≤ m.excess dir b 65535 := by omega
  obtain ⟨k, -, hk, hfirst⟩ := exists_firstLead m dir b hlead
  have hsize : k ≤ size := Nat.le_trans hk (by decide)
  rw [(m.matchingBracket_iff_firstLead dir).mpr ⟨k, hsize, rfl, hfirst⟩]
  exact Option.some_ne_none _

variable {m dir} in
theorem mem_matched {b : UInt16} : b ∈ m.matched dir ↔
    Opcode.decode (m.get b) = some dir.opener ∧ ∃ c, m.matchingBracket b dir = some c := by
  rw [matched, Finset.mem_filter, mem_sites, Option.ne_none_iff_exists']

/-- Different openers have different partners, which are openers of the other direction. -/
theorem card_matched_le_flip : (m.matched dir).card ≤ (m.matched dir.flip).card := by
  apply Finset.card_le_card_of_injOn fun b => (m.matchingBracket b dir).getD b
  · intro b hb
    obtain ⟨hopener, c, hc⟩ := mem_matched.mp hb
    obtain ⟨hcloser, -, hback⟩ := matchingBracket_flip dir hopener hc
    simp only [hc, Option.getD_some]
    exact mem_matched.mpr ⟨by rw [hcloser, dir.opener_flip], b, hback⟩
  · intro b hb b' hb' h
    obtain ⟨hopener, c, hc⟩ := mem_matched.mp hb
    obtain ⟨hopener', c', hc'⟩ := mem_matched.mp hb'
    obtain ⟨-, -, hback⟩ := matchingBracket_flip dir hopener hc
    obtain ⟨-, -, hback'⟩ := matchingBracket_flip dir hopener' hc'
    simp only [hc, hc', Option.getD_some] at h
    rw [h, hback'] at hback
    exact (Option.some.inj hback).symm

theorem card_matched_flip : (m.matched dir.flip).card = (m.matched dir).card := by
  apply Nat.le_antisymm
  · have hback := m.card_matched_le_flip dir.flip
    rwa [dir.flip_flip] at hback
  · exact m.card_matched_le_flip dir

theorem card_matched_of_le (h : (m.sites dir.opener).card ≤ (m.sites dir.closer).card) :
    (m.matched dir).card = (m.sites dir.opener).card := by
  rw [matched, Finset.filter_true_of_mem]
  intro b hb
  exact m.matchingBracket_ne_none dir h hb

/-- **As many brackets have a partner as there are of the rarer kind.** -/
theorem card_matched :
    (m.matched dir).card = min (m.sites dir.opener).card (m.sites dir.closer).card := by
  by_cases h : (m.sites dir.opener).card ≤ (m.sites dir.closer).card
  · rw [m.card_matched_of_le dir h, Nat.min_eq_left h]
  · have hflip : (m.sites dir.flip.opener).card ≤ (m.sites dir.flip.closer).card := by
      rw [dir.opener_flip, dir.closer_flip]
      omega
    rw [← card_matched_flip, m.card_matched_of_le dir.flip hflip, dir.opener_flip]
    omega

/-- **When a bracket has a partner, by counting.**  As many opening brackets have a
partner as there are brackets of the rarer kind, and as many closing ones.  So if there
are no more opening brackets than closing ones, every opening bracket has a partner,
and the other way round, wherever they lie on the ring. -/
theorem matched_brackets_counted (m : Memory) :
    let openings := m.sites .opening
    let closings := m.sites .closing
    (openings.filter fun x => m.matchingBracket x .forward ≠ none).card =
      min openings.card closings.card ∧
    (closings.filter fun a => m.matchingBracket a .backward ≠ none).card =
      min openings.card closings.card ∧
    (openings.card ≤ closings.card → ∀ x ∈ openings, m.matchingBracket x .forward ≠ none) ∧
    (closings.card ≤ openings.card → ∀ a ∈ closings, m.matchingBracket a .backward ≠ none) := by
  intro openings closings
  refine ⟨m.card_matched .forward, ?_, fun h x hx => ?_, fun h a ha => ?_⟩
  · rw [Nat.min_comm]
    exact m.card_matched .backward
  · exact m.matchingBracket_ne_none .forward h hx
  · exact m.matchingBracket_ne_none .backward h ha

/-- A ring with one opening bracket at the highest address and two closing ones past the
seam. -/
def lopsided : Memory :=
  ((blank.set 65535 Opcode.opening.code).set 1 Opcode.closing.code).set 2 Opcode.closing.code

theorem decode_lopsided (b : UInt16) : Opcode.decode (lopsided.get b) =
    if 2 = b then some .closing else if 1 = b then some .closing
    else if 65535 = b then some .opening else some .nop := by
  have hblank : Opcode.decode 0 = some .nop := by decide
  simp only [lopsided, get_set, get_blank, apply_ite Opcode.decode, Opcode.decode_code, hblank]

/-- One of two closing brackets is left without a partner. -/
theorem matched_brackets_counted_lopsided :
    (lopsided.sites .opening).card = 1 ∧ (lopsided.sites .closing).card = 2 ∧
    ((lopsided.sites .closing).filter fun a =>
      lopsided.matchingBracket a .backward ≠ none).card = 1 ∧
    lopsided.matchingBracket 65535 .forward ≠ none := by
  have hopenings : lopsided.sites .opening = {65535} := by
    ext b
    rw [mem_sites, decode_lopsided, Finset.mem_singleton]
    grind
  have hclosings : lopsided.sites .closing = {1, 2} := by
    ext b
    rw [mem_sites, decode_lopsided, Finset.mem_insert, Finset.mem_singleton]
    grind
  obtain ⟨-, hclosed, hopen, -⟩ := matched_brackets_counted lopsided
  rw [hopenings, hclosings] at hopen hclosed
  rw [hopenings, hclosings]
  exact ⟨rfl, rfl, hclosed, hopen (by decide) 65535 (Finset.mem_singleton_self _)⟩

end Memory
end RingTape
