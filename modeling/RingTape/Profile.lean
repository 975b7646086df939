import RingTape.Opcode

/-!
# Execution profiles

A profile counts executed steps by what the fetched cell decoded to: one slot for each
instruction and one for cells that name none. Counts are 64-bit words that stay at their largest
value once they reach it.
-/

namespace RingTape

/-- The largest 64-bit count. -/
def countMax : UInt64 := 0xffffffffffffffff

/-- The sum of two counts, held at `countMax` when it would pass it. -/
def saturatingAdd (a b : UInt64) : UInt64 :=
  let sum := a + b
  if sum < a then countMax else sum

/-- In natural numbers, a saturating sum is the smaller of the sum and the largest count. -/
theorem toNat_saturatingAdd (a b : UInt64) :
    (saturatingAdd a b).toNat = min (a.toNat + b.toNat) countMax.toNat := by
  have ha := a.toNat_lt
  have hb := b.toNat_lt
  have sum := UInt64.toNat_add a b
  have largest : countMax.toNat = 18446744073709551615 := rfl
  simp only [saturatingAdd, UInt64.lt_iff_toNat_lt]
  split <;> omega

/-- Counts of executed steps, by instruction. -/
structure Profile where
  /-- One count per instruction in the order of their codes, then the count of other cells. -/
  counts : Vector UInt64 12
deriving DecidableEq

namespace Profile

/-- The profile of a machine that has not run. -/
def empty : Profile :=
  ⟨Vector.replicate 12 0⟩

/-- The slot of a decoded cell. -/
def slot : Option Opcode → Fin 12
  | some op => op.index.castSucc
  | none => 11

/-- The count in the slot of a decoded cell. -/
def get (p : Profile) (op : Option Opcode) : UInt64 :=
  p.counts[(slot op).val]

/-- The profile after `times` steps on cells that decode alike. -/
def recordMany (p : Profile) (op : Option Opcode) (times : UInt64) : Profile :=
  ⟨p.counts.set (slot op).val (saturatingAdd (p.get op) times)⟩

/-- The profile after one step. -/
def record (p : Profile) (op : Option Opcode) : Profile :=
  p.recordMany op 1

/-- How often an instruction was executed. -/
def count (p : Profile) (op : Opcode) : UInt64 :=
  p.get (some op)

/-- How many steps were spent on cells that name no instruction. -/
def unknown (p : Profile) : UInt64 :=
  p.get none

/-- The number of recorded steps, as far as it can be counted. -/
def total (p : Profile) : UInt64 :=
  p.counts.toList.foldl saturatingAdd 0

/-- A one-line summary of all slots. -/
def describe (p : Profile) : String :=
  "OpcodeProfile \x7b counts: [" ++
    ", ".intercalate (p.counts.toList.map fun n => Nat.repr n.toNat) ++ "] \x7d"

/-- Different decodings have different slots. -/
theorem slot_injective {a b : Option Opcode} (h : slot a = slot b) : a = b := by
  revert h
  rcases a with _ | a <;> rcases b with _ | b
  · simp
  · cases b <;> simp [slot, Opcode.index]
  · cases a <;> simp [slot, Opcode.index]
  · cases a <;> cases b <;> simp [slot, Opcode.index]

/-- **Recording changes one slot.** -/
theorem get_recordMany (p : Profile) (a b : Option Opcode) (times : UInt64) :
    (p.recordMany a times).get b = if a = b then saturatingAdd (p.get a) times else p.get b := by
  by_cases h : a = b
  · subst h
    simp [get, recordMany]
  · have different : (slot a).val ≠ (slot b).val := fun e => h (slot_injective (Fin.ext e))
    simp [get, recordMany, different, h]

@[simp]
theorem get_empty (op : Option Opcode) : empty.get op = 0 := by
  simp [get, empty]

end Profile

end RingTape
