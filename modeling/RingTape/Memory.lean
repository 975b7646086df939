import RingTape.Opcode

/-!
# The ring of cells

Program and data share one ring of 65536 cells. An address is a 16-bit word, so every address is
valid and address arithmetic goes round the ring by itself. Nothing separates code from data: a
cell written through the head is seen by the next fetch of that address.

The view of a memory is its reading function `get`; `Memory.ext` says that the view is all there
is, and `get_set` says what a write does to it.
-/

namespace RingTape

/-- The cells of the ring, by address. -/
structure Memory where
  /-- One byte per address. -/
  cells : Vector UInt8 65536
deriving DecidableEq

namespace Memory

/-- The number of cells. -/
def size : Nat := 65536

/-- The ring with zero in every cell. -/
def blank : Memory :=
  ⟨Vector.replicate 65536 0⟩

/-- The cell at an address. -/
@[inline]
def get (m : Memory) (a : UInt16) : UInt8 :=
  have inside : a.toNat < 65536 := a.toNat_lt
  m.cells[a.toNat]

/-- The ring after a write to one address. -/
@[inline]
def set (m : Memory) (a : UInt16) (value : UInt8) : Memory :=
  ⟨m.cells.set a.toNat value a.toNat_lt⟩

/-- The `count` cells from an address on, in order, going round past the highest address. -/
def window (m : Memory) (a : UInt16) (count : Nat) : List UInt8 :=
  (List.range count).map fun i => m.get (a + UInt16.ofNat i)

/-- The ring after consecutive writes from an address on, going round past the highest address. -/
def write (m : Memory) (a : UInt16) (values : List UInt8) : Memory :=
  match values with
  | [] => m
  | value :: rest => (m.set a value).write (a + 1) rest

/-- All cells in the order of their addresses. -/
def toList (m : Memory) : List UInt8 :=
  m.cells.toList

/-- The number of cells that are not zero. -/
def nonzeroCount (m : Memory) : Nat :=
  m.toList.countP (· != 0)

/-- A one-line summary. -/
def describe (m : Memory) : String :=
  "Memory \x7b size: " ++ Nat.repr size ++ ", nonzero_cells: " ++ Nat.repr m.nonzeroCount ++ " \x7d"

/-- Two memories with the same cell at every address are the same. -/
@[ext]
theorem ext {m n : Memory} (h : ∀ a, m.get a = n.get a) : m = n := by
  obtain ⟨cells⟩ := m
  obtain ⟨cells'⟩ := n
  congr 1
  apply Vector.ext
  intro i hi
  simpa [get, Nat.mod_eq_of_lt hi] using h (UInt16.ofNat i)

/-- **Reading after a write.** The written address shows the new value and no other changes. -/
theorem get_set (m : Memory) (a b : UInt16) (value : UInt8) :
    (m.set a value).get b = if a = b then value else m.get b := by
  simp [get, set, Vector.getElem_set, UInt16.toNat_inj]

@[simp]
theorem get_set_self (m : Memory) (a : UInt16) (value : UInt8) : (m.set a value).get a = value := by
  rw [get_set, if_pos rfl]

theorem get_set_of_ne (m : Memory) {a b : UInt16} (h : a ≠ b) (value : UInt8) :
    (m.set a value).get b = m.get b := by
  rw [get_set, if_neg h]

@[simp]
theorem get_blank (a : UInt16) : blank.get a = 0 := by
  simp [get, blank]

@[simp]
theorem length_toList (m : Memory) : m.toList.length = size := by
  simp [toList, size]

end Memory

end RingTape
