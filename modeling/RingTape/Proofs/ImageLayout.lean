import Mathlib.Data.List.Induction
import Mathlib.Order.Bounds.Basic
import RingTape.Machine.State

/-!
# Where a program lies in the ring

A program is written cell by cell from address 0 on, and goes round the ring as often as
it is long.  The positions of its cells that belong to one address are those that leave
the same remainder (`positions`), and the cell at the address is that at the last of them:
writing one more cell makes its position the last one of its address and leaves all other
addresses alone (`get_ofBytes`).

All else follows from this.  A program that fits is there as it was given
(`code_ofBytes`), and past its end the ring is blank (`get_ofBytes_of_le`), where the head
starts if there are two cells to spare.
-/

namespace RingTape

namespace Memory

theorem getElem_toList (m : Memory) {i : Nat} (h : i < m.toList.length) :
    m.toList[i] = m.get (UInt16.ofNat i) := by
  have hi : i < 65536 := h.trans_eq m.length_toList
  simp [get, toList, Nat.mod_eq_of_lt hi]

/-- The first cells are a window at address 0. -/
theorem take_toList (m : Memory) (count : Nat) :
    m.toList.take count = m.window 0 (min count size) := by
  apply List.ext_getElem
  · simp [window]
  · intro i hi hi'
    simp only [window, List.getElem_take, getElem_toList, List.getElem_map, List.getElem_range,
      UInt16.zero_add]

end Memory

namespace Image

/-- The positions among `count` cells, written from address 0 on, that belong to an
address. -/
def positions (count : Nat) (a : UInt16) : Set Nat :=
  {i | i < count ∧ i % Memory.size = a.toNat}

theorem ofNat_eq_iff (n : Nat) (a : UInt16) : UInt16.ofNat n = a ↔ n % Memory.size = a.toNat := by
  rw [← UInt16.toNat_inj, UInt16.toNat_ofNat']
  rfl

section Positions

variable {count : Nat} {a : UInt16}

/-- The position that comes last is the greatest one of its address. -/
theorem isGreatest_positions (h : count % Memory.size = a.toNat) :
    IsGreatest (positions (count + 1) a) count :=
  ⟨⟨Nat.lt_succ_self count, h⟩, fun _ hi => Nat.le_of_lt_succ hi.1⟩

/-- It is no position of any other address. -/
theorem positions_succ (h : count % Memory.size ≠ a.toNat) :
    positions (count + 1) a = positions count a := by
  ext i
  constructor
  · rintro ⟨hi, hrest⟩
    have hne : i ≠ count := by
      rintro rfl
      exact h hrest
    exact ⟨by omega, hrest⟩
  · rintro ⟨hi, hrest⟩
    exact ⟨Nat.lt_succ_of_lt hi, hrest⟩

end Positions

variable {cells : List UInt8} {a : UInt16}

theorem ofBytes_concat (cells : List UInt8) (cell : UInt8) :
    ofBytes (cells ++ [cell]) = (ofBytes cells).push cell :=
  List.foldl_append

/-- **The last cell written to an address is the one that is there**; an address that no
cell was written to is blank. -/
theorem get_ofBytes (cells : List UInt8) (a : UInt16) :
    (∃ i, IsGreatest (positions cells.length a) i ∧
      cells[i]? = some ((ofBytes cells).memory.get a)) ∨
    positions cells.length a = ∅ ∧ (ofBytes cells).memory.get a = 0 := by
  induction cells using List.reverseRecOn with
  | nil =>
    right
    refine ⟨?_, Memory.get_blank a⟩
    ext i
    simp [positions]
  | append_singleton cells cell ih =>
    rw [ofBytes_concat, push, emitted_ofBytes, Memory.get_set, List.length_append,
      List.length_singleton]
    by_cases hlast : cells.length % Memory.size = a.toNat
    · rw [if_pos ((ofNat_eq_iff _ a).mpr hlast)]
      left
      exact ⟨cells.length, isGreatest_positions hlast, List.getElem?_concat_length⟩
    · rw [if_neg fun heq => hlast ((ofNat_eq_iff _ a).mp heq), positions_succ hlast]
      rcases ih with ⟨i, hgreatest, hcell⟩ | hblank
      · left
        refine ⟨i, hgreatest, ?_⟩
        rw [List.getElem?_append_left hgreatest.1.1, hcell]
      · exact Or.inr hblank

/-- A program that fits has each cell at the address of its position. -/
theorem get_ofBytes_of_lt (hfits : cells.length ≤ Memory.size) {i : Nat}
    (hi : i < cells.length) :
    cells[i]? = some ((ofBytes cells).memory.get (UInt16.ofNat i)) := by
  have haddress : i % Memory.size = (UInt16.ofNat i).toNat := (ofNat_eq_iff i _).mp rfl
  rcases get_ofBytes cells (UInt16.ofNat i) with ⟨j, ⟨⟨hj, hrest⟩, -⟩, hcell⟩ | ⟨hnone, -⟩
  · -- the remainders of positions below the size are the positions
    have hsame : j = i := by
      rw [← haddress, Nat.mod_eq_of_lt (by omega), Nat.mod_eq_of_lt (by omega)] at hrest
      exact hrest
    rw [← hsame, hcell, hsame]
  · have hmem : i ∈ positions cells.length (UInt16.ofNat i) := ⟨hi, haddress⟩
    rw [hnone] at hmem
    exact absurd hmem (Set.notMem_empty i)

/-- **Past the program the ring is blank.** -/
theorem get_ofBytes_of_le (h : cells.length ≤ a.toNat) : (ofBytes cells).memory.get a = 0 := by
  have hsize : a.toNat < Memory.size := a.toNat_lt
  rcases get_ofBytes cells a with ⟨i, ⟨⟨hi, hrest⟩, -⟩, -⟩ | ⟨-, hblank⟩
  · rw [Nat.mod_eq_of_lt (by omega)] at hrest
    omega
  · exact hblank

theorem toNat_tapeStart (cells : List UInt8) :
    (ofBytes cells).tapeStart.toNat = (cells.length + 1) % Memory.size := by
  rw [tapeStart, emitted_ofBytes, UInt16.toNat_ofNat']
  rfl

theorem code_eq_window (image : Image) :
    image.code = image.memory.window 0 (min image.emitted Memory.size) :=
  image.memory.take_toList image.emitted

/-- **A program that fits is there as it was given.** -/
theorem code_ofBytes (hfits : cells.length ≤ Memory.size) : (ofBytes cells).code = cells := by
  rw [code_eq_window, emitted_ofBytes, Nat.min_eq_left hfits]
  apply List.ext_getElem?
  intro i
  by_cases hi : i < cells.length
  · rw [get_ofBytes_of_lt hfits hi]
    simp [Memory.window, hi]
  · rw [List.getElem?_eq_none (by simp [Memory.window]; omega),
      List.getElem?_eq_none (by omega)]

/-- With two cells to spare, the head starts past the program. -/
theorem toNat_tapeStart_of_le (h : cells.length ≤ 65534) :
    (ofBytes cells).tapeStart.toNat = cells.length + 1 := by
  rw [toNat_tapeStart, Memory.size]
  omega

/-- With one cell to spare, it starts where the program does. -/
theorem tapeStart_eq_zero (h : cells.length = 65535) : (ofBytes cells).tapeStart = 0 := by
  apply UInt16.toNat_inj.mp
  rw [toNat_tapeStart, h]
  rfl

/-- **Where a program lies in the ring.**  A program of any length has in each cell of the
ring the last of its cells that were written there, and zero where none was.  All its cells
are counted, the head is to start one cell past them, going round the ring, and its code
are the first cells of the ring, as many as were written; that is the program itself if it
fits.

From the address of its length on the ring is blank.  So with two cells to spare a machine
starts with its head on a blank cell past the program, but with one cell to spare it starts
with its head on the first cell of the program. -/
theorem image_layout (cells : List UInt8) :
    let image := ofBytes cells
    (∀ a,
      (∃ i, IsGreatest (positions cells.length a) i ∧ cells[i]? = some (image.memory.get a)) ∨
        positions cells.length a = ∅ ∧ image.memory.get a = 0) ∧
    image.emitted = cells.length ∧
    image.tapeStart.toNat = (cells.length + 1) % Memory.size ∧
    image.code = image.memory.window 0 (min cells.length Memory.size) ∧
    (cells.length ≤ Memory.size → image.code = cells) ∧
    (∀ a, cells.length ≤ a.toNat → image.memory.get a = 0) ∧
    (cells.length ≤ 65534 →
      cells.length < image.tapeStart.toNat ∧ image.memory.get image.tapeStart = 0) ∧
    (cells.length = 65535 → image.tapeStart = 0) ∧
    ∀ (World Link : Type) (console : Console) (world : World) (settings : Settings),
      let m : Machine World Link := .load image console world settings
      (cells.length ≤ 65534 → cells.length < m.head.toNat ∧ m.current = 0) ∧
        (cells.length = 65535 → m.head = 0 ∧ cells[0]? = some m.current) := by
  intro image
  have hblank (h : cells.length ≤ 65534) :
      cells.length < image.tapeStart.toNat ∧ image.memory.get image.tapeStart = 0 := by
    have hstart : image.tapeStart.toNat = cells.length + 1 := toNat_tapeStart_of_le h
    exact ⟨by omega, get_ofBytes_of_le (by omega)⟩
  refine ⟨get_ofBytes cells, emitted_ofBytes cells, toNat_tapeStart cells, ?_, code_ofBytes,
    fun a => get_ofBytes_of_le, hblank, tapeStart_eq_zero,
    fun World Link console world settings => ⟨hblank, fun h => ?_⟩⟩
  · rw [code_eq_window, emitted_ofBytes]
  · have hstart : image.tapeStart = 0 := tapeStart_eq_zero h
    have hsize : cells.length ≤ Memory.size := by
      rw [h]
      decide
    refine ⟨hstart, ?_⟩
    rw [Machine.current_eq, Machine.load, hstart]
    exact get_ofBytes_of_lt hsize (by omega)

/-- A program with one cell more than the ring has its last cell at address 0, and the head
starts at address 2; one with a cell less than the ring starts it at address 0.  Past a
program of two cells the head is on a blank cell. -/
theorem image_layout_lap :
    (ofBytes (List.replicate 65536 7 ++ [9])).memory.get 0 = 9 ∧
      (ofBytes (List.replicate 65536 7 ++ [9])).tapeStart.toNat = 2 ∧
      (ofBytes (List.replicate 65535 7)).tapeStart = 0 ∧
      (ofBytes [7, 9]).code = [7, 9] ∧
      (ofBytes [7, 9]).memory.get (ofBytes [7, 9]).tapeStart = 0 := by
  have hlength : (List.replicate 65536 (7 : UInt8) ++ [9]).length = 65537 := by
    rw [List.length_append, List.length_replicate]
    rfl
  obtain ⟨hcells, -, hstart, -⟩ := image_layout (List.replicate 65536 7 ++ [9])
  obtain ⟨-, -, -, -, -, -, -, hseam, -⟩ := image_layout (List.replicate 65535 7)
  obtain ⟨-, -, -, -, hcode, -, hblank, -⟩ := image_layout [7, 9]
  refine ⟨?_, ?_, hseam List.length_replicate, hcode (by decide), (hblank (by decide)).2⟩
  · have hlast : IsGreatest (positions 65537 0) 65536 := isGreatest_positions rfl
    rcases hcells 0 with ⟨i, hi, hcell⟩ | ⟨hnone, -⟩
    · rw [hlength] at hi
      rw [hi.unique hlast, List.getElem?_append_right (by rw [List.length_replicate]),
        List.length_replicate] at hcell
      exact (Option.some.inj hcell).symm
    · rw [hlength] at hnone
      exact absurd hlast.1 (hnone ▸ Set.notMem_empty _)
  · rw [hstart, hlength]
    rfl

end Image
end RingTape
