import RingTape.Memory
import RingTape.Text.Number

/-!
# Program images

An image is a ring that holds a program from address 0 upward, together with the number of cells
that the program has. The head of a machine starts one cell past the program. A program with more
cells than the ring goes round and overwrites its own beginning, so the last value written to an
address is the one that counts.
-/

namespace RingTape

/-- An encoded program. -/
structure Image where
  /-- The ring at the start of execution. -/
  memory : Memory
  /-- The number of cells that were written, which may exceed the size of the ring. -/
  emitted : Nat

namespace Image

/-- The image of the program without cells. -/
def empty : Image :=
  ⟨Memory.blank, 0⟩

/-- The image with one more cell at its end. -/
def push (image : Image) (cell : UInt8) : Image :=
  ⟨image.memory.set (UInt16.ofNat image.emitted) cell, image.emitted + 1⟩

/-- The image of a program given cell by cell. -/
def ofBytes (cells : List UInt8) : Image :=
  cells.foldl push empty

/-- Where the head starts: one cell past the program, going round the ring. -/
def tapeStart (image : Image) : UInt16 :=
  UInt16.ofNat (image.emitted + 1)

/-- The program cells in the order of their addresses. -/
def code (image : Image) : List UInt8 :=
  image.memory.toList.take image.emitted

/-- The number of cells in a row of a listing. -/
def rowLength : Nat := 16

/-- Cuts cells into rows; only the last row may be shorter. -/
def rows (cells : List UInt8) : List (List UInt8) :=
  match cells with
  | [] => []
  | cell :: rest => (cell :: rest).take rowLength :: rows ((cell :: rest).drop rowLength)
termination_by cells.length
decreasing_by
  simp only [rowLength, List.length_drop, List.length_cons]
  omega

/-- A row of a listing: the address of its first cell, then its cells. -/
def dumpRow (row : Nat) (cells : List UInt8) : String :=
  Text.hexAddress (UInt16.ofNat (rowLength * row)) ++ ":" ++
    String.join (cells.map fun cell => " " ++ Text.hexCell cell) ++ "\n"

/-- **The hexadecimal listing.** One line per row of program cells, then the start of the tape. -/
def hexDump (image : Image) : String :=
  String.join ((rows image.code).mapIdx dumpRow) ++
    "tape start: " ++ Text.markedAddress image.tapeStart ++ "\n"

@[simp]
theorem emitted_push (image : Image) (cell : UInt8) :
    (image.push cell).emitted = image.emitted + 1 :=
  rfl

/-- One cell is written for each byte of the program. -/
@[simp]
theorem emitted_ofBytes (cells : List UInt8) : (ofBytes cells).emitted = cells.length := by
  have general : ∀ image : Image,
      (cells.foldl push image).emitted = image.emitted + cells.length := by
    induction cells with
    | nil => intro image; rfl
    | cons cell rest ih =>
      intro image
      rw [List.foldl_cons, ih, emitted_push, List.length_cons]
      omega
  simpa [ofBytes, empty] using general empty

end Image

end RingTape
