import Mathlib.Algebra.GroupWithZero.Nat
import Mathlib.Data.List.Basic
import RingTape.Proofs.ImageLayout
import RingTape.Text.Basic

/-!
# A listing can be read back

The hexadecimal listing of an image shows the program cells, sixteen in a row, and where
the tape starts.  `Listing` says line by line what stands there, in terms of fields of
lowercase hexadecimal digits (`HexField`), and `readListing?` reads such a text: it cuts
it at the line feeds and the lines into fields, and refuses a row whose label is not the
address of its first cell.

The listing of an image is laid out that way (`listing_dumped`), and every text that is
laid out that way is read as the cells and the start that it shows (`readListing?_of_listing`).
So nothing of the program is lost in a listing.  An address has four digits because the
ring has 65536 cells: the last row that there can be is labelled `fff0`.
-/

namespace RingTape

namespace Text

/-! ## Fields of hexadecimal digits -/

/-- The lowercase hexadecimal digits in the order of their values. -/
def hexAlphabet : List Char :=
  ['0', '1', '2', '3', '4', '5', '6', '7', '8', '9', 'a', 'b', 'c', 'd', 'e', 'f']

/-- The number that a string of hexadecimal digits stands for. -/
def hexValue (field : List Char) : Nat :=
  field.foldl (fun value digit => 16 * value + hexAlphabet.idxOf digit) 0

/-- A field of `width` lowercase hexadecimal digits that stands for `n`. -/
structure HexField (width n : Nat) (field : List Char) : Prop where
  length_eq : field.length = width
  lowercase : ∀ c ∈ field, c ∈ hexAlphabet
  value_eq : hexValue field = n

/-- Reads a field of hexadecimal digits; anything else is refused. -/
def hexValue? (field : List Char) : Option Nat :=
  if field.all fun c => hexAlphabet.contains c then some (hexValue field) else none

theorem HexField.hexValue?_eq {width n : Nat} {field : List Char} (h : HexField width n field) :
    hexValue? field = some n := by
  have hall : (field.all fun c => hexAlphabet.contains c) = true :=
    List.all_eq_true.mpr fun c hc => List.contains_iff_mem.mpr (h.lowercase c hc)
  rw [hexValue?, if_pos hall, h.value_eq]

theorem HexField.newline_not_mem {width n : Nat} {field : List Char} (h : HexField width n field) :
    '\n' ∉ field := by
  intro hmem
  exact absurd (h.lowercase '\n' hmem) (by decide)

theorem digitChar_mem_hexAlphabet : ∀ digit < 16, Nat.digitChar digit ∈ hexAlphabet := by
  decide

theorem idxOf_digitChar : ∀ digit < 16, hexAlphabet.idxOf (Nat.digitChar digit) = digit := by
  decide

theorem hexValue_concat (field : List Char) (digit : Char) :
    hexValue (field ++ [digit]) = 16 * hexValue field + hexAlphabet.idxOf digit := by
  rw [hexValue, List.foldl_append]
  rfl

/-- **The last digits of a number are a field for it**, if it has no more digits. -/
theorem hexField_hexDigits {width n : Nat} (h : n < 16 ^ width) :
    HexField width n (hexDigits width n) := by
  induction width generalizing n with
  | zero =>
    have hn : n = 0 := by simpa using h
    exact ⟨rfl, by simp [hexDigits], hn.symm⟩
  | succ width ih =>
    have hlast : n % 16 < 16 := Nat.mod_lt n (by decide)
    have hfront : HexField width (n / 16) (hexDigits width (n / 16)) := by
      apply ih
      rw [Nat.pow_succ] at h
      exact Nat.div_lt_of_lt_mul (by omega)
    refine ⟨length_hexDigits _ _, ?_, ?_⟩
    · intro c hc
      rcases List.mem_append.mp hc with hc | hc
      · exact hfront.lowercase c hc
      · rw [List.mem_singleton.mp hc]
        exact digitChar_mem_hexAlphabet _ hlast
    · rw [hexDigits, hexValue_concat, hfront.value_eq, idxOf_digitChar _ hlast]
      omega

end Text

namespace Image

open Text

/-! ## The layout of a listing -/

/-- Cells as a row shows them: each is a space and two hexadecimal digits. -/
inductive CellsShown : List UInt8 → List Char → Prop where
  | nil : CellsShown [] []
  | cons {cell : UInt8} {cells : List UInt8} {field text : List Char}
      (hfield : HexField 2 cell.toNat field) (hrest : CellsShown cells text) :
      CellsShown (cell :: cells) (' ' :: (field ++ text))

/-- A row shows an address in four hexadecimal digits, a colon, and its cells. -/
inductive RowShown (address : Nat) (cells : List UInt8) : List Char → Prop where
  | labelled {label text : List Char} (hlabel : HexField 4 address label)
      (hcells : CellsShown cells text) : RowShown address cells (label ++ ':' :: text)

/-- What stands before the digits of the start of the tape. -/
def startLabel : List Char :=
  ['t', 'a', 'p', 'e', ' ', 's', 't', 'a', 'r', 't', ':', ' ', '0', 'x']

/-- **The lines of a listing**: a row for each sixteen cells and one for what is left of
them, then the start of the tape. -/
structure Listing (code : List UInt8) (start : UInt16) (lines : List (List Char))
    (last : List Char) : Prop where
  /-- There are as many rows as it takes. -/
  count : lines.length = (code.length + 15) / 16
  /-- Each row shows the next sixteen cells, and is labelled with the address of the first. -/
  row : ∀ r line, lines[r]? = some line → RowShown (16 * r) ((code.drop (16 * r)).take 16) line
  /-- Only the last row may have fewer. -/
  full : ∀ r, r + 1 < lines.length → ((code.drop (16 * r)).take 16).length = 16
  /-- The last line shows the start of the tape. -/
  start : ∃ field, HexField 4 start.toNat field ∧ last = startLabel ++ field

/-! ## Reading a listing -/

/-- Reads the cells of a row. -/
def readCells? : List Char → Option (List UInt8)
  | [] => some []
  | ' ' :: high :: low :: rest => do
    let cell ← hexValue? [high, low]
    let cells ← readCells? rest
    return UInt8.ofNat cell :: cells
  | _ => none

/-- Reads a row, which has to be labelled with the address of its first cell. -/
def readRow? (row : Nat) (text : List Char) : Option (List UInt8) :=
  if hexValue? (text.take 4) = some (16 * row) ∧ text[4]? = some ':' then
    readCells? (text.drop 5)
  else none

/-- Reads the line with the start of the tape. -/
def readStart? (line : List Char) : Option UInt16 :=
  if line.take 14 = startLabel ∧ line.length = 18 then
    (hexValue? (line.drop 14)).map UInt16.ofNat
  else none

/-- Reads a listing: its cells, row by row, and the start of the tape. -/
def readListing? (text : String) : Option (List UInt8 × UInt16) :=
  match (text.toList.splitOn '\n').reverse with
  | [] :: last :: lines => do
    let start ← readStart? last
    let cells ← (lines.reverse.mapIdx readRow?).mapM id
    return (cells.flatten, start)
  | _ => none

-- a row with another label is refused
example : readListing? "0000: 01 0a\ntape start: 0x0003\n" = some ([1, 10], 3) ∧
    readListing? "0010: 01 0a\ntape start: 0x0003\n" = none := by decide

variable {code cells : List UInt8} {start : UInt16} {lines : List (List Char)}
  {line last text : List Char}

theorem CellsShown.readCells?_eq (h : CellsShown cells text) : readCells? text = some cells := by
  induction h with
  | nil => rfl
  | @cons cell cells field text hfield hrest ih =>
    obtain ⟨high, low, rfl⟩ := List.length_eq_two.mp hfield.length_eq
    have hcell : hexValue? [high, low] = some cell.toNat := hfield.hexValue?_eq
    simp [readCells?, hcell, ih]

theorem RowShown.readRow?_eq {r : Nat} (h : RowShown (16 * r) cells line) :
    readRow? r line = some cells := by
  cases h with
  | @labelled label text hlabel hcells =>
    have hfour : label.length = 4 := hlabel.length_eq
    have htake : (label ++ ':' :: text).take 4 = label := List.take_left' hfour
    have hcolon : (label ++ ':' :: text)[4]? = some ':' := by
      rw [List.getElem?_append_right (by omega), hfour]
      rfl
    have hdrop : (label ++ ':' :: text).drop 5 = text := by
      rw [List.drop_append, hfour, List.drop_eq_nil_of_le (by omega)]
      rfl
    rw [readRow?, htake, hlabel.hexValue?_eq, hcolon, hdrop, if_pos ⟨rfl, rfl⟩,
      hcells.readCells?_eq]

theorem readStart?_eq {field : List Char} (h : HexField 4 start.toNat field) :
    readStart? (startLabel ++ field) = some start := by
  have htake : (startLabel ++ field).take 14 = startLabel := List.take_left' rfl
  have hdrop : (startLabel ++ field).drop 14 = field := List.drop_left' rfl
  have hlength : (startLabel ++ field).length = 18 := by
    rw [List.length_append, h.length_eq]
    rfl
  rw [readStart?, if_pos ⟨htake, hlength⟩, hdrop, h.hexValue?_eq, Option.map_some,
    UInt16.ofNat_toNat]

/-! ## Lines -/

theorem CellsShown.newline_not_mem (h : CellsShown cells text) : '\n' ∉ text := by
  induction h with
  | nil => simp
  | cons hfield _ ih =>
    rw [List.mem_cons, List.mem_append]
    rintro (hspace | hmem | hmem)
    · exact absurd hspace (by decide)
    · exact hfield.newline_not_mem hmem
    · exact ih hmem

theorem RowShown.newline_not_mem {address : Nat} (h : RowShown address cells line) :
    '\n' ∉ line := by
  cases h with
  | labelled hlabel hcells =>
    rw [List.mem_append, List.mem_cons]
    rintro (hmem | hcolon | hmem)
    · exact hlabel.newline_not_mem hmem
    · exact absurd hcolon (by decide)
    · exact hcells.newline_not_mem hmem

theorem Listing.newline_not_mem (h : Listing code start lines last) :
    ∀ line ∈ lines ++ [last], '\n' ∉ line := by
  intro line hline
  rcases List.mem_append.mp hline with hrow | hlast
  · obtain ⟨r, hr⟩ := List.mem_iff_getElem?.mp hrow
    exact (h.row r line hr).newline_not_mem
  · obtain ⟨field, hfield, heq⟩ := h.start
    rw [List.mem_singleton.mp hlast, heq, List.mem_append]
    rintro (hmem | hmem)
    · exact absurd hmem (by decide)
    · exact hfield.newline_not_mem hmem

/-! ## Rows of cells -/

theorem length_rows (cells : List UInt8) : (rows cells).length = (cells.length + 15) / 16 := by
  fun_induction rows cells with
  | case1 => rfl
  | case2 cell rest ih =>
    rw [List.length_cons, ih, List.length_drop, List.length_cons, rowLength]
    omega

/-- Each row has the next sixteen cells. -/
theorem getElem?_rows (cells : List UInt8) {r : Nat} (hr : r < (rows cells).length) :
    (rows cells)[r]? = some ((cells.drop (16 * r)).take 16) := by
  fun_induction rows cells generalizing r with
  | case1 => exact absurd hr (Nat.not_lt_zero r)
  | case2 cell rest ih =>
    cases r with
    | zero => rfl
    | succ r =>
      rw [List.getElem?_cons_succ, ih (Nat.lt_of_succ_lt_succ hr), List.drop_drop, rowLength,
        Nat.mul_succ, Nat.add_comm]

/-- The rows put together are the cells. -/
theorem flatten_rows (cells : List UInt8) : (rows cells).flatten = cells := by
  fun_induction rows cells with
  | case1 => rfl
  | case2 cell rest ih => rw [List.flatten_cons, ih, List.take_append_drop]

/-- Row by row, the lines of a listing are read as the rows of its cells. -/
theorem Listing.mapIdx_readRow? (h : Listing code start lines last) :
    lines.mapIdx readRow? = (rows code).map some := by
  have hcount : (rows code).length = lines.length := by rw [length_rows, h.count]
  apply List.ext_getElem?
  intro r
  rw [List.getElem?_mapIdx, List.getElem?_map]
  by_cases hr : r < lines.length
  · have hline : lines[r]? = some lines[r] := List.getElem?_eq_getElem hr
    rw [getElem?_rows code (by omega), hline, Option.map_some, Option.map_some,
      (h.row r _ hline).readRow?_eq]
  · rw [List.getElem?_eq_none (by omega), List.getElem?_eq_none (by omega)]
    rfl

/-- **A listing is read as what it shows.** -/
theorem readListing?_of_listing {listing : String} (h : Listing code start lines last)
    (htext : listing.toList = (lines ++ [last]).flatMap fun line => line ++ ['\n']) :
    readListing? listing = some (code, start) := by
  have hsplit : (listing.toList.splitOn '\n').reverse = [] :: last :: lines.reverse := by
    rw [htext, splitOn_ended h.newline_not_mem]
    simp
  have hstart : readStart? last = some start := by
    obtain ⟨field, hfield, heq⟩ := h.start
    rw [heq, readStart?_eq hfield]
  have hcells : (lines.mapIdx readRow?).mapM id = some (rows code) := by
    rw [h.mapIdx_readRow?, List.mapM_map]
    exact List.mapM_pure.trans (congrArg some (List.map_id _))
  simp [readListing?, hsplit, hstart, hcells, flatten_rows]

/-! ## Writing a listing -/

/-- The line of a row, without the line feed. -/
def rowLine (row : Nat) (cells : List UInt8) : List Char :=
  hexDigits 4 (UInt16.ofNat (16 * row)).toNat ++
    ':' :: cells.flatMap fun cell => ' ' :: hexDigits 2 cell.toNat

theorem cellsShown_hexDigits (cells : List UInt8) :
    CellsShown cells (cells.flatMap fun cell => ' ' :: hexDigits 2 cell.toNat) := by
  induction cells with
  | nil => exact .nil
  | cons cell cells ih =>
    rw [List.flatMap_cons, List.cons_append]
    exact .cons (hexField_hexDigits cell.toNat_lt) ih

/-- A row whose address is one of the ring is labelled with that address. -/
theorem rowShown_rowLine {r : Nat} (hr : 16 * r < Memory.size) (cells : List UInt8) :
    RowShown (16 * r) cells (rowLine r cells) := by
  have haddress : (UInt16.ofNat (16 * r)).toNat = 16 * r := UInt16.toNat_ofNat_of_lt' hr
  rw [rowLine, haddress]
  exact .labelled (hexField_hexDigits hr) (cellsShown_hexDigits cells)

theorem toList_dumpRow (row : Nat) (cells : List UInt8) :
    (dumpRow row cells).toList = rowLine row cells ++ ['\n'] := by
  simp [dumpRow, rowLine, rowLength, hexAddress, hexCell, List.flatMap_map]

/-- The listing of an image, line by line. -/
theorem toList_hexDump (image : Image) :
    image.hexDump.toList =
      ((rows image.code).mapIdx rowLine ++
        [startLabel ++ hexDigits 4 image.tapeStart.toNat]).flatMap fun line => line ++ ['\n'] := by
  have hrows : ((rows image.code).mapIdx dumpRow).map String.toList =
      ((rows image.code).mapIdx rowLine).map fun line => line ++ ['\n'] := by
    apply List.ext_getElem?
    intro r
    simp only [List.getElem?_map, List.getElem?_mapIdx, Option.map_map]
    exact congrArg (fun f => Option.map f (rows image.code)[r]?) (funext (toList_dumpRow r))
  rw [hexDump, List.flatMap_append, List.flatMap_def, ← hrows]
  simp [markedAddress, hexAddress, startLabel, List.flatMap_def]

theorem length_code_le (image : Image) : image.code.length ≤ Memory.size := by
  rw [code, List.length_take, Memory.length_toList]
  exact Nat.min_le_right _ _

/-- **The listing of an image is laid out as one of its code and its start.** -/
theorem listing_dumped (image : Image) :
    Listing image.code image.tapeStart ((rows image.code).mapIdx rowLine)
      (startLabel ++ hexDigits 4 image.tapeStart.toNat) where
  count := by rw [List.length_mapIdx, length_rows]
  row := by
    intro r line hline
    have hr : r < (rows image.code).length := by
      obtain ⟨hr, -⟩ := List.getElem?_eq_some_iff.mp hline
      rwa [List.length_mapIdx] at hr
    have haddress : 16 * r < Memory.size := by
      have hsize := image.length_code_le
      rw [length_rows] at hr
      rw [Memory.size] at hsize ⊢
      omega
    rw [List.getElem?_mapIdx, getElem?_rows _ hr, Option.map_some] at hline
    rw [← Option.some.inj hline]
    exact rowShown_rowLine haddress _
  full := by
    intro r hr
    rw [List.length_mapIdx, length_rows] at hr
    rw [List.length_take, List.length_drop]
    omega
  start := ⟨_, hexField_hexDigits image.tapeStart.toNat_lt, rfl⟩

/-- **A listing loses nothing.**  The listing of an image, whether of bytes or of a program
text, is a row for each sixteen program cells and one for what is left of them, and then
the start of the tape, each line ended by a line feed.  A row is labelled with the address
of its first cell in four lowercase hexadecimal digits and shows the next sixteen cells,
fewer in the last row only, each as a space and two such digits.  Reading the rows one
after the other gives the program cells, and reading the last line the start of the tape;
so images with one listing have the same program cells and the same start. -/
theorem listing_lossless (image : Image) :
    (∃ lines last, Listing image.code image.tapeStart lines last ∧
      image.hexDump.toList = (lines ++ [last]).flatMap fun line => line ++ ['\n']) ∧
    readListing? image.hexDump = some (image.code, image.tapeStart) ∧
    ∀ other : Image, other.hexDump = image.hexDump →
      other.code = image.code ∧ other.tapeStart = image.tapeStart := by
  have hread (image : Image) : readListing? image.hexDump = some (image.code, image.tapeStart) :=
    readListing?_of_listing image.listing_dumped image.toList_hexDump
  refine ⟨⟨_, _, image.listing_dumped, image.toList_hexDump⟩, hread image, ?_⟩
  intro other hsame
  have hpair : some (other.code, other.tapeStart) = some (image.code, image.tapeStart) := by
    rw [← hread other, hsame, hread image]
  exact ⟨congrArg Prod.fst (Option.some.inj hpair), congrArg Prod.snd (Option.some.inj hpair)⟩

/-- The listing of a full ring has 4096 rows, the last one labelled with address 65520, and
a program of two cells is told from its listing. -/
theorem listing_lossless_full_ring :
    (∃ lines line last, Listing (List.replicate 65536 7) 1 lines last ∧ lines.length = 4096 ∧
      lines[4095]? = some line ∧ RowShown 0xfff0 (List.replicate 16 7) line) ∧
    ∀ other : Image, other.hexDump = (ofBytes [1, 10]).hexDump →
      other.code = [1, 10] ∧ other.tapeStart = 3 := by
  obtain ⟨⟨lines, last, hlisting, -⟩, -, -⟩ := listing_lossless (ofBytes (List.replicate 65536 7))
  obtain ⟨-, -, hsame⟩ := listing_lossless (ofBytes [1, 10])
  have hfull : (ofBytes (List.replicate 65536 7)).code = List.replicate 65536 7 :=
    code_ofBytes (by rw [List.length_replicate]; exact Nat.le_refl _)
  have hstart : (ofBytes (List.replicate 65536 7)).tapeStart = 1 := by
    rw [tapeStart, emitted_ofBytes, List.length_replicate]
    rfl
  rw [hfull, hstart] at hlisting
  have hcount : lines.length = 4096 := by
    rw [hlisting.count, List.length_replicate]
  have hline : lines[4095]? = some lines[4095] := List.getElem?_eq_getElem (by omega)
  have hcells : ((List.replicate 65536 (7 : UInt8)).drop (16 * 4095)).take 16 =
      List.replicate 16 7 := by
    rw [List.drop_replicate, List.take_replicate]
    rfl
  refine ⟨⟨lines, lines[4095], last, hlisting, hcount, hline, ?_⟩, ?_⟩
  · exact hcells ▸ hlisting.row 4095 _ hline
  · have hcode : (ofBytes [1, 10]).code = [1, 10] := code_ofBytes (by decide)
    have htape : (ofBytes [1, 10]).tapeStart = 3 := by
      rw [tapeStart, emitted_ofBytes]
      rfl
    rw [hcode, htape] at hsame
    exact hsame

end Image
end RingTape
