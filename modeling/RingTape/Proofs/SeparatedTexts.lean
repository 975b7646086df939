import RingTape.Proofs.ImageLayout
import RingTape.Proofs.NormalForm

/-!
# Program texts joined by separators

Two program texts with a run of separators between them make one, and its tokens are those
of the first followed by those of the second (`tokens_append_run`).  The run may meet a run
at the end of the first text, and then both are one run; nothing comes of that, because a
run at the end of a text starts no token.  So the cells are those of the two texts as well,
and what the run is made of does not matter.

Putting texts together that way reaches every program.  A token can have any value, nines
followed by one smaller digit (`tokenOf`), and a program is written as the tokens of its cells
with single spaces between them (`written`).
-/

namespace RingTape.Source

/-! ## Two texts with a run between them -/

section Joined

variable {a w b : List Char}

/-- A text, a run and another text are cut where the two texts are cut. -/
theorem Cut.append_run {pieces others : List (List Char)} (ha : Cut a pieces) (hne : a ≠ [])
    (hw : w ≠ []) (hrun : ∀ c ∈ w, Text.isSeparator c = true)
    (hmaximal : ∀ c, b.head? = some c → Text.isSeparator c = false) (hb : Cut b others) :
    Cut (a ++ (w ++ b)) (pieces ++ others) := by
  induction ha with
  | empty => exact absurd rfl hne
  | last _ hpiece => exact .more hpiece hw hrun hmaximal hb
  | @more piece run rest pieces hpiece hne' hrun' hmaximal' hrest ih =>
    rw [List.append_assoc, List.append_assoc]
    by_cases hend : rest = []
    · -- the first text ends with a run, and `w` makes it longer
      have hruns : ∀ c ∈ run ++ w, Text.isSeparator c = true := by
        intro c hc
        rcases List.mem_append.mp hc with hc | hc
        · exact hrun' c hc
        · exact hrun c hc
      have hnone : pieces = [] := by
        rw [hend] at hrest
        rw [← tokens_eq_of_cut hrest, tokens]
      rw [hend, hnone, List.nil_append, ← List.append_assoc run]
      exact .more hpiece (List.append_ne_nil_of_left_ne_nil hne' w) hruns hmaximal hb
    · have hhead : (rest ++ (w ++ b)).head? = rest.head? := List.head?_append_of_ne_nil rest hend
      exact .more hpiece hne' hrun' (hhead ▸ hmaximal') (ih hend)

/-- **The tokens of two texts with a run between them** are those of the first, then those
of the second. -/
theorem tokens_append_run (hne : a ≠ []) (hw : w ≠ [])
    (hrun : ∀ c ∈ w, Text.isSeparator c = true)
    (hmaximal : ∀ c, b.head? = some c → Text.isSeparator c = false) :
    tokens (a ++ (w ++ b)) = tokens a ++ tokens b :=
  tokens_eq_of_cut ((cut_tokens a).append_run hne hw hrun hmaximal (cut_tokens b))

end Joined

section Images

variable {a w b : String}

theorem tokenCells_append_run (hne : a ≠ "") (hw : w ≠ "")
    (hrun : ∀ c ∈ w.toList, Text.isSeparator c = true)
    (hmaximal : ∀ c, b.toList.head? = some c → Text.isSeparator c = false) :
    tokenCells (a ++ w ++ b) = tokenCells a ++ tokenCells b := by
  have ha : a.toList ≠ [] := fun h => hne (String.toList_eq_nil_iff.mp h)
  have hw' : w.toList ≠ [] := fun h => hw (String.toList_eq_nil_iff.mp h)
  rw [tokenCells, String.toList_append, String.toList_append, List.append_assoc,
    tokens_append_run ha hw' hrun hmaximal, List.map_append]
  rfl

theorem emitted_encode (source : String) :
    (encode source).emitted = (tokenCells source).length := by
  rw [encode_eq_ofBytes_tokenCells, Image.emitted_ofBytes]

/-- A program text with no more tokens than the ring has cells is coded token by token. -/
theorem code_encode {source : String} (hfits : (tokenCells source).length ≤ Memory.size) :
    (encode source).code = tokenCells source := by
  rw [encode_eq_ofBytes_tokenCells, Image.code_ofBytes hfits]

/-- **Encoding joins what a run of separators joins.**  For a text that is not empty, a run
of separators and a text that does not start with one, the image of the three in a row has
as many cells as the images of the two texts together; if these fit into the ring, its code
is the code of the first followed by that of the second.  Any other run gives the same
image, however long the texts are. -/
theorem encoding_joins (a w b : String) (hne : a ≠ "") (hw : w ≠ "")
    (hrun : ∀ c ∈ w.toList, Text.isSeparator c = true)
    (hmaximal : ∀ c, b.toList.head? = some c → Text.isSeparator c = false) :
    (encode (a ++ w ++ b)).emitted = (encode a).emitted + (encode b).emitted ∧
      ((encode a).emitted + (encode b).emitted ≤ Memory.size →
        (encode (a ++ w ++ b)).code = (encode a).code ++ (encode b).code) ∧
      ∀ w' : String, w' ≠ "" → (∀ c ∈ w'.toList, Text.isSeparator c = true) →
        encode (a ++ w' ++ b) = encode (a ++ w ++ b) := by
  have hcells := tokenCells_append_run hne hw hrun hmaximal
  have hcount : (tokenCells (a ++ w ++ b)).length =
      (tokenCells a).length + (tokenCells b).length := by
    rw [hcells, List.length_append]
  refine ⟨?_, ?_, ?_⟩
  · rw [emitted_encode, emitted_encode, emitted_encode, hcount]
  · intro hfits
    rw [emitted_encode, emitted_encode] at hfits
    rw [code_encode (by omega), code_encode (by omega), code_encode (by omega), hcells]
  · intro w' hw' hrun'
    rw [encode_eq_ofBytes_tokenCells, encode_eq_ofBytes_tokenCells, hcells,
      tokenCells_append_run hne hw' hrun' hmaximal]

/-- The run meets one at the end of the first text, after a character of two bytes, and the
second text ends with a run. -/
theorem encoding_joins_where_runs_meet :
    (encode ("7é \n" ++ "\t" ++ "19 ")).code = (encode "7é \n").code ++ (encode "19 ").code ∧
      encode ("7é \n" ++ "\x0c\r" ++ "19 ") = encode ("7é \n" ++ "\t" ++ "19 ") := by
  obtain ⟨-, hcode, hruns⟩ := encoding_joins "7é \n" "\t" "19 " (by decide) (by decide)
    (List.all_eq_true.mp rfl) (startsWithRun_eq_false_iff.mp rfl)
  have hfits : (encode "7é \n").emitted + (encode "19 ").emitted ≤ Memory.size := by
    have hfirst : (tokens "7é \n".toList).length = 1 := by cbv
    have hsecond : (tokens "19 ".toList).length = 1 := by cbv
    rw [emitted_encode, emitted_encode, tokenCells, tokenCells, List.length_map, List.length_map,
      hfirst, hsecond]
    decide
  exact ⟨hcode hfits, hruns "\x0c\r" (by decide) (List.all_eq_true.mp rfl)⟩

end Images

/-! ## Writing a program -/

/-- A token of a given value: nines, then one smaller digit for what is left. -/
def tokenOf (value : Nat) : List Char :=
  List.replicate (value / 9) '9' ++ [Nat.digitChar (value % 9)]

/-- A program written as tokens with single spaces between them. -/
def written : List UInt8 → List Char
  | [] => []
  | [cell] => tokenOf cell.toNat
  | cell :: next :: rest => tokenOf cell.toNat ++ ([' '] ++ written (next :: rest))

theorem digitSum_append (bytes others : List UInt8) :
    digitSum (bytes ++ others) = digitSum bytes + digitSum others := by
  simp [digitSum]

theorem digitSum_nines (count : Nat) :
    digitSum (Text.utf8 (List.replicate count '9')) = 9 * count := by
  induction count with
  | zero => rfl
  | succ count ih =>
    have hnine : digitSum (Text.utf8 ['9']) = 9 := by decide
    rw [List.replicate_succ', Text.utf8_append, digitSum_append, ih, hnine]
    omega

theorem digitSum_digitChar : ∀ digit < 9, digitSum (Text.utf8 [Nat.digitChar digit]) = digit := by
  decide

/-- **A token has the value it was made for.** -/
theorem tokenValue_tokenOf (cell : UInt8) : tokenValue (Text.utf8 (tokenOf cell.toNat)) = cell := by
  have hsum : digitSum (Text.utf8 (tokenOf cell.toNat)) = cell.toNat := by
    rw [tokenOf, Text.utf8_append, digitSum_append, digitSum_nines,
      digitSum_digitChar _ (Nat.mod_lt _ (by decide))]
    omega
  have hcell := cell.toNat_lt
  apply UInt8.toNat_inj.mp
  exact (toNat_tally 0 _).trans (by rw [hsum, UInt8.toNat_zero]; omega)

theorem isDigit_digitChar : ∀ digit < 9, (Nat.digitChar digit).isDigit = true := by
  decide

theorem isDigit_of_mem_tokenOf {value : Nat} {c : Char} (hc : c ∈ tokenOf value) :
    c.isDigit = true := by
  rcases List.mem_append.mp hc with hnine | hlast
  · rw [List.eq_of_mem_replicate hnine]
    rfl
  · rw [List.mem_singleton.mp hlast]
    exact isDigit_digitChar _ (Nat.mod_lt _ (by decide))

theorem isSeparator_of_isDigit {c : Char} (h : c.isDigit = true) : Text.isSeparator c = false := by
  by_contra hsep
  simp only [Text.isSeparator, Bool.not_eq_false, Bool.or_eq_true, beq_iff_eq] at hsep
  rcases hsep with (((rfl | rfl) | rfl) | rfl) | rfl <;> exact absurd h (by decide)

theorem tokenOf_plain (value : Nat) : ∀ c ∈ tokenOf value, Text.isSeparator c = false :=
  fun _ hc => isSeparator_of_isDigit (isDigit_of_mem_tokenOf hc)

theorem tokenOf_ne_nil (value : Nat) : tokenOf value ≠ [] :=
  List.append_ne_nil_of_right_ne_nil _ (List.cons_ne_nil _ _)

/-- A program with cells is written with a digit first. -/
theorem head?_written (cell : UInt8) (rest : List UInt8) :
    (written (cell :: rest)).head? = (tokenOf cell.toNat).head? := by
  cases rest with
  | nil => rfl
  | cons next rest => exact List.head?_append_of_ne_nil _ (tokenOf_ne_nil _)

theorem written_maximal (cell : UInt8) (rest : List UInt8) :
    ∀ c, (written (cell :: rest)).head? = some c → Text.isSeparator c = false := by
  intro c hc
  rw [head?_written] at hc
  exact tokenOf_plain _ c (List.mem_of_head? hc)

/-- **A written program is cut into the tokens of its cells.** -/
theorem cut_written (cells : List UInt8) :
    Cut (written cells) (cells.map fun cell => tokenOf cell.toNat) := by
  fun_induction written cells with
  | case1 => exact .empty
  | case2 cell => exact .last (tokenOf_ne_nil _) (tokenOf_plain _)
  | case3 cell next rest ih =>
    exact .more (tokenOf_plain _) (List.cons_ne_nil ' ' []) space_separates
      (written_maximal next rest) ih

/-- A written program is in normal form. -/
theorem collapse_written (cells : List UInt8) : collapse (written cells) = written cells := by
  fun_induction written cells with
  | case1 => rfl
  | case2 cell => exact collapse_of_plain (tokenOf_plain _)
  | case3 cell next rest ih =>
    rw [collapse_of_run (tokenOf_plain _) (List.cons_ne_nil ' ' []) space_separates
      (written_maximal next rest), ih]
    rfl

theorem mem_written {cells : List UInt8} {c : Char} (hc : c ∈ written cells) :
    c.isDigit = true ∨ c = ' ' := by
  fun_induction written cells with
  | case1 => cases hc
  | case2 cell => exact .inl (isDigit_of_mem_tokenOf hc)
  | case3 cell next rest ih =>
    rcases List.mem_append.mp hc with htoken | hrest
    · exact .inl (isDigit_of_mem_tokenOf htoken)
    · rcases List.mem_append.mp hrest with hspace | hrest
      · exact .inr (List.mem_singleton.mp hspace)
      · exact ih hrest

theorem tokenCells_written (cells : List UInt8) :
    tokenCells (String.ofList (written cells)) = cells := by
  rw [tokenCells, String.toList_ofList, tokens_eq_of_cut (cut_written cells), List.map_map]
  exact (List.map_congr_left fun cell _ => tokenValue_tokenOf cell).trans (List.map_id cells)

/-- **Every program can be written.**  For each list of cells, of whatever length, there is
a text of decimal digits and spaces, no two of them adjacent, whose image has the memory,
the number of cells and the start of the tape of the image of the cells. -/
theorem every_program_writable (cells : List UInt8) :
    ∃ source : String,
      (∀ c ∈ source.toList, c.isDigit = true ∨ c = ' ') ∧
      SingleSpaced source.toList ∧
      (encode source).memory = (Image.ofBytes cells).memory ∧
      (encode source).emitted = (Image.ofBytes cells).emitted ∧
      (encode source).tapeStart = (Image.ofBytes cells).tapeStart := by
  have himage : encode (String.ofList (written cells)) = Image.ofBytes cells := by
    rw [encode_eq_ofBytes_tokenCells, tokenCells_written]
  refine ⟨String.ofList (written cells), ?_, ?_, ?_, ?_, ?_⟩
  · rw [String.toList_ofList]
    exact fun c hc => mem_written hc
  · rw [String.toList_ofList, ← collapse_written]
    exact singleSpaced_collapse (written cells)
  all_goals rw [himage]

-- a zero cell is a token like the others
example : written [0, 10, 9] = ['0', ' ', '9', '1', ' ', '9', '0'] := by decide

end RingTape.Source
