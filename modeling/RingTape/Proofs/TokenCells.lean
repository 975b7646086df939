import Mathlib.Algebra.GroupWithZero.Nat
import Mathlib.Data.List.TakeWhile
import RingTape.Source

/-!
# The cells of a program are its tokens

A program text is encoded in two passes that know nothing of tokens: one collapses
runs of separators, the other goes through the bytes with a running sum and writes a
cell at each space and at the last byte.  What the two of them come to is said by
cutting the text: `Cut` is that cutting as a relation, piece by piece, and `tokens`
computes it (`cut_iff_eq_tokens`).

A cut text collapses to its pieces with single spaces between them, and after the
last piece if a run stood there.  UTF-8 keeps the pieces apart, because no character
but the space has the byte of a space (`space_not_mem_utf8`); so the scan sums up the
digits of one piece after the other (`scan_of_cut`), whatever it does with the cells
it finds.
-/

namespace RingTape.Source

/-- **Cutting a text** at each maximal run of separators.  A run at the start stands
after an empty piece, and a run at the end before none. -/
inductive Cut : List Char → List (List Char) → Prop where
  /-- The empty text has no pieces. -/
  | empty : Cut [] []
  /-- A text without separators is one piece. -/
  | last {piece : List Char} (hne : piece ≠ []) (hpiece : ∀ c ∈ piece, Text.isSeparator c = false) :
      Cut piece [piece]
  /-- A piece, the whole run after it, and what follows the run. -/
  | more {piece run rest : List Char} {pieces : List (List Char)}
      (hpiece : ∀ c ∈ piece, Text.isSeparator c = false)
      (hne : run ≠ []) (hrun : ∀ c ∈ run, Text.isSeparator c = true)
      (hmaximal : ∀ c, rest.head? = some c → Text.isSeparator c = false)
      (hrest : Cut rest pieces) : Cut (piece ++ (run ++ rest)) (piece :: pieces)

/-! ## Collapsing -/

@[simp] theorem collapse_nil : collapse [] = [] := rfl

theorem collapse_cons_of_not_separator {c : Char} (h : Text.isSeparator c = false)
    (rest : List Char) : collapse (c :: rest) = c :: collapse rest := by
  simp [collapse, h]

theorem collapse_piece_append {piece : List Char}
    (hpiece : ∀ c ∈ piece, Text.isSeparator c = false) (rest : List Char) :
    collapse (piece ++ rest) = piece ++ collapse rest := by
  induction piece with
  | nil => rfl
  | cons c piece ih =>
    rw [List.cons_append, collapse_cons_of_not_separator (hpiece c List.mem_cons_self),
      ih fun d hd => hpiece d (List.mem_cons_of_mem c hd), List.cons_append]

/-- A separator becomes a space unless a space follows it. -/
theorem collapse_cons_of_separator {c : Char} (h : Text.isSeparator c = true) (rest : List Char) :
    collapse (c :: rest) =
      if (collapse rest).head? = some ' ' then collapse rest else ' ' :: collapse rest := by
  unfold collapse
  rw [List.foldr_cons, if_pos h]
  split
  · rename_i hspace
    rw [hspace]
    rfl
  · rename_i hother
    rw [if_neg]
    intro hhead
    obtain ⟨tail, htail⟩ := List.head?_eq_some_iff.mp hhead
    exact hother tail htail

/-- **A run becomes one space.** -/
theorem collapse_run_append {run rest : List Char} (hne : run ≠ [])
    (hrun : ∀ c ∈ run, Text.isSeparator c = true)
    (hmaximal : ∀ c, rest.head? = some c → Text.isSeparator c = false) :
    collapse (run ++ rest) = ' ' :: collapse rest := by
  have hhead : (collapse rest).head? ≠ some ' ' := by
    cases rest with
    | nil => simp
    | cons c rest =>
      have hc := hmaximal c rfl
      rw [collapse_cons_of_not_separator hc]
      intro hspace
      rw [Option.some.inj hspace] at hc
      exact absurd hc (by decide)
  induction run with
  | nil => exact absurd rfl hne
  | cons c run ih =>
    rw [List.cons_append, collapse_cons_of_separator (hrun c List.mem_cons_self)]
    cases run with
    | nil => exact if_neg hhead
    | cons d run =>
      rw [ih (List.cons_ne_nil d run) fun e he => hrun e (List.mem_cons_of_mem c he)]
      rfl

/-- A text without separators is in normal form. -/
theorem collapse_of_plain {piece : List Char} (hpiece : ∀ c ∈ piece, Text.isSeparator c = false) :
    collapse piece = piece := by
  simpa using collapse_piece_append hpiece []

/-- A piece stays, the whole run after it becomes a space, and what follows is collapsed. -/
theorem collapse_of_run {piece run rest : List Char}
    (hpiece : ∀ c ∈ piece, Text.isSeparator c = false) (hne : run ≠ [])
    (hrun : ∀ c ∈ run, Text.isSeparator c = true)
    (hmaximal : ∀ c, rest.head? = some c → Text.isSeparator c = false) :
    collapse (piece ++ (run ++ rest)) = piece ++ ' ' :: collapse rest := by
  rw [collapse_piece_append hpiece, collapse_run_append hne hrun hmaximal]

/-! ## Bytes of a piece -/

theorem space_not_mem_utf8EncodeChar {c : Char} (h : c ≠ ' ') :
    (0x20 : UInt8) ∉ String.utf8EncodeChar c := by
  have hval : c.val.toNat ≠ 0x20 := fun hc => h (Char.ext (UInt32.toNat_inj.mp hc))
  -- a character below 128 is its own byte, and all bytes of the others are at least 128
  fun_cases String.utf8EncodeChar c <;>
    simp only [List.mem_cons, List.not_mem_nil, or_false, ← UInt8.toNat_inj, UInt8.toNat_ofNat',
      UInt8.reduceToNat] <;>
    omega

/-- **No byte of a piece is a space.** -/
theorem space_not_mem_utf8 {piece : List Char}
    (hpiece : ∀ c ∈ piece, Text.isSeparator c = false) : (0x20 : UInt8) ∉ Text.utf8 piece := by
  intro hmem
  obtain ⟨c, hc, hbyte⟩ := List.mem_flatMap.mp hmem
  refine space_not_mem_utf8EncodeChar ?_ hbyte
  rintro rfl
  exact absurd (hpiece ' ' hc) (by decide)

theorem utf8_ne_nil {piece : List Char} (hne : piece ≠ []) : Text.utf8 piece ≠ [] := by
  obtain ⟨c, rest, rfl⟩ := List.exists_cons_of_ne_nil hne
  rw [Text.utf8, List.flatMap_cons]
  exact List.append_ne_nil_of_left_ne_nil String.utf8EncodeChar_ne_nil _

/-! ## Scanning -/

section Scan

variable {Store : Type} (put : Store → UInt8 → Store) (store : Store)

/-- A sum with the digits of some bytes added to it. -/
def tally (sum : UInt8) (bytes : List UInt8) : UInt8 :=
  (bytes.filter isDigitByte).foldl (fun sum b => sum + (b - 0x30)) sum

theorem tally_cons (sum b : UInt8) (bytes : List UInt8) :
    tally sum (b :: bytes) = tally (if isDigitByte b then sum + (b - 0x30) else sum) bytes := by
  cases h : isDigitByte b <;> simp [tally, h]

/-- A scan writes one cell for the bytes up to a space and starts again after it. -/
theorem scan_append_space {bytes : List UInt8} (hbytes : (0x20 : UInt8) ∉ bytes) (sum : UInt8)
    (rest : List UInt8) :
    scan put sum store (bytes ++ 0x20 :: rest) = scan put 0 (put store (tally sum bytes)) rest := by
  induction bytes generalizing sum with
  | nil => rfl
  | cons b bytes ih =>
    have hb : ¬ b = 0x20 := fun h => hbytes (h ▸ List.mem_cons_self)
    rw [List.cons_append, scan, if_neg (by simp [hb]), tally_cons]
    exact ih (fun h => hbytes (List.mem_cons_of_mem b h)) _

/-- A scan writes one cell for bytes that end without a space. -/
theorem scan_last {bytes : List UInt8} (hne : bytes ≠ []) (hbytes : (0x20 : UInt8) ∉ bytes)
    (sum : UInt8) : scan put sum store bytes = put store (tally sum bytes) := by
  induction bytes generalizing sum with
  | nil => exact absurd rfl hne
  | cons b bytes ih =>
    have hb : ¬ b = 0x20 := fun h => hbytes (h ▸ List.mem_cons_self)
    rw [scan, tally_cons]
    cases bytes with
    | nil => rw [if_pos (by simp)]; rfl
    | cons d bytes =>
      rw [if_neg (by simp [hb])]
      exact ih (List.cons_ne_nil d bytes) (fun h => hbytes (List.mem_cons_of_mem b h)) _

/-- **The scan of a cut text** puts the values of the pieces in the store, in order. -/
theorem scan_of_cut {text : List Char} {pieces : List (List Char)} (h : Cut text pieces) :
    scan put 0 store (Text.utf8 (collapse text)) =
      (pieces.map fun piece => tokenValue (Text.utf8 piece)).foldl put store := by
  induction h generalizing store with
  | empty => rfl
  | @last piece hne hpiece =>
    rw [collapse_of_plain hpiece, scan_last put store (utf8_ne_nil hne) (space_not_mem_utf8 hpiece)]
    rfl
  | @more piece run rest pieces hpiece hne hrun hmaximal hrest ih =>
    have hbytes : Text.utf8 (piece ++ ' ' :: collapse rest) =
        Text.utf8 piece ++ 0x20 :: Text.utf8 (collapse rest) := Text.utf8_append piece _
    rw [collapse_of_run hpiece hne hrun hmaximal, hbytes,
      scan_append_space put store (space_not_mem_utf8 hpiece), ih]
    rfl

end Scan

/-! ## Tokens -/

/-- The first token is the text up to the first separator; the others are those of what
follows the run there. -/
theorem tokens_of_ne_nil {text : List Char} (hne : text ≠ []) :
    tokens text = text.takeWhile (fun c => !Text.isSeparator c) ::
      tokens ((text.dropWhile fun c => !Text.isSeparator c).dropWhile Text.isSeparator) := by
  obtain ⟨c, rest, rfl⟩ := List.exists_cons_of_ne_nil hne
  rw [tokens]

theorem dropWhile_of_head {rest : List Char}
    (hmaximal : ∀ c, rest.head? = some c → Text.isSeparator c = false) :
    rest.dropWhile Text.isSeparator = rest := by
  cases rest with
  | nil => rfl
  | cons c rest => rw [List.dropWhile_cons_of_neg (by simp [hmaximal c rfl])]

/-- A text can be cut in one way only. -/
theorem tokens_eq_of_cut {text : List Char} {pieces : List (List Char)} (h : Cut text pieces) :
    tokens text = pieces := by
  induction h with
  | empty => rw [tokens]
  | @last piece hne hpiece =>
    have hall : ∀ c ∈ piece, (!Text.isSeparator c) = true := fun c hc => by simp [hpiece c hc]
    rw [tokens_of_ne_nil hne, List.takeWhile_eq_self_iff.mpr hall,
      List.dropWhile_eq_nil_iff.mpr hall, List.dropWhile_nil, tokens]
  | @more piece run rest pieces hpiece hne hrun hmaximal hrest ih =>
    have hall : ∀ c ∈ piece, (!Text.isSeparator c) = true := fun c hc => by simp [hpiece c hc]
    have htake : (run ++ rest).takeWhile (fun c => !Text.isSeparator c) = [] := by
      obtain ⟨c, run, rfl⟩ := List.exists_cons_of_ne_nil hne
      rw [List.cons_append, List.takeWhile_cons_of_neg (by simp [hrun c List.mem_cons_self])]
    have hdrop : (run ++ rest).dropWhile (fun c => !Text.isSeparator c) = run ++ rest := by
      obtain ⟨c, run, rfl⟩ := List.exists_cons_of_ne_nil hne
      rw [List.cons_append, List.dropWhile_cons_of_neg (by simp [hrun c List.mem_cons_self])]
    rw [tokens_of_ne_nil (by simp [hne]), List.takeWhile_append_of_pos hall,
      List.dropWhile_append_of_pos hall, htake, hdrop, List.dropWhile_append_of_pos hrun,
      dropWhile_of_head hmaximal, ih, List.append_nil]

/-- **Every text is cut into its tokens.** -/
theorem cut_tokens (text : List Char) : Cut text (tokens text) := by
  fun_induction tokens text with
  | case1 => exact .empty
  | case2 c rest ih =>
    have hpiece : ∀ d ∈ (c :: rest).takeWhile (fun x => !Text.isSeparator x),
        Text.isSeparator d = false := by
      intro d hd
      simpa using List.mem_takeWhile_imp hd
    have hsplit : (c :: rest).takeWhile (fun x => !Text.isSeparator x) ++
        (c :: rest).dropWhile (fun x => !Text.isSeparator x) = c :: rest :=
      List.takeWhile_append_dropWhile
    cases htail : (c :: rest).dropWhile fun x => !Text.isSeparator x with
    | nil =>
      rw [htail, List.append_nil] at hsplit
      rw [hsplit] at hpiece ⊢
      rw [List.dropWhile_nil, tokens]
      exact .last (List.cons_ne_nil c rest) hpiece
    | cons d tail =>
      -- the run starts at `d`, where the first token stopped
      have hd : Text.isSeparator d = true := by
        have hnot := List.head?_dropWhile_not (fun x => !Text.isSeparator x) (c :: rest)
        rw [htail] at hnot
        simpa using hnot
      have hrun : (d :: tail).takeWhile Text.isSeparator ++
          (d :: tail).dropWhile Text.isSeparator = d :: tail := List.takeWhile_append_dropWhile
      have hne : (d :: tail).takeWhile Text.isSeparator ≠ [] := by
        rw [List.takeWhile_cons_of_pos hd]
        exact List.cons_ne_nil _ _
      have hmaximal : ∀ e, ((d :: tail).dropWhile Text.isSeparator).head? = some e →
          Text.isSeparator e = false := by
        intro e he
        have hnot := List.head?_dropWhile_not Text.isSeparator (d :: tail)
        rw [he] at hnot
        exact hnot
      have hcut := Cut.more hpiece hne (fun e he => List.mem_takeWhile_imp he) hmaximal (htail ▸ ih)
      rw [hrun, ← htail, hsplit, htail] at hcut
      exact hcut

/-- `tokens` is the one way to cut a text. -/
theorem cut_iff_eq_tokens {text : List Char} {pieces : List (List Char)} :
    Cut text pieces ↔ pieces = tokens text :=
  ⟨fun h => (tokens_eq_of_cut h).symm, fun h => h ▸ cut_tokens text⟩

-- a vertical tab and a no-break space do not separate
example : tokens " \t1 1\x0b9\u00a0\r\n".toList =
    [[], ['1'], ['1', '\x0b', '9', '\u00a0']] := by cbv

/-! ## Values and images -/

/-- The sum of the decimal digits among some bytes. -/
def digitSum (bytes : List UInt8) : Nat :=
  ((bytes.filter isDigitByte).map fun b => b.toNat - 0x30).sum

theorem toNat_sub_of_isDigitByte {b : UInt8} (h : isDigitByte b = true) :
    (b - 0x30).toNat = b.toNat - 0x30 := by
  rw [isDigitByte, Bool.and_eq_true, decide_eq_true_eq, decide_eq_true_eq] at h
  exact UInt8.toNat_sub_of_le b 0x30 h.1

/-- Sums go round at 256 and nothing else is lost. -/
theorem toNat_tally (sum : UInt8) (bytes : List UInt8) :
    (tally sum bytes).toNat = (sum.toNat + digitSum bytes) % 256 := by
  induction bytes generalizing sum with
  | nil =>
    have hsum := sum.toNat_lt
    exact (Nat.mod_eq_of_lt hsum).symm
  | cons b bytes ih =>
    rw [tally_cons, ih]
    cases h : isDigitByte b with
    | false => simp [digitSum, h]
    | true =>
      simp only [digitSum, h, List.filter_cons_of_pos, List.map_cons, List.sum_cons, if_true,
        UInt8.toNat_add, toNat_sub_of_isDigitByte h]
      omega

/-- The values of the tokens of a text, in order. -/
def tokenCells (source : String) : List UInt8 :=
  (tokens source.toList).map fun token => tokenValue (Text.utf8 token)

/-- **The image of a program text** is that of the values of its tokens. -/
theorem encode_eq_ofBytes_tokenCells (source : String) :
    encode source = Image.ofBytes (tokenCells source) :=
  scan_of_cut Image.push Image.empty (cut_tokens source.toList)

/-- **Encoding is cutting into tokens.**  For every program text, of whatever length, the
image has the memory, the number of cells and the start of the tape of the image whose
cells are the token values; the tokens are the one way to cut the text at its maximal
runs of separators, there is one cell for each, and the value of a token is the sum of
its digits modulo 256. -/
theorem encode_token_reference (source : String) :
    (encode source).memory = (Image.ofBytes (tokenCells source)).memory ∧
      (encode source).emitted = (Image.ofBytes (tokenCells source)).emitted ∧
      (encode source).emitted = (tokens source.toList).length ∧
      (encode source).tapeStart = (Image.ofBytes (tokenCells source)).tapeStart ∧
      (∀ pieces, Cut source.toList pieces ↔ pieces = tokens source.toList) ∧
      ∀ token, (tokenValue token).toNat = digitSum token % 256 := by
  rw [encode_eq_ofBytes_tokenCells]
  refine ⟨rfl, rfl, ?_, rfl, fun pieces => cut_iff_eq_tokens, fun token => ?_⟩
  · rw [Image.emitted_ofBytes, tokenCells, List.length_map]
  · exact (toNat_tally 0 token).trans (by rw [UInt8.toNat_zero, Nat.zero_add])

end RingTape.Source
