import Mathlib.Data.List.Forall2
import Mathlib.Data.List.Nodup
import RingTape.Profile.Table
import RingTape.Proofs.Accounting
import RingTape.Proofs.ThousandsGroups
import RingTape.Text.Basic

/-!
# A profile can be read from its table

The columns of a table are as wide as what stands in them, so they differ from profile to
profile, and slots that are zero have no row.  `Tabulates` says line by line what a table
shows: between two rules a row for each slot that is not zero, in the order of the slots,
and then the total.  A line that shows a count (`EntryShown`) is a name, spaces, the count
in groups of three digits and a share in brackets.  All counts of a table end at one column,
because each column has room for its widest entry (`length_name_le`, `length_count_le`).

`readTable?` reads such a text without knowing the widths: a name ends at the first space,
and the count is the next word.  A slot that has no row is zero, and since no two slots
have one name, nothing of the profile is lost.
-/

namespace RingTape.Profile

open Text

/-! ## Lines that show a count -/

/-- **A line that shows a count**, which ends at the column `edge`: a name, one or more
spaces, the count in groups of three digits, and a share in brackets. -/
inductive EntryShown (edge : Nat) (name : String) (count : Nat) : List Char → Prop where
  | entry {gap : Nat} {field share : List Char} (hgap : 0 < gap)
      (hfield : InThousands count field) (hedge : name.length + gap + field.length = edge)
      (hshare : '\n' ∉ share) :
      EntryShown edge name count (name.toList ++ (List.replicate gap ' ' ++
        (field ++ ' ' :: '(' :: (share ++ ['%', ')']))))

/-- Reads the name and the count of a line. -/
def readEntry? (line : List Char) : Option (String × Nat) :=
  let rest := (line.dropWhile (· != ' ')).dropWhile (· == ' ')
  (readGrouped? (rest.takeWhile (· != ' '))).map fun count =>
    (String.ofList (line.takeWhile (· != ' ')), count)

section Entries

variable {edge count : Nat} {name : String} {line word rest : List Char}

section Until

variable {α : Type} [BEq α] [LawfulBEq α] {stop : α} {before : List α}

theorem bne_of_not_mem (h : stop ∉ before) : ∀ x ∈ before, (x != stop) = true :=
  fun _ hx => bne_iff_ne.mpr fun heq => h (heq ▸ hx)

theorem takeWhile_until (h : stop ∉ before) (after : List α) :
    (before ++ stop :: after).takeWhile (· != stop) = before := by
  rw [List.takeWhile_append_of_pos (bne_of_not_mem h)]
  simp

theorem dropWhile_until (h : stop ∉ before) (after : List α) :
    (before ++ stop :: after).dropWhile (· != stop) = stop :: after := by
  rw [List.dropWhile_append_of_pos (bne_of_not_mem h)]
  simp

end Until

/-- Spaces end at the next word. -/
theorem dropWhile_gap (gap : Nat) (h : ' ' ∉ word) (hne : word ≠ []) :
    (List.replicate gap ' ' ++ (word ++ rest)).dropWhile (· == ' ') = word ++ rest := by
  obtain ⟨c, tail, rfl⟩ := List.exists_cons_of_ne_nil hne
  have hc : (c == ' ') = false := beq_eq_false_iff_ne.mpr fun heq => h (by simp [heq])
  rw [List.dropWhile_append_of_pos (by simp), List.cons_append, List.dropWhile_cons_of_neg]
  simp [hc]

theorem not_mem_of_isAlpha {c : Char} (hc : c.isAlpha = false)
    (h : ∀ c ∈ name.toList, c.isAlpha = true) : c ∉ name.toList := by
  intro hmem
  rw [h c hmem] at hc
  contradiction

/-- **A line is read as what it shows**, if the name is a word. -/
theorem EntryShown.readEntry?_eq (h : EntryShown edge name count line)
    (hname : ∀ c ∈ name.toList, c.isAlpha = true) : readEntry? line = some (name, count) := by
  cases h with
  | @entry gap field share hgap hfield hedge hshare =>
    obtain ⟨gap, rfl⟩ := Nat.exists_eq_add_of_lt hgap
    have hspace : ' ' ∉ name.toList := not_mem_of_isAlpha (by decide) hname
    have hcount : ' ' ∉ field := hfield.not_mem (by decide) (by decide)
    -- the first space ends the name, and the count comes after the last of them
    rw [Nat.zero_add, List.replicate_succ, List.cons_append, readEntry?, takeWhile_until hspace,
      dropWhile_until hspace, ← List.cons_append, ← List.replicate_succ,
      dropWhile_gap _ hcount hfield.ne_nil, takeWhile_until hcount]
    simp [hfield.readGrouped?_eq]

example : readEntry? "WRT       1,234 ( 75.0%)".toList = some ("WRT", 1234) := by decide

theorem EntryShown.newline_not_mem (h : EntryShown edge name count line)
    (hname : ∀ c ∈ name.toList, c.isAlpha = true) : '\n' ∉ line := by
  cases h with
  | @entry gap field share hgap hfield hedge hshare =>
    have hword : '\n' ∉ name.toList := not_mem_of_isAlpha (by decide) hname
    have hcount : '\n' ∉ field := hfield.not_mem (by decide) (by decide)
    simp [hword, hshare, hcount]

/-- A line that shows a count is no rule. -/
theorem EntryShown.space_mem (h : EntryShown edge name count line) : ' ' ∈ line := by
  cases h with
  | entry hgap hfield hedge hshare =>
    refine List.mem_append_right _ (List.mem_append_left _ ?_)
    exact List.mem_replicate.mpr ⟨Nat.pos_iff_ne_zero.mp hgap, rfl⟩

end Entries

/-! ## The layout of a table -/

/-- What a slot is called in a table. -/
def slotName : Option Opcode → String
  | some op => op.mnemonic
  | none => "unknown"

/-- The slots that are not zero, in their order. -/
def used (p : Profile) : List (Option Opcode) :=
  decodings.filter fun slot => p.get slot ≠ 0

/-- The sum of all slots. -/
def sum (p : Profile) : Nat :=
  (decodings.map fun slot => (p.get slot).toNat).sum

/-- What stands above a table. -/
def heading : List Char :=
  "Opcode Profile:".toList

/-- A rule across a table whose counts end at a given column. -/
def dashes (edge : Nat) : List Char :=
  List.replicate (edge + 11) '-'

/-- The lines of a table: a heading, the rows between two rules, and a last line. -/
def tableLines (edge : Nat) (rows : List (List Char)) (last : List Char) : List (List Char) :=
  heading :: dashes edge :: (rows ++ [dashes edge, last])

/-- **What a table shows of a profile.**  All its counts end at one column. -/
structure Tabulates (p : Profile) (edge : Nat) (rows : List (List Char)) (last : List Char) :
    Prop where
  /-- There is a row for each slot that is not zero, in the order of the slots. -/
  rows : List.Forall₂ (fun slot => EntryShown edge (slotName slot) (p.get slot).toNat) p.used rows
  /-- The last line shows the sum of all slots, as far as it can be counted. -/
  total : EntryShown edge "total" (min p.sum (2 ^ 64 - 1)) last

/-! ## Reading a table -/

/-- The profile with given counts. -/
def ofSlots (count : Option Opcode → UInt64) : Profile :=
  ⟨⟨(decodings.map count).toArray, by simp [decodings, Opcode.all]⟩⟩

/-- The profile with the counts of a list; a slot that is not named there is zero. -/
def ofEntries (entries : List (String × Nat)) : Profile :=
  ofSlots fun slot => UInt64.ofNat ((entries.lookup (slotName slot)).getD 0)

/-- Reads a table: the profile that its rows show, and the total. -/
def readTable? (text : String) : Option (Profile × Nat) :=
  match text.toList.splitOn '\n' with
  | title :: rule :: lines =>
    match lines.dropWhile (· != rule) with
    | [_, last, []] =>
      if title = heading ∧ rule.all (· == '-') then do
        let entries ← (lines.takeWhile (· != rule)).mapM readEntry?
        let (name, total) ← readEntry? last
        if name = "total" then some (ofEntries entries, total) else none
      else none
    | _ => none
  | _ => none

theorem mem_decodings (slot : Option Opcode) : slot ∈ decodings :=
  List.count_pos_iff.mp (by rw [count_decodings]; exact Nat.one_pos)

theorem mem_used {p : Profile} {slot : Option Opcode} : slot ∈ p.used ↔ p.get slot ≠ 0 := by
  rw [used, List.mem_filter, decide_eq_true_iff]
  exact and_iff_right (mem_decodings slot)

theorem ofSlots_get (p : Profile) : ofSlots p.get = p := by
  have hcounts : (ofSlots p.get).counts = p.counts :=
    Vector.toList_inj.mp p.toList_counts.symm
  obtain ⟨counts⟩ := p
  exact congrArg Profile.mk hcounts

theorem slotName_injective : Function.Injective slotName := by
  intro a b hname
  have hnodup : (decodings.map slotName).Nodup := by decide
  exact List.inj_on_of_nodup_map hnodup (mem_decodings a) (mem_decodings b) hname

theorem isAlpha_slotName (slot : Option Opcode) :
    ∀ c ∈ (slotName slot).toList, c.isAlpha = true := by
  apply List.all_eq_true.mp
  rcases slot with _ | op
  · decide
  · cases op <;> decide

theorem isAlpha_total : ∀ c ∈ "total".toList, c.isAlpha = true :=
  List.all_eq_true.mp (by decide)

/-- A slot is found by its name. -/
theorem lookup_slotName (count : Option Opcode → Nat) (slots : List (Option Opcode))
    (slot : Option Opcode) :
    (slots.map fun other => (slotName other, count other)).lookup (slotName slot) =
      if slot ∈ slots then some (count slot) else none := by
  induction slots with
  | nil => rfl
  | cons other slots ih =>
    rw [List.map_cons, List.lookup_cons]
    by_cases hslot : slot = other
    · subst hslot
      simp
    · have hname : (slotName slot == slotName other) = false :=
        beq_eq_false_iff_ne.mpr fun heq => hslot (slotName_injective heq)
      rw [hname, ih]
      simp [hslot]

/-- **The slots that are not zero make up the profile.** -/
theorem ofEntries_used (p : Profile) :
    ofEntries (p.used.map fun slot => (slotName slot, (p.get slot).toNat)) = p := by
  rw [ofEntries]
  refine Eq.trans (congrArg ofSlots (funext fun slot => ?_)) p.ofSlots_get
  rw [lookup_slotName fun slot => (p.get slot).toNat]
  by_cases hzero : p.get slot = 0
  · rw [if_neg fun hmem => mem_used.mp hmem hzero, hzero]
    rfl
  · rw [if_pos (mem_used.mpr hzero), Option.getD_some, UInt64.ofNat_toNat]

section Tables

variable {p : Profile} {edge : Nat} {rows : List (List Char)} {last : List Char}

namespace Tabulates

/-- The name and the count of each row are read back. -/
theorem map_readEntry? (h : Tabulates p edge rows last) :
    rows.map readEntry? = p.used.map fun slot => some (slotName slot, (p.get slot).toNat) := by
  apply Eq.symm
  rw [← List.forall₂_eq_eq_eq, List.forall₂_map_left_iff, List.forall₂_map_right_iff]
  exact h.rows.imp fun slot line hshown => (hshown.readEntry?_eq (isAlpha_slotName slot)).symm

theorem exists_entry (h : Tabulates p edge rows last) :
    ∀ line ∈ rows, ∃ slot, EntryShown edge (slotName slot) (p.get slot).toNat line := by
  intro line hline
  obtain ⟨i, hi, rfl⟩ := List.mem_iff_getElem.mp hline
  exact ⟨_, (List.forall₂_iff_get.mp h.rows).2 i (h.rows.length_eq ▸ hi) hi⟩

theorem dashes_not_mem (h : Tabulates p edge rows last) : dashes edge ∉ rows := by
  intro hmem
  obtain ⟨slot, hshown⟩ := h.exists_entry _ hmem
  exact absurd (List.mem_replicate.mp hshown.space_mem).2 (by decide)

theorem newline_not_mem (h : Tabulates p edge rows last) :
    ∀ line ∈ tableLines edge rows last, '\n' ∉ line := by
  have hdashes : '\n' ∉ dashes edge := fun hmem =>
    absurd (List.mem_replicate.mp hmem).2 (by decide)
  have hlast := h.total.newline_not_mem isAlpha_total
  have hrows : ∀ line ∈ rows, '\n' ∉ line := by
    intro line hline
    obtain ⟨slot, hshown⟩ := h.exists_entry line hline
    exact hshown.newline_not_mem (isAlpha_slotName slot)
  have hheading : '\n' ∉ heading := by decide
  simpa [tableLines, or_imp, forall_and, hheading, hdashes, hlast] using hrows

end Tabulates

/-- **A table is read as what it shows.** -/
theorem readTable?_of_tabulates {text : String} (h : Tabulates p edge rows last)
    (htext : text.toList = (tableLines edge rows last).flatMap fun line => line ++ ['\n']) :
    readTable? text = some (p, min p.sum (2 ^ 64 - 1)) := by
  have hsplit : text.toList.splitOn '\n' =
      heading :: dashes edge :: (rows ++ dashes edge :: [last, []]) := by
    rw [htext, splitOn_ended h.newline_not_mem]
    simp [tableLines]
  have hentries : rows.mapM readEntry? =
      some (p.used.map fun slot => (slotName slot, (p.get slot).toNat)) := by
    have hmap : rows.mapM readEntry? = (rows.map readEntry?).mapM id := by
      rw [List.mapM_map]
      rfl
    rw [hmap, h.map_readEntry?, List.mapM_map]
    exact List.mapM_pure
  have hdashes : (dashes edge).all (· == '-') = true :=
    List.all_eq_true.mpr fun c hc => beq_iff_eq.mpr (List.mem_replicate.mp hc).2
  have htotal := h.total.readEntry?_eq isAlpha_total
  rw [readTable?, hsplit]
  dsimp only
  rw [dropWhile_until h.dashes_not_mem, takeWhile_until h.dashes_not_mem]
  dsimp only
  rw [if_pos ⟨rfl, hdashes⟩, hentries, htotal]
  simp [ofEntries_used]

end Tables

/-! ## Writing a table -/

theorem le_foldl_max {n : Nat} {ns : List Nat} (h : n ∈ ns) : n ≤ ns.foldl max 0 := by
  rw [List.foldl_max_eq_max (List.ne_nil_of_mem h)]
  exact Nat.le_trans (List.le_max_of_mem h) (Nat.le_max_right _ _)

/-- The rows of a table are those of the slots that are not zero. -/
theorem rows_eq (p : Profile) :
    p.rows = p.used.map fun slot => ⟨slotName slot, p.get slot⟩ := by
  rw [rows, used, decodings, List.filter_append, List.map_append, List.filter_map,
    List.filter_map, List.map_map]
  congr 1
  · have hused :
        ((fun row : Row => row.count != 0) ∘ fun op => Row.mk op.mnemonic (p.count op)) =
          (fun slot => decide (p.get slot ≠ 0)) ∘ some := by
      funext op
      simp [count, bne, beq_eq_decide]
    rw [hused]
    rfl
  · by_cases hzero : p.unknown = 0
    · rw [if_pos hzero, List.filter_cons_of_neg (by simpa [unknown] using hzero)]
      rfl
    · rw [if_neg hzero, List.filter_cons_of_pos (by simpa [unknown] using hzero)]
      rfl

/-- The column at which the counts of a table end. -/
def edge (p : Profile) : Nat :=
  p.layout.nameWidth + 1 + p.layout.countWidth

/-- A line of a table, without the line feed. -/
def lineText (layout : Layout) (row : Row) (share : String) : List Char :=
  row.name.toList ++
    (List.replicate (layout.nameWidth - row.name.length + 1 +
        (layout.countWidth - (grouped row.count.toNat).length)) ' ' ++
      ((grouped row.count.toNat).toList ++
        ' ' :: '(' :: ((alignRight 5 share).toList ++ ['%', ')'])))

theorem toList_line (layout : Layout) (row : Row) (share : String) :
    (line layout row share).toList = lineText layout row share ++ ['\n'] := by
  have hgap (a b : Nat) : List.replicate (a + 1 + b) ' ' =
      List.replicate a ' ' ++ ' ' :: List.replicate b ' ' := by
    rw [← List.replicate_append_replicate, List.replicate_succ', List.append_assoc]
    rfl
  simp [line, lineText, alignLeft, alignRight, spaces, hgap]

theorem toList_rule (p : Profile) : (rule p.layout).toList = dashes p.edge ++ ['\n'] := by
  simp [rule, dashes, edge]

section Written

variable {p : Profile} {row : Row}

theorem length_name_le (h : row ∈ p.totalRow :: p.rows) :
    row.name.length ≤ p.layout.nameWidth := by
  have hwidest := le_foldl_max (List.mem_map.mpr ⟨row, h, rfl⟩ :
    row.name.length ∈ (p.totalRow :: p.rows).map fun row => row.name.length)
  exact Nat.le_trans hwidest (Nat.le_add_left _ 2)

theorem length_count_le (h : row ∈ p.totalRow :: p.rows) :
    (grouped row.count.toNat).length ≤ p.layout.countWidth :=
  le_foldl_max (List.mem_map.mpr ⟨row, h, rfl⟩)

/-- **The count of every line ends at the edge**, since its columns have room for it. -/
theorem entryShown_lineText (h : row ∈ p.totalRow :: p.rows) {share : String}
    (hshare : '\n' ∉ share.toList) :
    EntryShown p.edge row.name row.count.toNat (lineText p.layout row share) := by
  have hname := length_name_le h
  have hcount := length_count_le h
  refine .entry (by omega) (inThousands_grouped _) ?_ ?_
  · rw [edge, String.length_toList]
    omega
  · simp [alignRight, spaces, hshare]

end Written

theorem newline_not_mem_share (count total : UInt64) : '\n' ∉ (share count total).toList := by
  have hnumeral (n : Nat) : '\n' ∉ Nat.toDigits 10 n := not_mem_toDigits (by decide) n
  rw [share]
  split
  · decide
  · simp [Ratio.oneDecimal, hnumeral]

/-- The rows of a table, without their line feeds. -/
def rowLines (p : Profile) : List (List Char) :=
  p.rows.map fun row => lineText p.layout row (share row.count p.total)

/-- The line of the total, without its line feed. -/
def lastLine (p : Profile) : List Char :=
  lineText p.layout p.totalRow "100.0"

/-- The table of a profile, line by line. -/
theorem toList_table (p : Profile) : p.table.toList =
    (tableLines p.edge p.rowLines p.lastLine).flatMap fun line => line ++ ['\n'] := by
  have hheading : "Opcode Profile:\n".toList = heading ++ ['\n'] := by decide
  unfold table
  simp only [String.toList_append, String.toList_join, toList_rule, toList_line, hheading,
    tableLines, rowLines, lastLine, List.flatMap_cons, List.flatMap_append, List.flatMap_map,
    List.flatMap_nil, List.append_nil, List.append_assoc]

/-- **The table of a profile shows that profile.** -/
theorem tabulates_table (p : Profile) : Tabulates p p.edge p.rowLines p.lastLine where
  rows := by
    rw [rowLines, rows_eq, List.map_map, List.forall₂_map_right_iff, List.forall₂_same]
    intro slot hslot
    have hrow : Row.mk (slotName slot) (p.get slot) ∈ p.totalRow :: p.rows := by
      rw [rows_eq]
      exact List.mem_cons_of_mem _ (List.mem_map.mpr ⟨slot, hslot, rfl⟩)
    exact entryShown_lineText hrow (newline_not_mem_share _ _)
  total := by
    have htotal : p.total.toNat = min p.sum (2 ^ 64 - 1) := p.toNat_total
    rw [← htotal]
    exact entryShown_lineText List.mem_cons_self (by decide)

/-- **A table is faithful to its profile.**  It has a heading and then, between two rules,
a row for each slot that is not zero, in the order of the instructions and with unknown
cells last; a line for the total follows.  In all these lines the count ends at the same
column.  The name and the count of each row are read back as the slot and its exact
count, and the last line as the sum of all slots or the largest count, if that is less.
Reading the whole table gives back the profile, so profiles with one table are the same. -/
theorem table_faithful (p : Profile) :
    (∃ edge rows last, Tabulates p edge rows last ∧
      p.table.toList = (tableLines edge rows last).flatMap (fun line => line ++ ['\n']) ∧
      rows.map readEntry? = p.used.map (fun slot => some (slotName slot, (p.get slot).toNat)) ∧
      readEntry? last = some ("total", min p.sum (2 ^ 64 - 1))) ∧
    readTable? p.table = some (p, min p.sum (2 ^ 64 - 1)) ∧
    ∀ other : Profile, other.table = p.table ↔ other = p := by
  have hread (p : Profile) : readTable? p.table = some (p, min p.sum (2 ^ 64 - 1)) :=
    readTable?_of_tabulates p.tabulates_table p.toList_table
  refine ⟨⟨_, _, _, p.tabulates_table, p.toList_table, p.tabulates_table.map_readEntry?,
    p.tabulates_table.total.readEntry?_eq isAlpha_total⟩, hread p, ?_⟩
  intro other
  constructor
  · intro hsame
    have hpair : some (other, min other.sum (2 ^ 64 - 1)) = some (p, min p.sum (2 ^ 64 - 1)) := by
      rw [← hread other, hsame, hread p]
    exact congrArg Prod.fst (Option.some.inj hpair)
  · exact fun heq => congrArg table heq

end RingTape.Profile
