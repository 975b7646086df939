import RingTape.Profile
import RingTape.Rounding
import RingTape.Text.Number

/-!
# The profile as a table

The table has a row for each instruction that was executed, in the order of their codes, a row
for unknown cells if there were any, and a row for the total, between and below two rules. Names
stand at the left and counts, grouped in thousands, at the right of columns that are as wide as
their widest entry; each row ends with its share of the total in percent.
-/

namespace RingTape.Profile

/-- A row of the table: a name and a count. -/
structure Row where
  /-- What was counted. -/
  name : String
  /-- How often. -/
  count : UInt64

/-- The rows above the total: the slots that are not zero. -/
def rows (p : Profile) : List Row :=
  (Opcode.all.map fun op => Row.mk op.mnemonic (p.count op)).filter (·.count != 0) ++
    if p.unknown = 0 then [] else [⟨"unknown", p.unknown⟩]

/-- The row of the total. -/
def totalRow (p : Profile) : Row :=
  ⟨"total", p.total⟩

/-- The widths of the two leading columns. -/
structure Layout where
  /-- The width of the column of names. -/
  nameWidth : Nat
  /-- The width of the column of counts. -/
  countWidth : Nat

/-- The layout of a table: two more columns than the longest name, and room for the longest
count. -/
def layout (p : Profile) : Layout :=
  let all := p.totalRow :: p.rows
  { nameWidth := 2 + (all.map fun row => row.name.length).foldl max 0
    countWidth := (all.map fun row => (Text.grouped row.count.toNat).length).foldl max 0 }

/-- The share of a count in percent with one decimal: the rounded ratio to the total, times one
hundred. -/
def share (count total : UInt64) : String :=
  if total = 0 then "0.0"
  else
    let ratio := (Ratio.ofNat count.toNat).div (Ratio.ofNat total.toNat)
    (ratio.mul (Ratio.ofNat 100)).oneDecimal

/-- A line of the table. -/
def line (layout : Layout) (row : Row) (share : String) : String :=
  Text.alignLeft layout.nameWidth row.name ++ " " ++
    Text.alignRight layout.countWidth (Text.grouped row.count.toNat) ++
    " (" ++ Text.alignRight 5 share ++ "%)\n"

/-- A rule across the table: two characters wider than a line whose share has five. -/
def rule (layout : Layout) : String :=
  String.ofList (List.replicate (layout.nameWidth + 1 + layout.countWidth + 2 + 9) '-') ++ "\n"

/-- **The table of a profile.** -/
def table (p : Profile) : String :=
  let layout := p.layout
  "Opcode Profile:\n" ++ rule layout ++
    String.join (p.rows.map fun row => line layout row (share row.count p.total)) ++
    rule layout ++ line layout p.totalRow "100.0"

end RingTape.Profile
