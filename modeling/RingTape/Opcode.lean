import RingTape.Fault

/-!
# Instructions

A cell is an instruction by its low four bits; the high four bits are ignored. Eleven of the
sixteen values name an instruction and the other five name none. Four instructions are followed
by an operand cell; the rest stand alone.
-/

namespace RingTape

/-- The instructions of the machine. -/
inductive Opcode where
  /-- Does nothing. -/
  | nop
  /-- Puts the current cell on the output. -/
  | write
  /-- Fills the current cell from the input. -/
  | read
  /-- Opens a loop: skips past its closing bracket if the current cell is zero. -/
  | opening
  /-- Closes a loop: goes back past its opening bracket if the current cell is not zero. -/
  | closing
  /-- Moves the head toward higher addresses. -/
  | forward
  /-- Moves the head toward lower addresses. -/
  | backward
  /-- Adds to the current cell. -/
  | increment
  /-- Subtracts from the current cell. -/
  | decrement
  /-- Connects to the endpoint written on the tape. -/
  | connect
  /-- Ends the program. -/
  | finish
deriving DecidableEq, Repr

namespace Opcode

/-- Every instruction, in the order of their codes. -/
def all : List Opcode :=
  [nop, write, read, opening, closing, forward, backward, increment, decrement, connect, finish]

/-- The place of an instruction in `all`. -/
def index : Opcode → Fin 11
  | nop => 0
  | write => 1
  | read => 2
  | opening => 3
  | closing => 4
  | forward => 5
  | backward => 6
  | increment => 7
  | decrement => 8
  | connect => 9
  | finish => 10

/-- The cell value that names the instruction and has no high bits. -/
def code : Opcode → UInt8
  | nop => 0
  | write => 1
  | read => 2
  | opening => 3
  | closing => 4
  | forward => 5
  | backward => 6
  | increment => 7
  | decrement => 8
  | connect => 9
  | finish => 10

/-- The instruction with a given code, if the value is one. -/
def ofCode? (value : UInt8) : Option Opcode :=
  match value.toNat with
  | 0 => some nop
  | 1 => some write
  | 2 => some read
  | 3 => some opening
  | 4 => some closing
  | 5 => some forward
  | 6 => some backward
  | 7 => some increment
  | 8 => some decrement
  | 9 => some connect
  | 10 => some finish
  | _ => none

/-- The instruction with a given code. Unlike a cell, a code may have no high bits. -/
def ofCode (value : UInt8) : Except Failure Opcode :=
  match ofCode? value with
  | some op => .ok op
  | none => .error (.invalidOpcode value)

/-- **The meaning of a cell.** Only the low four bits count. -/
def decode (cell : UInt8) : Option Opcode :=
  ofCode? (cell &&& 0x0f)

/-- Whether a cell names a given instruction, found by comparing bits without decoding. -/
@[inline]
def isNamedBy (op : Opcode) (cell : UInt8) : Bool :=
  cell &&& 0x0f == op.code

/-- The three-letter name, or two letters where the word is shorter. -/
def mnemonic : Opcode → String
  | nop => "NOP"
  | write => "WRT"
  | read => "RD"
  | opening => "IF"
  | closing => "EIF"
  | forward => "FWD"
  | backward => "BAK"
  | increment => "INC"
  | decrement => "DEC"
  | connect => "CON"
  | finish => "END"

/-- The number of operand cells after the instruction. -/
def operandCount : Opcode → Nat
  | forward | backward | increment | decrement => 1
  | _ => 0

/-- The number of cells that the instruction takes up. -/
def width (op : Opcode) : UInt16 :=
  UInt16.ofNat (1 + op.operandCount)

/-- A code names its own instruction. -/
@[simp]
theorem ofCode?_code (op : Opcode) : ofCode? op.code = some op := by
  cases op <;> rfl

/-- The code of an instruction is a cell of that instruction. -/
@[simp]
theorem decode_code (op : Opcode) : decode op.code = some op := by
  cases op <;> rfl

/-- Only the code of an instruction names it exactly. -/
theorem ofCode?_eq_some_iff {value : UInt8} {op : Opcode} :
    ofCode? value = some op ↔ value = op.code := by
  constructor
  · intro h
    apply UInt8.toNat_inj.mp
    unfold ofCode? at h
    split at h <;> cases h <;> simp_all [code]
  · rintro rfl
    exact ofCode?_code op

/-- Comparing bits finds the same instructions as decoding. -/
theorem isNamedBy_iff {op : Opcode} {cell : UInt8} :
    op.isNamedBy cell = true ↔ decode cell = some op := by
  rw [isNamedBy, beq_iff_eq, decode, ofCode?_eq_some_iff]

/-- Cells with the same low four bits mean the same. -/
theorem decode_eq_of_low_bits {a b : UInt8} (h : a &&& 0x0f = b &&& 0x0f) :
    decode a = decode b := by
  rw [decode, decode, h]

end Opcode

end RingTape
