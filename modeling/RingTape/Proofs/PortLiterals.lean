import RingTape.Network.Endpoint
import RingTape.Proofs.Numerals

/-!
# Port literals

The literal of an endpoint may be any text.  It is read as a port or as a protocol number,
and these readings differ in their bound and in the error alone (`literalNumber`).  A
reading gives the value of the literal if it is a numeral within the bound, and else the
error that holds the literal as it is.  So what is a protocol number is a port of the same
value, and there is a socket address exactly if there is a port.

The literal of six cells is made of the numerals of the last two.  It is a numeral itself
(`digits_literal`), and the digits of the last cell move the value of the one before it.
-/

namespace RingTape.Endpoint

open Text

/-! ## Both readings -/

/-- A literal as a number within a bound. -/
def literalNumber (bound : Nat) (error : LiteralError) (literal : String) :
    Except LiteralError Nat :=
  match numeral? bound literal with
  | some value => .ok value
  | none => .error error

variable {bound value : Nat} {error other : LiteralError} {literal : String} {e : Endpoint}

theorem literalNumber_eq_ok_iff : literalNumber bound error literal = .ok value ↔
    Numeral value literal.toList ∧ value ≤ bound := by
  rw [← numeral?_eq_some_iff, literalNumber]
  cases numeral? bound literal <;> simp

theorem literalNumber_eq_error_iff : literalNumber bound error literal = .error other ↔
    other = error ∧ ¬ ∃ value, Numeral value literal.toList ∧ value ≤ bound := by
  rw [← numeral?_eq_none_iff, literalNumber]
  cases numeral? bound literal <;> simp [eq_comm]

theorem port_eq (e : Endpoint) :
    e.port = literalNumber 65535 (.invalidPort e.literal) e.literal := by
  unfold port literalNumber
  rfl

theorem protocol_eq (e : Endpoint) :
    e.protocol = literalNumber 255 (.invalidProtocol e.literal) e.literal := by
  unfold protocol literalNumber
  rfl

theorem port_eq_ok_iff : e.port = .ok value ↔ Numeral value e.literal.toList ∧ value ≤ 65535 := by
  rw [port_eq, literalNumber_eq_ok_iff]

theorem protocol_eq_ok_iff :
    e.protocol = .ok value ↔ Numeral value e.literal.toList ∧ value ≤ 255 := by
  rw [protocol_eq, literalNumber_eq_ok_iff]

theorem protocol_eq_ok_iff_port : e.protocol = .ok value ↔ e.port = .ok value ∧ value ≤ 255 := by
  rw [protocol_eq_ok_iff, port_eq_ok_iff]
  constructor
  · rintro ⟨hnumeral, hle⟩
    exact ⟨⟨hnumeral, by omega⟩, hle⟩
  · rintro ⟨⟨hnumeral, -⟩, hle⟩
    exact ⟨hnumeral, hle⟩

theorem socketAddress_eq_ok_iff {address : String} : e.socketAddress = .ok address ↔
    ∃ value, e.port = .ok value ∧ address = e.host.text ++ ":" ++ Nat.repr value := by
  rw [socketAddress]
  cases e.port <;> simp [eq_comm]

theorem socketAddress_eq_error_iff : e.socketAddress = .error error ↔ e.port = .error error := by
  rw [socketAddress]
  cases e.port <;> simp

/-! ## Literals of cells -/

/-- The value of the numerals of two cells, one after the other. -/
def joinedValue (high low : UInt8) : Nat :=
  high.toNat * 10 ^ (Nat.toDigits 10 low.toNat).length + low.toNat

variable (a b c d high low : UInt8)

theorem digits_literal :
    Digits (joinedValue high low) (ofCells a b c d high low).literal.toList := by
  rw [ofCells, String.toList_append, Nat.toList_repr, Nat.toList_repr]
  exact (digits_toDigits _).append (digits_toDigits _)

/-- **The literal of cells is read as its value**, if that is within the bound. -/
theorem literalNumber_ofCells : literalNumber bound error (ofCells a b c d high low).literal =
    if joinedValue high low ≤ bound then .ok (joinedValue high low) else .error error := by
  have hdigits := digits_literal a b c d high low
  split
  · rename_i hle
    exact literalNumber_eq_ok_iff.mpr ⟨.plain hdigits, hle⟩
  · rename_i hgreater
    refine literalNumber_eq_error_iff.mpr ⟨rfl, ?_⟩
    rintro ⟨value, hnumeral, hle⟩
    rw [hnumeral.unique (.plain hdigits)] at hle
    exact hgreater hle

/-- **What a port literal is read as.**  The port of an endpoint is the value of its literal,
if that is one or more ASCII digits after at most one plus sign and the value is at most
65535; any other literal is an invalid port, and the error holds it unchanged.  Protocol
numbers are read in the same way with the bound 255, so they are the ports up to 255.  There
is a socket address exactly if there is a port, and the errors are the same.  The literal
of six cells has the value of the fifth, moved by as many places as the sixth has digits,
plus that of the sixth. -/
theorem literals_read_exactly (e : Endpoint) :
    (∀ value, e.port = .ok value ↔ Numeral value e.literal.toList ∧ value ≤ 65535) ∧
    (∀ error, e.port = .error error ↔ error = .invalidPort e.literal ∧
      ¬ ∃ value, Numeral value e.literal.toList ∧ value ≤ 65535) ∧
    (∀ value, e.protocol = .ok value ↔ Numeral value e.literal.toList ∧ value ≤ 255) ∧
    (∀ error, e.protocol = .error error ↔ error = .invalidProtocol e.literal ∧
      ¬ ∃ value, Numeral value e.literal.toList ∧ value ≤ 255) ∧
    (∀ value, e.protocol = .ok value ↔ e.port = .ok value ∧ value ≤ 255) ∧
    (∀ address, e.socketAddress = .ok address ↔
      ∃ value, e.port = .ok value ∧ address = e.host.text ++ ":" ++ Nat.repr value) ∧
    (∀ error, e.socketAddress = .error error ↔ e.port = .error error) ∧
    ∀ a b c d high low : UInt8,
      let value := high.toNat * 10 ^ (Nat.toDigits 10 low.toNat).length + low.toNat
      let cells := ofCells a b c d high low
      cells.port = (if value ≤ 65535 then .ok value else .error (.invalidPort cells.literal)) ∧
      cells.protocol =
        if value ≤ 255 then .ok value else .error (.invalidProtocol cells.literal) := by
  refine ⟨fun _ => port_eq_ok_iff, ?_, fun _ => protocol_eq_ok_iff, ?_,
    fun _ => protocol_eq_ok_iff_port, fun _ => socketAddress_eq_ok_iff,
    fun _ => socketAddress_eq_error_iff, ?_⟩
  · intro error
    rw [port_eq, literalNumber_eq_error_iff]
  · intro error
    rw [protocol_eq, literalNumber_eq_error_iff]
  · intro a b c d high low value cells
    rw [port_eq, protocol_eq]
    exact ⟨literalNumber_ofCells a b c d high low, literalNumber_ofCells a b c d high low⟩

-- leading zeros add nothing, a sign alone is no numeral, and overflow is decided by the value
example : Endpoint.port ⟨⟨10, 0, 0, 1⟩, "+00065535"⟩ = .ok 65535 ∧
    Endpoint.port ⟨⟨10, 0, 0, 1⟩, "65536"⟩ = .error (.invalidPort "65536") ∧
    Endpoint.port ⟨⟨10, 0, 0, 1⟩, "+"⟩ = .error (.invalidPort "+") ∧
    (ofCells 10 0 0 1 0 7).protocol = .ok 7 := ⟨rfl, rfl, rfl, rfl⟩

end RingTape.Endpoint
