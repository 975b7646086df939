import RingTape.Memory
import RingTape.Text.Number

/-!
# Endpoints

Six consecutive cells describe an endpoint: four octets of an address, and two cells whose decimal
numerals are written one after the other to form the port literal. The literal is kept as text
because each kind of transport reads it in its own way: as a port, as a protocol number, or as
part of a path.
-/

namespace RingTape

/-- An IPv4 address. -/
structure HostAddress where
  /-- The first octet. -/
  a : UInt8
  /-- The second octet. -/
  b : UInt8
  /-- The third octet. -/
  c : UInt8
  /-- The fourth octet. -/
  d : UInt8
deriving DecidableEq, Repr

namespace HostAddress

/-- The four octets in decimal, with points between them. -/
def text (host : HostAddress) : String :=
  Nat.repr host.a.toNat ++ "." ++ Nat.repr host.b.toNat ++ "." ++ Nat.repr host.c.toNat ++ "." ++
    Nat.repr host.d.toNat

/-- Whether the address stays on this machine. The address with all octets zero does. -/
def isLoopback (host : HostAddress) : Bool :=
  host.a == 127 || host == ⟨0, 0, 0, 0⟩

end HostAddress

/-- Where a machine connects to. -/
structure Endpoint where
  /-- The address. -/
  host : HostAddress
  /-- The port literal, which may be any text. -/
  literal : String
deriving DecidableEq, Repr

/-- Why a port literal has no number. -/
inductive LiteralError where
  /-- The literal is not a port. -/
  | invalidPort (literal : String)
  /-- The literal is not a protocol number. -/
  | invalidProtocol (literal : String)
deriving DecidableEq, Repr

/-- The wording of a bad literal. -/
def LiteralError.message : LiteralError → String
  | invalidPort literal => "invalid port literal '" ++ literal ++ "'"
  | invalidProtocol literal => "invalid protocol number '" ++ literal ++ "'"

namespace Endpoint

/-- The endpoint that six cells describe. -/
def ofCells (a b c d high low : UInt8) : Endpoint :=
  ⟨⟨a, b, c, d⟩, Nat.repr high.toNat ++ Nat.repr low.toNat⟩

/-- The endpoint described by the six cells from an address on. -/
def ofMemory (m : Memory) (start : UInt16) : Endpoint :=
  ofCells (m.get start) (m.get (start + 1)) (m.get (start + 2)) (m.get (start + 3))
    (m.get (start + 4)) (m.get (start + 5))

/-- The endpoint as text: address, colon, literal. -/
def text (e : Endpoint) : String :=
  e.host.text ++ ":" ++ e.literal

/-- The path that local transports connect to, which is the whole text. -/
def path (e : Endpoint) : String :=
  e.text

/-- The literal as a port. -/
def port (e : Endpoint) : Except LiteralError Nat :=
  match Text.numeral? (UInt16.size - 1) e.literal with
  | some n => .ok n
  | none => .error (.invalidPort e.literal)

/-- The literal as a protocol number. -/
def protocol (e : Endpoint) : Except LiteralError Nat :=
  match Text.numeral? (UInt8.size - 1) e.literal with
  | some n => .ok n
  | none => .error (.invalidProtocol e.literal)

/-- The address with a numeric port, which has no leading zeros and no sign. -/
def socketAddress (e : Endpoint) : Except LiteralError String :=
  match e.port with
  | .ok n => .ok (e.host.text ++ ":" ++ Nat.repr n)
  | .error err => .error err

end Endpoint

end RingTape
