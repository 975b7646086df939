import RingTape.Memory.Bracket
import RingTape.Network.Dial
import RingTape.Stream.Reader

/-!
# What a machine does to the outside

The events of a step are of two sorts. **Effects** are dealings with the console and with
connections, each with its result: they are all that the outside can notice. **Remarks** note a
program's mistakes for a log and mention addresses and cell values; nothing but the log depends on
them.
-/

namespace RingTape

/-- A dealing of a machine with the outside. -/
inductive Effect (Link : Type) where
  /-- Bytes were offered to the console. -/
  | wrote (bytes : List UInt8) (result : Except Fault Unit)
  /-- The console was flushed. -/
  | flushed (result : Except Fault Unit)
  /-- A byte was read from the console. -/
  | read (reading : Reading)
  /-- A byte was sent over a connection. -/
  | sent (connection : Connection Link) (byte : UInt8) (result : Except Fault Unit)
  /-- A byte was received from a connection. -/
  | received (connection : Connection Link) (reading : Reading)
  /-- An endpoint was dialled. -/
  | dialled (outcome : Dialled Link)
  /-- A connection gave way to a new one and stays open. -/
  | superseded (connection : Connection Link)
  /-- A connection was closed; the fault is that of a failed shutdown. -/
  | closed (connection : Connection Link) (fault : Option Fault)

/-- A note on a program's mistake. -/
inductive Remark where
  /-- A cell that names no instruction was reached. -/
  | strayCell (cell : UInt8) (address : UInt16)
  /-- A bracket has no partner. -/
  | unmatched (address : UInt16) (direction : Direction)
deriving DecidableEq, Repr

/-- An effect or a remark. -/
inductive Event (Link : Type) where
  /-- Something the outside can notice. -/
  | effect (e : Effect Link)
  /-- Something for the log only. -/
  | remark (r : Remark)

namespace Event

variable {Link : Type}

/-- The effect of an event, if it is one. -/
def effect? : Event Link → Option (Effect Link)
  | effect e => some e
  | remark _ => none

end Event

/-- The effects among events, in order. -/
def effectsOf {Link : Type} (events : List (Event Link)) : List (Effect Link) :=
  events.filterMap Event.effect?

end RingTape
