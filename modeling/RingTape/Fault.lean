/-!
# Faults and failures

What can go wrong when bytes are moved or a connection is made, as causes. The wording of every
cause is in one place, `Fault.message`; where the operating system has a number for the cause, the
wording carries it. The list of causes is open: a cause that the library does not know by name is
known by its wording.

A request to the library can fail as a whole in three ways: a byte that should be an instruction
is none, the console cannot be written, or a program text cannot be read. A `Failure` says which,
and with which fault.
-/

namespace RingTape

/-- Causes of a failed transfer or a failed connection. -/
inductive Fault where
  /-- A transfer took longer than it may. -/
  | timedOut
  /-- A transfer would have had to wait. -/
  | wouldBlock
  /-- A stream is defective. -/
  | broken
  /-- A sink has no room left. -/
  | sinkFull
  /-- A sink accepted nothing although it was offered something. -/
  | shortWrite
  /-- A sink no longer takes what was buffered for it. -/
  | closed
  /-- Nothing arrived on a link in the time allowed. -/
  | unavailable
  /-- The other side of a link is gone. -/
  | brokenPipe
  /-- The caller may not do this. -/
  | notPermitted
  /-- There is no such file. -/
  | notFound
  /-- A path goes through something that is not a directory. -/
  | notDirectory
  /-- A directory was read as a file. -/
  | isDirectory
  /-- The bytes of a text are not UTF-8. -/
  | invalidText
  /-- The socket at a path is of another kind. -/
  | wrongSocketType
  /-- The protocol is not available. -/
  | protocolNotSupported
  /-- There is no route to the address. -/
  | networkUnreachable
  /-- Nobody listens at the address. -/
  | connectionRefused
  /-- The path of a socket is too long. -/
  | pathTooLong
  /-- A timeout of zero was asked for. -/
  | zeroTimeout
  /-- Any other cause, by its wording. -/
  | other (wording : String)
deriving DecidableEq, Repr

namespace Fault

/-- The wording of a fault. -/
def message : Fault → String
  | timedOut => "timed out"
  | wouldBlock => "operation would block"
  | broken => "broken"
  | sinkFull => "sink full"
  | shortWrite => "failed to write whole buffer"
  | closed => "closed"
  | unavailable => "Resource temporarily unavailable (os error 11)"
  | brokenPipe => "Broken pipe (os error 32)"
  | notPermitted => "Operation not permitted (os error 1)"
  | notFound => "No such file or directory (os error 2)"
  | notDirectory => "Not a directory (os error 20)"
  | isDirectory => "Is a directory (os error 21)"
  | invalidText => "stream did not contain valid UTF-8"
  | wrongSocketType => "Protocol wrong type for socket (os error 91)"
  | protocolNotSupported => "Protocol not supported (os error 93)"
  | networkUnreachable => "Network is unreachable (os error 101)"
  | connectionRefused => "Connection refused (os error 111)"
  | pathTooLong => "path must be shorter than SUN_LEN"
  | zeroTimeout => "cannot set a 0 duration timeout"
  | other wording => wording

end Fault

/-- Why a request failed as a whole. -/
inductive Failure where
  /-- A value is not the code of an instruction. -/
  | invalidOpcode (value : UInt8)
  /-- The console could not be written or flushed. -/
  | output (fault : Fault)
  /-- A program text could not be read. -/
  | source (path : String) (fault : Fault)
deriving DecidableEq, Repr

/-- The wording of a failure. -/
def Failure.message : Failure → String
  | invalidOpcode value => "invalid opcode: " ++ Nat.repr value.toNat
  | output fault => "host output failed: " ++ fault.message
  | source path fault => "io error: " ++ path ++ ": " ++ fault.message

end RingTape
