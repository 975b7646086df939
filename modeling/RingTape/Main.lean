import RingTape.Calendar
import RingTape.Command.Program
import RingTape.Network.Peers
import Std.Time.DateTime.Timestamp

/-!
# The executable

The outer layer of the command. It hands the arguments, the environment and the program file to
the plan of the command, takes the turns of the machine one by one, and moves bytes between the
machine's console and the standard streams: a byte is read only when the machine is about to read
one, and output is passed on after each turn. There are no sockets behind it, so every endpoint is
out of reach.
-/

namespace RingTape.Main

/-- The network of the executable, which has no peers. -/
def net : Network PeerWorld Nat := PeerWorld.network

/-- The date and time of day now. -/
def now : IO String := do
  let moment ← Std.Time.Timestamp.now
  let seconds := moment.val.second.val.toNat
  return timestamp (UInt64.ofNat seconds) (moment.val.nano.val.toNat / 1000000)

/-- Writes diagnostic output. -/
def report (coloured : Bool) (diagnostics : List Command.Diagnostic) : IO Unit := do
  let stderr ← IO.getStderr
  for diagnostic in diagnostics do
    stderr.putStr (diagnostic.render coloured (← now))

/-- The fault with a number of the operating system, among those of reading a file. The number may
come with its sign changed. -/
def faultOfNumber (number : UInt32) : Fault :=
  let number := if number < 0x80000000 then number else 0 - number
  if number = 20 then .notDirectory
  else if number = 21 then .isDirectory
  else .notFound

/-- The cause of a failure to read a file. -/
def faultOf : IO.Error → Fault
  | .noFileOrDirectory _ _ _ => .notFound
  | .inappropriateType _ number _ => faultOfNumber number
  | e => .other (toString e)

/-- The bytes of a file. -/
def readProgram (path : String) : IO (Except Fault (List UInt8)) := do
  try
    let bytes ← IO.FS.readBinFile path
    return .ok bytes.toList
  catch e =>
    return .error (faultOf e)

/-- Whether the machine is about to read from its console and has nothing to read. -/
def awaitsInput (m : Machine PeerWorld Nat) : Bool :=
  !m.limitReached && m.active.isNone && m.console.input.script.isEmpty &&
    Opcode.decode (m.memory.get m.pc) == some .read

/-- Gives the machine a byte of standard input if it is about to read one. -/
def supply (m : Machine PeerWorld Nat) : IO (Machine PeerWorld Nat) := do
  if awaitsInput m then
    (← IO.getStdout).flush
    let bytes ← (← IO.getStdin).read 1
    let response := match bytes.toList with
      | byte :: _ => Response.stored byte 1
      | [] => .ended
    return { m with console := { m.console with input := m.console.input.feed response } }
  else
    return m

/-- Passes on what the machine wrote and tells of what it did. -/
def present (coloured : Bool) (threshold : Log.Level) (m : Machine PeerWorld Nat)
    (events : List (Event Nat)) : IO (Machine PeerWorld Nat) := do
  let output := m.console.output
  unless output.stored.isEmpty do
    (← IO.getStdout).write ⟨output.stored⟩
  report coloured (Command.logged threshold (events.flatMap Log.eventRecords))
  return { m with console := { m.console with output := { output with stored := #[] } } }

/-- Says what is left to say after a run. -/
def conclude (coloured : Bool) (threshold : Log.Level) (options : Command.Options)
    (ending : Ending) (m : Machine PeerWorld Nat) : IO UInt32 := do
  let (exit, diagnostics) := Command.conclude options threshold ending m.steps m.profile
  report coloured diagnostics
  return exit.toUInt32

/-- Takes turns until the machine stops. -/
partial def drive (coloured : Bool) (threshold : Log.Level) (options : Command.Options)
    (m : Machine PeerWorld Nat) : IO UInt32 := do
  let turn := (← supply m).turn net false
  let m ← present coloured threshold turn.machine turn.events
  match turn.outcome with
  | .continued => drive coloured threshold options m
  | .halted reason =>
    let last := m.finish net reason
    let m ← present coloured threshold last.machine last.events.toList
    (← IO.getStdout).flush
    conclude coloured threshold options last.ending m
  | .failed failure => conclude coloured threshold options (.failed failure) m

/-- Carries out the command with the given arguments. -/
def command (arguments : List String) : IO UInt32 := do
  let coloured := Log.wantsColour (← IO.getEnv "TERM") (← IO.getEnv "NO_COLOR").isSome
  let program := (← IO.appPath).fileName.getD "digitape"
  let content ← match Command.Options.parse arguments with
    | .ok { source := .file path, .. } => readProgram path
    | _ => pure (.error .notFound)
  let plan := Command.plan
    { program := program
      arguments := arguments
      logVariable := ← IO.getEnv Command.logVariableName
      files := fun _ => content }
  match plan with
  | .answer exit output diagnostics =>
    report coloured diagnostics
    (← IO.getStdout).putStr output
    return exit.toUInt32
  | .execute options threshold image diagnostics =>
    report coloured diagnostics
    drive coloured threshold options
      (Command.machine options image [] (PeerWorld.ofPeers .isolated []))

end RingTape.Main

/-- Runs the command. -/
def main (arguments : List String) : IO UInt32 :=
  RingTape.Main.command arguments
