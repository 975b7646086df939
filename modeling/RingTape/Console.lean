import RingTape.Stream.Reader
import RingTape.Stream.Sink
import RingTape.Text.Basic

/-!
# The console

A machine without a connection reads from and writes to its console: one byte in, one byte out,
and free text for the fixed messages. Reading does not flush; whoever prompts has to flush first.
-/

namespace RingTape

/-- A pair of streams. -/
structure Console where
  /-- Where bytes come from. -/
  input : Reader
  /-- Where bytes go. -/
  output : Sink

namespace Console

/-- A console that has not been used. -/
def new (script : List Response) (rules : SinkRules) : Console :=
  ⟨Reader.ofScript script, Sink.ofRules rules⟩

/-- Reads one byte. -/
def readByte (c : Console) : Reading × Console :=
  let (reading, input) := c.input.readOne
  (reading, { c with input := input })

/-- Writes bytes. -/
def write (c : Console) (bytes : List UInt8) : Except Fault Unit × Console :=
  let (result, output) := c.output.writeAll bytes
  (result, { c with output := output })

/-- Writes one byte. -/
def writeByte (c : Console) (byte : UInt8) : Except Fault Unit × Console :=
  c.write [byte]

/-- Writes a text in UTF-8. -/
def writeText (c : Console) (text : String) : Except Fault Unit × Console :=
  c.write (Text.utf8 text.toList)

/-- Passes on what was written. -/
def flush (c : Console) : Except Fault Unit × Console :=
  let (result, output) := c.output.flush
  (result, { c with output := output })

end Console

end RingTape
