import RingTape.Log.Record
import RingTape.Machine.Event
import RingTape.Source
import RingTape.Text.Quoted

/-!
# What is logged

Encoding a program and executing it are silent; this module says which records tell of them.
Encoding is told cell by cell, with a warning when the program has gone round the ring. Of the
events of a machine, dealings with the network are told, and failures to read or send, and the
mistakes of the program; what goes through the console is not.
-/

namespace RingTape.Log

/-- The records that tell of the encoding of a program text. -/
def encodingRecords (source : String) : List Record :=
  ⟨.debug, "normalized source: " ++ Text.quoted (Source.normalize source)⟩ ::
    ((Source.cells source).mapIdx fun i cell =>
      let written : Record :=
        ⟨.debug, "cell " ++ Text.markedAddress (UInt16.ofNat i) ++ " = " ++ Nat.repr cell.toNat⟩
      if i = Memory.size then
        [⟨.warn, "program exceeds " ++ Nat.repr Memory.size ++
            " cells; later tokens overwrite from address 0"⟩, written]
      else [written]).flatten

/-- The record that tells of an encoded program. -/
def encodedRecord (image : Image) : Record :=
  ⟨.debug, "encoded " ++ Nat.repr image.emitted ++ " cells, tape starts at " ++
    Text.markedAddress image.tapeStart⟩

/-- The records that tell of a failure to read. -/
def readingRecords : Reading → List Record
  | .ok _ => []
  | .error fault => [⟨.warn, "read failed, treating as end of input: " ++ fault.message⟩]

variable {Link : Type}

/-- A connection as records name it: its kind before a noun and its peer after it. -/
def connectionPhrase (verb noun : String) (connection : Connection Link) : String :=
  verb ++ " " ++ connection.kind.name ++ " " ++ noun ++ " to " ++ connection.peer

/-- The records that tell of dialling: each failed attempt, then the result. -/
def diallingRecords (outcome : Dialled Link) : List Record :=
  let endpoint := outcome.endpoint.text
  (outcome.failures.map fun (kind, e) =>
    ⟨.debug, kind.name ++ " dial to " ++ endpoint ++ " failed: " ++ e.message⟩) ++
    match outcome.reached with
    | some connection => [⟨.info, "connected to " ++ endpoint ++ " over " ++ connection.kind.name⟩]
    | none => [⟨.debug, outcome.message⟩]

/-- The records that tell of an effect. -/
def effectRecords : Effect Link → List Record
  | .wrote _ _ | .flushed _ => []
  | .read reading => readingRecords reading
  | .sent _ _ (.ok ()) => []
  | .sent connection _ (.error fault) =>
    [⟨.warn, "write to " ++ connection.peer ++ " failed: " ++ fault.message⟩]
  | .received _ reading => readingRecords reading
  | .dialled outcome => diallingRecords outcome
  | .superseded connection =>
    [⟨.debug, connectionPhrase "leaving" "connection" connection ++ " open"⟩]
  | .closed connection fault =>
    ⟨.debug, connectionPhrase "closing" "connection" connection⟩ ::
      match fault with
      | none => []
      | some fault =>
        [⟨.debug, connectionPhrase "shutdown of" "link" connection ++ " failed: " ++ fault.message⟩]

/-- The record of a remark. -/
def remarkRecord : Remark → Record
  | .strayCell cell address =>
    ⟨.debug, "no opcode for cell " ++ Text.markedCell cell ++ " at " ++ Text.markedAddress address⟩
  | .unmatched address direction =>
    ⟨.warn, "no matching bracket for " ++ Text.markedAddress address ++ " (" ++ direction.name ++
      "), continuing"⟩

/-- The records that tell of an event. -/
def eventRecords : Event Link → List Record
  | .effect e => effectRecords e
  | .remark r => [remarkRecord r]

end RingTape.Log
