import RingTape.Fault

/-!
# Reading byte by byte

A reader answers one request after another. An answer may be an interruption, which says nothing
about the stream and only asks for the request to be repeated; every other answer is final. A
reader is given by the answers it still has to make; once they are used up it reports the end of
the stream for ever, so repeated requests always come to a final answer.
-/

namespace RingTape

/-- The answer to one request for a byte. -/
inductive Response where
  /-- No bytes: the stream has ended. -/
  | ended
  /-- The request was interrupted. -/
  | interrupted
  /-- The request failed. -/
  | failed (fault : Fault)
  /-- A byte was stored and a number of bytes reported. -/
  | stored (byte : UInt8) (count : Nat)
deriving DecidableEq, Repr

/-- What reading one byte comes to: the byte, nothing at the end of the stream, or a fault. -/
abbrev Reading := Except Fault (Option UInt8)

namespace Response

/-- What an answer says about the stream, unless it is an interruption. A byte counts only if at
least one byte was reported. -/
def reading? : Response → Option Reading
  | ended => some (.ok none)
  | interrupted => none
  | failed fault => some (.error fault)
  | stored byte count => some (.ok (if count = 0 then none else some byte))

end Response

/-- A stream to read from. -/
structure Reader where
  /-- The answers still to come; after them the stream has ended. -/
  script : List Response
  /-- The number of requests made so far. -/
  requests : Nat

namespace Reader

/-- A reader that has not been asked yet. -/
def ofScript (script : List Response) : Reader :=
  ⟨script, 0⟩

/-- A reader that gives the bytes in order and then ends. -/
def ofBytes (bytes : List UInt8) : Reader :=
  ofScript (bytes.map fun byte => .stored byte 1)

/-- Asks until there is a final answer, given the requests made before. -/
def ask : (script : List Response) → (requests : Nat) → Reading × Reader
  | [], requests => (.ok none, ⟨[], requests + 1⟩)
  | response :: rest, requests =>
    match response.reading? with
    | some reading => (reading, ⟨rest, requests + 1⟩)
    | none => ask rest (requests + 1)

/-- **Reads one byte**, repeating interrupted requests. -/
def readOne (r : Reader) : Reading × Reader :=
  ask r.script r.requests

/-- A reader with one more answer at the end of its script. -/
def feed (r : Reader) (response : Response) : Reader :=
  { r with script := r.script ++ [response] }

/-- An interrupted request is repeated. -/
@[simp]
theorem readOne_interrupted (rest : List Response) (requests : Nat) :
    readOne ⟨.interrupted :: rest, requests⟩ = readOne ⟨rest, requests + 1⟩ :=
  rfl

/-- Any other answer ends the reading and is used up by it. -/
theorem readOne_of_reading {response : Response} {reading : Reading}
    (h : response.reading? = some reading) (rest : List Response) (requests : Nat) :
    readOne ⟨response :: rest, requests⟩ = (reading, ⟨rest, requests + 1⟩) := by
  simp [readOne, ask, h]

end Reader

end RingTape
