import RingTape.Network.Dial

/-!
# Settings of a machine

With the default settings a machine tries every kind of transport in the usual order, waits as
long as it takes, runs without a limit, and reads zeros at the end of its input.
-/

namespace RingTape

/-- What reading does at the end of the input. -/
inductive EndPolicy where
  /-- Puts zero in the current cell. -/
  | zero
  /-- Leaves the current cell as it is. -/
  | keep
  /-- Stops the machine. -/
  | halt
deriving DecidableEq, Repr

/-- A text that is no policy, as it was compared. -/
structure UnknownPolicy where
  /-- The text in lower case. -/
  name : String
deriving DecidableEq, Repr

/-- The wording of an unknown policy. -/
def UnknownPolicy.message (e : UnknownPolicy) : String :=
  "unknown end-of-input policy '" ++ e.name ++ "'"

namespace EndPolicy

/-- The name of a policy. -/
def name : EndPolicy → String
  | zero => "zero"
  | keep => "keep"
  | halt => "halt"

/-- Reads the name of a policy in any ASCII case. Blanks are not trimmed. -/
def parse (text : String) : Except UnknownPolicy EndPolicy :=
  let name := Text.lowered text
  if name = "zero" then .ok zero
  else if name = "keep" then .ok keep
  else if name = "halt" then .ok halt
  else .error ⟨name⟩

end EndPolicy

/-- The settings of a machine, which never change while it runs. -/
structure Settings where
  /-- The kinds of transport to try, in order. -/
  transports : List Transport := Transport.defaultOrder
  /-- The limits on connections. -/
  dial : DialOptions := {}
  /-- The number of steps after which a run stops, if there is one. -/
  maxSteps : Option UInt64 := none
  /-- What reading does at the end of the input. -/
  onEnd : EndPolicy := .zero
deriving DecidableEq, Repr

end RingTape
