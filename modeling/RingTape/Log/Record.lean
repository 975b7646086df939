import RingTape.Text.Basic

/-!
# Log records

A record is a level and a message. Levels are ordered by rank, a rank above the highest means the
highest, and a record is written if its level is at least the threshold. It is written as one
line: the moment of writing, the level in brackets, and the message. On a terminal with colours
the line stands between control sequences that set and reset the colour of its level.
-/

namespace RingTape.Log

/-- How grave a record is. -/
inductive Level where
  /-- What the program is doing. -/
  | debug
  /-- What the user wants to know. -/
  | info
  /-- What looks wrong. -/
  | warn
  /-- What went wrong. -/
  | error
deriving DecidableEq, Repr

/-- A text that is no level, as it was compared. -/
structure UnknownLevel where
  /-- The trimmed text in lower case. -/
  name : String
deriving DecidableEq, Repr

/-- The wording of an unknown level. -/
def UnknownLevel.message (e : UnknownLevel) : String :=
  "unknown log level '" ++ e.name ++ "'"

namespace Level

/-- The place of a level in the order. -/
def rank : Level → Nat
  | debug => 0
  | info => 1
  | warn => 2
  | error => 3

/-- The level of a rank. -/
def ofRank : Nat → Level
  | 0 => debug
  | 1 => info
  | 2 => warn
  | _ => error

/-- The name of a level. -/
def name : Level → String
  | debug => "DEBUG"
  | info => "INFO"
  | warn => "WARN"
  | error => "ERROR"

/-- Reads the name of a level, without regard to surrounding blanks and ASCII case. `trace` and
`warning` are other names of `debug` and `warn`. -/
def parse (text : String) : Except UnknownLevel Level :=
  let name := Text.lowered (Text.trimmed text)
  if name = "debug" ∨ name = "trace" then .ok debug
  else if name = "info" then .ok info
  else if name = "warn" ∨ name = "warning" then .ok warn
  else if name = "error" then .ok error
  else .error ⟨name⟩

/-- Whether records of a level pass a threshold. -/
def passes (threshold level : Level) : Bool :=
  threshold.rank ≤ level.rank

/-- How the ranks of two levels compare. -/
def compare (a b : Level) : Ordering :=
  Ord.compare a.rank b.rank

end Level

/-- The threshold unless the user sets another. -/
def defaultThreshold : Level := .info

/-- Something to be logged. -/
structure Record where
  /-- How grave it is. -/
  level : Level
  /-- What it says. -/
  message : String
deriving DecidableEq, Repr

/-- The control sequence that resets all colours. -/
def resetColour : String := "\x1b[0m"

/-- The control sequences before a line of a level: reset, then dim or bold, then the colour. -/
def Level.colour : Level → String
  | debug => resetColour ++ "\x1b[2m\x1b[36m"
  | info => resetColour
  | warn => resetColour ++ "\x1b[1m\x1b[33m"
  | error => resetColour ++ "\x1b[1m\x1b[31m"

/-- Whether a terminal is taken to have colours: it has a name, the name is not `dumb`, and the
user has not asked for none. -/
def wantsColour (terminal : Option String) (refused : Bool) : Bool :=
  match terminal with
  | none => false
  | some name => name != "dumb" && !refused

/-- A record as a line. -/
def Record.line (coloured : Bool) (stamp : String) (r : Record) : String :=
  let plain := stamp ++ " [" ++ r.level.name ++ "] " ++ r.message ++ "\n"
  if coloured then r.level.colour ++ plain ++ resetColour else plain

/-- The records that pass a threshold. -/
def passing (threshold : Level) (records : List Record) : List Record :=
  records.filter fun r => threshold.passes r.level

end RingTape.Log
