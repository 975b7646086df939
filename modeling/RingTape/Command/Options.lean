import RingTape.Machine.Settings

/-!
# Command-line options

An argument list is read from left to right in groups. Some options take the next argument as
their value, whatever it looks like; others stand alone; anything else that does not look like an
option is the path of the program. An option that is repeated counts with its last value, but
there must be exactly one program. The first group that cannot be read, or that names a second
program, decides the error. The usage message explains all this to the user.
-/

namespace RingTape.Command

/-- Where the program text comes from. -/
inductive ProgramSource where
  /-- A file with the given path. -/
  | file (path : String)
  /-- The given text itself. -/
  | inline (text : String)
deriving DecidableEq, Repr

/-- What the arguments ask for. -/
structure Options where
  /-- The program. -/
  source : ProgramSource
  /-- The settings of the machine. -/
  settings : Settings
  /-- Whether to print the encoded program instead of running it. -/
  dump : Bool
  /-- Whether to print the profile after the run. -/
  profile : Bool
  /-- Whether to log everything. -/
  verbose : Bool
deriving DecidableEq, Repr

/-- Why arguments cannot be read. -/
inductive UsageError where
  /-- An option is the last argument and lacks its value. -/
  | missingValue (flag : String)
  /-- A transport in a list is unknown. -/
  | unknownTransport (error : UnknownTransport)
  /-- A list of transports is blank. -/
  | noTransports
  /-- A duration is not a number of milliseconds. -/
  | badDuration (flag text : String)
  /-- A limit on steps is not a number. -/
  | badStepCount (text : String)
  /-- A policy is unknown. -/
  | unknownPolicy (error : UnknownPolicy)
  /-- An argument looks like an option and is none. -/
  | unexpected (argument : String)
  /-- There are two programs. -/
  | secondProgram
  /-- There is no program. -/
  | noProgram
deriving DecidableEq, Repr

/-- The wording of a usage error. -/
def UsageError.message : UsageError → String
  | missingValue flag => flag ++ " requires an argument"
  | unknownTransport error => error.message
  | noTransports => "--transports needs at least one kind"
  | badDuration flag text => flag ++ " expects milliseconds, got '" ++ text ++ "'"
  | badStepCount text => "Invalid step count: " ++ text
  | unknownPolicy error => error.message
  | unexpected argument => "Unexpected argument: " ++ argument
  | secondProgram => "Only one program may be given"
  | noProgram => "No program given"

/-- What one group of arguments asks for. -/
inductive Group where
  /-- Names the program. -/
  | program (source : ProgramSource)
  /-- Sets the order of transports. -/
  | transports (order : List Transport)
  /-- Bounds the time for connecting. -/
  | connectTimeout (timeout : Duration)
  /-- Bounds the time for transfers. -/
  | transferTimeout (timeout : Duration)
  /-- Limits the steps. -/
  | maxSteps (limit : UInt64)
  /-- Sets the policy at the end of the input. -/
  | onEnd (policy : EndPolicy)
  /-- Asks for the encoded program. -/
  | dump
  /-- Asks for the profile. -/
  | profile
  /-- Asks to log everything. -/
  | verbose
deriving DecidableEq, Repr

/-- Reads a 64-bit number. -/
def wideNumeral? (text : String) : Option Nat :=
  Text.numeral? (UInt64.size - 1) text

/-- Reads a list of transports, which may not be blank. -/
def transportsGroup (text : String) : Except UsageError Group :=
  match Transport.parseOrder text with
  | .error e => .error (.unknownTransport e)
  | .ok [] => .error .noTransports
  | .ok order => .ok (.transports order)

/-- Reads a duration given to a flag, in milliseconds. -/
def durationGroup (flag : String) (group : Duration → Group) (text : String) :
    Except UsageError Group :=
  match wideNumeral? text with
  | some millis => .ok (group (.ofMillis millis))
  | none => .error (.badDuration flag text)

/-- Reads a limit on steps. -/
def stepsGroup (text : String) : Except UsageError Group :=
  match wideNumeral? text with
  | some limit => .ok (.maxSteps (UInt64.ofNat limit))
  | none => .error (.badStepCount text)

/-- Reads a policy. -/
def policyGroup (text : String) : Except UsageError Group :=
  match EndPolicy.parse text with
  | .ok policy => .ok (.onEnd policy)
  | .error e => .error (.unknownPolicy e)

/-- How the value of an option is read, if the argument is an option with a value. -/
def valueReader? (flag : String) : Option (String → Except UsageError Group) :=
  if flag = "-e" ∨ flag = "--eval" then some fun text => .ok (.program (.inline text))
  else if flag = "--transports" then some transportsGroup
  else if flag = "--connect-timeout" then some (durationGroup flag .connectTimeout)
  else if flag = "--io-timeout" then some (durationGroup flag .transferTimeout)
  else if flag = "--max-steps" then some stepsGroup
  else if flag = "--on-eof" then some policyGroup
  else none

/-- Whether an argument looks like an option: a dash and something after it. -/
def looksLikeOption (argument : String) : Bool :=
  match argument.toList with
  | '-' :: _ :: _ => true
  | _ => false

/-- Reads an argument that takes no value. -/
def plainGroup (argument : String) : Except UsageError Group :=
  if argument = "--dump" then .ok .dump
  else if argument = "--profile" then .ok .profile
  else if argument = "-v" ∨ argument = "--verbose" then .ok .verbose
  else if looksLikeOption argument then .error (.unexpected argument)
  else .ok (.program (.file argument))

/-- Options under construction: the program may still be missing. -/
structure Draft where
  /-- The program, once it is named. -/
  source : Option ProgramSource := none
  /-- The settings so far. -/
  settings : Settings := {}
  /-- Whether the encoded program was asked for. -/
  dump : Bool := false
  /-- Whether the profile was asked for. -/
  profile : Bool := false
  /-- Whether to log everything. -/
  verbose : Bool := false

namespace Draft

/-- Takes a group into account. Only a second program is refused. -/
def add (draft : Draft) : Group → Except UsageError Draft
  | .program source =>
    match draft.source with
    | some _ => .error .secondProgram
    | none => .ok { draft with source := some source }
  | .transports order =>
    .ok { draft with settings := { draft.settings with transports := order } }
  | .connectTimeout timeout =>
    .ok { draft with settings := { draft.settings with
      dial := { draft.settings.dial with connectTimeout := some timeout } } }
  | .transferTimeout timeout =>
    .ok { draft with settings := { draft.settings with
      dial := { draft.settings.dial with transferTimeout := some timeout } } }
  | .maxSteps limit =>
    .ok { draft with settings := { draft.settings with maxSteps := some limit } }
  | .onEnd policy =>
    .ok { draft with settings := { draft.settings with onEnd := policy } }
  | .dump => .ok { draft with dump := true }
  | .profile => .ok { draft with profile := true }
  | .verbose => .ok { draft with verbose := true }

/-- Reads arguments group by group. -/
def read (draft : Draft) : List String → Except UsageError Draft
  | [] => .ok draft
  | argument :: rest =>
    match valueReader? argument with
    | none =>
      match plainGroup argument with
      | .error e => .error e
      | .ok group =>
        match draft.add group with
        | .error e => .error e
        | .ok draft => draft.read rest
    | some reader =>
      match rest with
      | [] => .error (.missingValue argument)
      | value :: rest =>
        match reader value with
        | .error e => .error e
        | .ok group =>
          match draft.add group with
          | .error e => .error e
          | .ok draft => draft.read rest

/-- The options of a finished draft. -/
def options (draft : Draft) : Except UsageError Options :=
  match draft.source with
  | none => .error .noProgram
  | some source =>
    .ok ⟨source, draft.settings, draft.dump, draft.profile, draft.verbose⟩

end Draft

/-- **Reads an argument list.** -/
def Options.parse (arguments : List String) : Except UsageError Options :=
  match Draft.read {} arguments with
  | .error e => .error e
  | .ok draft => draft.options

/-! ## The usage message -/

/-- The usage message, with the name under which the program was called, followed by an empty
line. -/
def usage (program : String) : String :=
  "Digit-tape virtual machine\n" ++
    "\n" ++
    "USAGE:\n" ++
    "    " ++ program ++ " <file> [OPTIONS]\n" ++
    "    " ++ program ++ " -e <source> [OPTIONS]\n" ++
    "\n" ++
    "ARGS:\n" ++
    "    <file>    Program source; every whitespace-separated token becomes one\n" ++
    "              cell holding the sum of its decimal digits\n" ++
    "\n" ++
    "OPTIONS:\n" ++
    "    -e, --eval <source>        Run <source> instead of a file\n" ++
    "    --transports <list>        Kinds tried by CON, in order\n" ++
    "                               (default: tcp,udp,raw,unix,unixgram,unixpacket)\n" ++
    "    --connect-timeout <ms>     Bound each tcp/raw connect attempt\n" ++
    "    --io-timeout <ms>          Read/write timeout on connections\n" ++
    "    --max-steps <n>            Halt after <n> steps\n" ++
    "    --on-eof <zero|keep|halt>  What RD does at end of input (default: zero)\n" ++
    "    --dump                     Print the encoded image and exit\n" ++
    "    --profile                  Print executed opcode counts to stderr\n" ++
    "    -v, --verbose              Enable debug logging\n" ++
    "    -h, --help                 Print this help message\n" ++
    "\n" ++
    "ENVIRONMENT:\n" ++
    "    DIGITAPE_LOG    Log level when -v is absent (debug, info, warn, error)\n" ++
    "\n" ++
    "EXAMPLES:\n" ++
    "    # Print a zero byte and a newline\n" ++
    "    " ++ program ++ " -e '1 19'\n" ++
    "\n" ++
    "    # Echo one byte of input\n" ++
    "    echo A | " ++ program ++ " -e '2 1 19'\n" ++
    "\n"

end RingTape.Command
