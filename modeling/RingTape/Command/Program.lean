import RingTape.Command.Options
import RingTape.FileTree
import RingTape.Log.Narration
import RingTape.Machine.Run
import RingTape.Profile.Table

/-!
# The command

What the command does, as a function of everything it is given: the arguments, the setting of the
log variable, the files, the input and the network. First a plan is made from the arguments and
the program text; a plan either is already the answer or says what to execute. The log and the
profile go to the diagnostic output and have no influence on anything else.
-/

namespace RingTape.Command

/-- A piece of diagnostic output. -/
inductive Diagnostic where
  /-- Text that stands as it is. -/
  | text (content : String)
  /-- A record, to be written as a log line. -/
  | record (r : Log.Record)
deriving DecidableEq, Repr

/-- A piece of diagnostic output as text. -/
def Diagnostic.render (coloured : Bool) (stamp : String) : Diagnostic → String
  | text content => content
  | record r => r.line coloured stamp

/-- The records that pass a threshold, as diagnostic output. -/
def logged (threshold : Log.Level) (records : List Log.Record) : List Diagnostic :=
  (Log.passing threshold records).map .record

/-- What the command is given before it starts. -/
structure Invocation where
  /-- The name under which the command was called. -/
  program : String
  /-- The arguments after the name. -/
  arguments : List String
  /-- The value of the log variable, if it is set. -/
  logVariable : Option String
  /-- The bytes of the file at a path. -/
  files : String → Except Fault (List UInt8)

/-- The name of the log variable. -/
def logVariableName : String := "DIGITAPE_LOG"

/-- The threshold of the log, and the records that tell of a bad setting. The verbose option comes
before the variable. -/
def logSetup (verbose : Bool) (setting : Option String) : Log.Level × List Log.Record :=
  if verbose then (.debug, [])
  else
    match setting with
    | none => (Log.defaultThreshold, [])
    | some text =>
      match Log.Level.parse text with
      | .ok level => (level, [])
      | .error e =>
        (Log.defaultThreshold, [⟨.warn, "Ignoring " ++ logVariableName ++ ": " ++ e.message⟩])

/-- Reads the text of a program from a file. -/
def readSource (files : String → Except Fault (List UInt8)) (path : String) :
    Except Failure String :=
  match files path with
  | .error fault => .error (.source path fault)
  | .ok bytes =>
    match Text.ofUtf8? bytes with
    | none => .error (.source path .invalidText)
    | some text => .ok text

/-- **Encodes a file.** -/
def encodeFile (files : String → Except Fault (List UInt8)) (path : String) :
    Except Failure Image :=
  (readSource files path).map Source.encode

/-- The text of the program that options name. -/
def ProgramSource.load (files : String → Except Fault (List UInt8)) :
    ProgramSource → Except Failure String
  | file path => readSource files path
  | inline text => .ok text

/-- What is to be done. -/
inductive Plan where
  /-- Nothing is executed: the exit code and the standard output are known. -/
  | answer (exit : Nat) (output : String) (diagnostics : List Diagnostic)
  /-- A program is executed. -/
  | execute (options : Options) (threshold : Log.Level) (image : Image)
      (diagnostics : List Diagnostic)

/-- The plan for arguments that could be read. -/
def planOptions (invocation : Invocation) (options : Options) : Plan :=
  let (threshold, setup) := logSetup options.verbose invocation.logVariable
  match options.source.load invocation.files with
  | .error e => .answer 1 "" (logged threshold (setup ++ [⟨.error, e.message⟩]))
  | .ok text =>
    let image := Source.encode text
    let diagnostics :=
      logged threshold (setup ++ Log.encodingRecords text ++ [Log.encodedRecord image])
    if options.dump then .answer 0 image.hexDump diagnostics
    else .execute options threshold image diagnostics

/-- **The plan.** Without arguments, and on request, the usage is explained. -/
def plan (invocation : Invocation) : Plan :=
  let usage := Diagnostic.text (usage invocation.program)
  if invocation.arguments.isEmpty then .answer 1 "" [usage]
  else if invocation.arguments.any (fun a => a == "-h" || a == "--help") then .answer 0 "" [usage]
  else
    match Options.parse invocation.arguments with
    | .error e => .answer 1 "" [.text (e.message ++ "\n\n"), usage]
    | .ok options => planOptions invocation options

/-- What is left to say after a run, and the exit code: the profile if it was asked for, then why
the machine stopped unless its program came to the end. -/
def conclude (options : Options) (threshold : Log.Level) (ending : Ending) (steps : UInt64)
    (profile : Profile) : Nat × List Diagnostic :=
  let table := if options.profile then [Diagnostic.text profile.table] else []
  match ending with
  | .halted .finished => (0, table)
  | .halted reason =>
    (0, table ++ logged threshold
      [⟨.info, "Stopped: " ++ reason.message ++ " after " ++ Nat.repr steps.toNat ++ " steps"⟩])
  | .failed failure => (1, table ++ logged threshold [⟨.error, failure.message⟩])
  | .uncounted => (1, table ++ logged threshold [⟨.error, "step counter exhausted"⟩])

/-- What the command leaves behind. -/
structure Result (World : Type) where
  /-- The exit code. -/
  exit : Nat
  /-- The standard output. -/
  output : List UInt8
  /-- The diagnostic output. -/
  diagnostics : List Diagnostic
  /-- The state of the network. -/
  world : World

variable {World Link : Type}

/-- The machine that executes an image with the given input and a console that can always be
written. -/
def machine (options : Options) (image : Image) (input : List UInt8) (world : World) :
    Machine World Link :=
  .load image ⟨Reader.ofBytes input, Sink.ofRules {}⟩ world options.settings

/-- **The command.** -/
def run (net : Network World Link) (invocation : Invocation) (input : List UInt8) (world : World) :
    Result World :=
  match plan invocation with
  | .answer exit output diagnostics => ⟨exit, Text.utf8 output.toList, diagnostics, world⟩
  | .execute options threshold image diagnostics =>
    let report := (machine options image input world).run net
    let told := logged threshold (report.events.toList.flatMap Log.eventRecords)
    let (exit, last) :=
      conclude options threshold report.ending report.machine.steps report.machine.profile
    { exit := exit
      output := report.machine.console.output.stored.toList
      diagnostics := diagnostics ++ told ++ last
      world := report.machine.world }

end RingTape.Command
