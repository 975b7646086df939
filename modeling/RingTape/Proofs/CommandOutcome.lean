import RingTape.Command.Program
import RingTape.Network.Peers
import RingTape.Proofs.WorkingConsole

/-!
# What the command comes to

A command leaves an exit code, its standard output, the state of the network, and
diagnostic output.  The first three are what it is called for (`Result.visible`).  They
are decided in four steps: help is looked for before anything else, then the arguments
are read, then the program text, and then the image is either listed or executed.  Each
step that fails settles the matter with nothing on the standard output.

The setting of the log and the wish for a profile take part in none of these steps.
Whatever they are, the plan is the same up to its diagnostic output
(`planOptions_unloaded`, `planOptions_listed`, `planOptions_executed`), and so is what is
visible of the result (`visible_congr`).  The console of an executed program works, so
that its run never fails and every way to halt gives the exit code of success.
-/

namespace RingTape

/-- The exit code of a run that came to an ending. -/
def Ending.exitCode : Ending → Nat
  | halted _ => 0
  | failed _ | uncounted => 1

namespace Command

variable {World Link : Type}

/-- The text that a program source stands for: a given text stands for itself, and a file
for the text of which it holds the UTF-8. -/
def ProgramSource.Says (files : String → Except Fault (List UInt8)) :
    ProgramSource → String → Prop
  | file path, text => files path = .ok (Text.utf8 text.toList)
  | inline given, text => given = text

/-- A text is loaded exactly from the sources that stand for it. -/
theorem ProgramSource.load_eq_ok_iff {files : String → Except Fault (List UInt8)}
    {source : ProgramSource} {text : String} :
    source.load files = .ok text ↔ source.Says files text := by
  cases source with
  | inline given => simp [load, Says]
  | file path =>
    rw [load, Says, readSource]
    cases files path with
    | error fault => simp
    | ok bytes =>
      simp only [Except.ok.injEq, ← Text.ofUtf8?_eq_some_iff]
      cases Text.ofUtf8? bytes <;> simp

/-- The arguments ask for help, wherever among them. -/
def Invocation.AsksHelp (invocation : Invocation) : Prop :=
  "-h" ∈ invocation.arguments ∨ "--help" ∈ invocation.arguments

/-- What a command is called for: the exit code, the standard output and what it has done
to the network. -/
def Result.visible (result : Result World) : Nat × List UInt8 × World :=
  (result.exit, result.output, result.world)

/-! ## Plans -/

section Plans

variable {invocation : Invocation} {options : Options}

theorem any_help_iff : invocation.arguments.any (fun a => a == "-h" || a == "--help") = true ↔
    invocation.AsksHelp := by
  rw [List.any_eq_true, Invocation.AsksHelp]
  constructor
  · rintro ⟨argument, hmem, hhelp⟩
    rw [Bool.or_eq_true, beq_iff_eq, beq_iff_eq] at hhelp
    rcases hhelp with rfl | rfl
    · exact Or.inl hmem
    · exact Or.inr hmem
  · rintro (hmem | hmem)
    · exact ⟨_, hmem, rfl⟩
    · exact ⟨_, hmem, rfl⟩

theorem plan_help (hargs : invocation.arguments ≠ []) (hhelp : invocation.AsksHelp) :
    plan invocation = .answer 0 "" [.text (usage invocation.program)] := by
  rw [plan, if_neg (by simpa using hargs), if_pos (any_help_iff.mpr hhelp)]

section Read

variable (hargs : invocation.arguments ≠ []) (hhelp : ¬ invocation.AsksHelp)
include hargs hhelp

theorem plan_unread {e : UsageError} (hparse : Options.parse invocation.arguments = .error e) :
    plan invocation =
      .answer 1 "" [.text (e.message ++ "\n\n"), .text (usage invocation.program)] := by
  rw [plan, if_neg (by simpa using hargs), if_neg (mt any_help_iff.mp hhelp), hparse]

theorem plan_read (hparse : Options.parse invocation.arguments = .ok options) :
    plan invocation = planOptions invocation options := by
  rw [plan, if_neg (by simpa using hargs), if_neg (mt any_help_iff.mp hhelp), hparse]

end Read

theorem planOptions_unloaded {e : Failure}
    (hload : options.source.load invocation.files = .error e) :
    ∃ diagnostics, planOptions invocation options = .answer 1 "" diagnostics := by
  rw [planOptions, hload]
  exact ⟨_, rfl⟩

theorem planOptions_listed {text : String}
    (hload : options.source.load invocation.files = .ok text) (hdump : options.dump = true) :
    ∃ diagnostics, planOptions invocation options =
      .answer 0 (Source.encode text).hexDump diagnostics := by
  rw [planOptions, hload]
  exact ⟨_, if_pos hdump⟩

theorem planOptions_executed {text : String}
    (hload : options.source.load invocation.files = .ok text) (hdump : options.dump = false) :
    ∃ threshold diagnostics, planOptions invocation options =
      .execute options threshold (Source.encode text) diagnostics := by
  rw [planOptions, hload]
  exact ⟨_, _, if_neg (by simp [hdump])⟩

end Plans

/-! ## What is visible of the result -/

theorem conclude_exit (options : Options) (threshold : Log.Level) (ending : Ending)
    (steps : UInt64) (profile : Profile) :
    (conclude options threshold ending steps profile).1 = ending.exitCode := by
  cases ending with
  | halted reason => cases reason <;> rfl
  | failed failure => rfl
  | uncounted => rfl

section Visible

variable (net : Network World Link) {invocation : Invocation} (input : List UInt8)
  (world : World)

theorem run_answer {exit : Nat} {output : String} {diagnostics : List Diagnostic}
    (hplan : plan invocation = .answer exit output diagnostics) :
    run net invocation input world =
      ⟨exit, Text.utf8 output.toList, diagnostics, world⟩ := by
  rw [run, hplan]

theorem visible_execute {options : Options} {threshold : Log.Level} {image : Image}
    {diagnostics : List Diagnostic}
    (hplan : plan invocation = .execute options threshold image diagnostics) :
    (run net invocation input world).visible =
      let report := (machine options image input world : Machine World Link).run net
      (report.ending.exitCode, report.machine.console.written, report.machine.world) := by
  rw [run, hplan]
  simp only [Result.visible, conclude_exit]
  rfl

variable {options : Options} (hargs : invocation.arguments ≠ [])
  (hhelp : ¬ invocation.AsksHelp) (hparse : Options.parse invocation.arguments = .ok options)
include hargs hhelp hparse

theorem visible_unloaded {e : Failure}
    (hload : options.source.load invocation.files = .error e) :
    (run net invocation input world).visible = (1, [], world) := by
  obtain ⟨diagnostics, hplan⟩ := planOptions_unloaded hload
  rw [← plan_read hargs hhelp hparse] at hplan
  rw [run_answer net input world hplan]
  rfl

theorem visible_listed {text : String}
    (hload : options.source.load invocation.files = .ok text) (hdump : options.dump = true) :
    (run net invocation input world).visible =
      (0, Text.utf8 (Source.encode text).hexDump.toList, world) := by
  obtain ⟨diagnostics, hplan⟩ := planOptions_listed hload hdump
  rw [← plan_read hargs hhelp hparse] at hplan
  rw [run_answer net input world hplan]
  rfl

theorem visible_executed {text : String}
    (hload : options.source.load invocation.files = .ok text) (hdump : options.dump = false) :
    (run net invocation input world).visible =
      let report := (machine options (Source.encode text) input world : Machine World Link).run net
      (report.ending.exitCode, report.machine.console.written, report.machine.world) := by
  obtain ⟨threshold, diagnostics, hplan⟩ := planOptions_executed hload hdump
  rw [← plan_read hargs hhelp hparse] at hplan
  exact visible_execute net input world hplan

end Visible

/-- **Log and profile do not show.**  Options that differ in nothing else come to the same,
whatever the setting of the log. -/
theorem visible_congr (net : Network World Link) (input : List UInt8) (world : World)
    {first second : Invocation} {options options' : Options}
    (hargs : first.arguments ≠ []) (hargs' : second.arguments ≠ [])
    (hhelp : ¬ first.AsksHelp) (hhelp' : ¬ second.AsksHelp)
    (hparse : Options.parse first.arguments = .ok options)
    (hparse' : Options.parse second.arguments = .ok options')
    (hfiles : second.files = first.files)
    (halike : options' =
      { options with verbose := options'.verbose, profile := options'.profile }) :
    (run net second input world).visible = (run net first input world).visible := by
  have hsource : options'.source = options.source := by rw [halike]
  have hsettings : options'.settings = options.settings := by rw [halike]
  have hdumps : options'.dump = options.dump := by rw [halike]
  have hloads : options'.source.load second.files = options.source.load first.files := by
    rw [hsource, hfiles]
  cases hload : options.source.load first.files with
  | error e =>
    rw [visible_unloaded net input world hargs hhelp hparse hload,
      visible_unloaded net input world hargs' hhelp' hparse' (hloads.trans hload)]
  | ok text =>
    cases hdump : options.dump with
    | true =>
      rw [visible_listed net input world hargs hhelp hparse hload hdump,
        visible_listed net input world hargs' hhelp' hparse' (hloads.trans hload)
          (hdumps.trans hdump)]
    | false =>
      rw [visible_executed net input world hargs hhelp hparse hload hdump,
        visible_executed net input world hargs' hhelp' hparse' (hloads.trans hload)
          (hdumps.trans hdump), machine, machine, hsettings]

theorem arguments_ne_nil_of_parse {arguments : List String} {options : Options}
    (h : Options.parse arguments = .ok options) : arguments ≠ [] := by
  rintro rfl
  cases h

/-- The console of an executed program works. -/
theorem working_standard (input : List UInt8) :
    Console.Working ⟨.ofBytes input, .ofRules {}⟩ :=
  Console.working_unruled _

/-- **What the command comes to, and that diagnostics do not show.**  Help anywhere among
the arguments gets the usage on the diagnostic output and nothing else, and succeeds.
Otherwise arguments that cannot be read fail, with nothing on the standard output, and so
does a program file that cannot be read or is not UTF-8.  Otherwise, if the listing is
asked for, it is all of the standard output, and neither input nor network have a part in
it.  Otherwise the standard output is what the run of the encoded program has put on its
console, under the settings that were asked for.  The run cannot fail: it halts, and for
every reason to halt the command succeeds, or it goes on for as many steps as can be
counted.

So two commands without help whose options differ in the wish to log everything and in
the wish for a profile alone, under any settings of the log variable, show the same. -/
theorem command_outcome (net : Network World Link) (invocation : Invocation)
    (input : List UInt8) (world : World) (hargs : invocation.arguments ≠ []) :
    let result := run net invocation input world
    (invocation.AsksHelp →
      result = ⟨0, [], [.text (usage invocation.program)], world⟩) ∧
    (¬ invocation.AsksHelp →
      (∀ e, Options.parse invocation.arguments = .error e → result.visible = (1, [], world)) ∧
      ∀ options, Options.parse invocation.arguments = .ok options →
        ((¬ ∃ text, options.source.Says invocation.files text) →
          result.visible = (1, [], world)) ∧
        ∀ text, options.source.Says invocation.files text →
          (options.dump = true →
            result.visible = (0, Text.utf8 (Source.encode text).hexDump.toList, world) ∧
            ∀ (net' : Network World Link) (input' : List UInt8),
              run net' invocation input' world = result) ∧
          (options.dump = false →
            let start : Machine World Link := .load (Source.encode text)
              ⟨.ofBytes input, .ofRules {}⟩ world options.settings
            let report := start.run net
            result.output = report.machine.console.written ∧
            result.world = report.machine.world ∧
            ((∃ reason, report.ending = .halted reason ∧ result.exit = 0) ∨
              report.ending = .uncounted ∧ start.Continues net UInt64.size))) ∧
    ∀ (other : Invocation) (options options' : Options),
      ¬ invocation.AsksHelp → ¬ other.AsksHelp → other.files = invocation.files →
      Options.parse invocation.arguments = .ok options →
      Options.parse other.arguments = .ok options' →
      options' = { options with verbose := options'.verbose, profile := options'.profile } →
      (run net other input world).visible = result.visible := by
  intro result
  refine ⟨fun hhelp => ?_, fun hhelp => ⟨fun e hparse => ?_, fun options hparse => ⟨?_, ?_⟩⟩, ?_⟩
  · exact run_answer net input world (plan_help hargs hhelp)
  · rw [show result = _ from run_answer net input world (plan_unread hargs hhelp hparse)]
    rfl
  · intro hunreadable
    cases hload : options.source.load invocation.files with
    | error e => exact visible_unloaded net input world hargs hhelp hparse hload
    | ok text => exact absurd ⟨text, ProgramSource.load_eq_ok_iff.mp hload⟩ hunreadable
  · intro text hsays
    have hload := ProgramSource.load_eq_ok_iff.mpr hsays
    refine ⟨fun hdump => ⟨?_, fun net' input' => ?_⟩, fun hdump => ?_⟩
    · exact visible_listed net input world hargs hhelp hparse hload hdump
    · obtain ⟨diagnostics, hplan⟩ := planOptions_listed hload hdump
      rw [← plan_read hargs hhelp hparse] at hplan
      rw [run_answer net' input' world hplan]
      exact (run_answer net input world hplan).symm
    · intro start report
      have hvisible := visible_executed net input world hargs hhelp hparse hload hdump
      have hexit : result.exit = report.ending.exitCode := congrArg Prod.fst hvisible
      refine ⟨congrArg (·.2.1) hvisible, congrArg (·.2.2) hvisible, ?_⟩
      have hcourse : (∃ reason, report.ending = .halted reason) ∨
          report.ending = .uncounted ∧ start.Continues net UInt64.size :=
        Machine.runWatching_of_working (working_standard input)
      rcases hcourse with ⟨reason, hended⟩ | hendless
      · rw [hended] at hexit
        exact Or.inl ⟨reason, hended, hexit⟩
      · exact Or.inr hendless
  · intro other options options' hhelp hhelp' hfiles hparse hparse' halike
    exact visible_congr net input world hargs (arguments_ne_nil_of_parse hparse') hhelp hhelp'
      hparse hparse' hfiles halike

/-- A call that runs a file with the program that ends at once. -/
def plainCall : Invocation :=
  { program := "digitape"
    arguments := ["tape.dt"]
    logVariable := none
    files := fun _ => .ok (Text.utf8 "19".toList) }

/-- The same with all that can be asked of the diagnostic output. -/
def loudCall : Invocation :=
  { plainCall with
    arguments := ["-v", "tape.dt", "--profile"]
    logVariable := some "trace" }

/-- The program of these calls at its start. -/
def ender : Machine PeerWorld Nat :=
  .load (Source.encode "19") ⟨.ofBytes [], .ofRules {}⟩ (.ofPeers .isolated []) {}

theorem run_ender : ender.run PeerWorld.network =
    (ender.counted (some .finish)).finish PeerWorld.network .finished := by
  have hfetched : ender.fetched = some .finish := by decide +kernel
  rw [show ender.run PeerWorld.network = (Machine.takeTurns PeerWorld.network (fun _ => false)
    (UInt64.size - 1 + 1) 0 ender #[]).cleaned PeerWorld.network from rfl,
    Machine.takeTurns_stepped rfl rfl, Machine.step_of_fetched_some hfetched]
  simp [Machine.execute, RunReport.cleaned]

/-- A program that ends at once puts out the newline that marks its end, and nothing more
if everything is logged and the profile asked for. -/
theorem command_outcome_plainCall :
    (plainCall.arguments ≠ [] ∧ ¬ plainCall.AsksHelp ∧ ¬ loudCall.AsksHelp) ∧
    (run PeerWorld.network plainCall [] (.ofPeers .isolated [])).output = [0x0a] ∧
    (run PeerWorld.network plainCall [] (.ofPeers .isolated [])).exit = 0 ∧
    (run PeerWorld.network loudCall [] (.ofPeers .isolated [])).visible =
      (run PeerWorld.network plainCall [] (.ofPeers .isolated [])).visible := by
  have hhelp : ¬ plainCall.AsksHelp := by
    unfold Invocation.AsksHelp
    decide
  have hhelp' : ¬ loudCall.AsksHelp := by
    unfold Invocation.AsksHelp
    decide
  have hended : (ender.run PeerWorld.network).ending = .halted .finished := by
    rw [run_ender]
    exact (Machine.finish_cleanup _ _ _).of_working (working_standard [])
  have hwritten : (ender.run PeerWorld.network).machine.console.written = [0x0a] := by
    have hcleanup :=
      Machine.finish_cleanup PeerWorld.network (ender.counted (some .finish)) .finished
    rw [← run_ender, hended] at hcleanup
    exact hcleanup.of_halted.2.1
  obtain ⟨-, hplain, hloud⟩ :=
    command_outcome PeerWorld.network plainCall [] (.ofPeers .isolated []) (by decide)
  obtain ⟨-, hread⟩ := hplain hhelp
  obtain ⟨-, hsaid⟩ := hread ⟨.file "tape.dt", {}, false, false, false⟩ rfl
  obtain ⟨-, hexecuted⟩ := hsaid "19" rfl
  obtain ⟨houtput, -, hexit⟩ := hexecuted rfl
  refine ⟨⟨by decide, hhelp, hhelp'⟩, houtput.trans hwritten, ?_, ?_⟩
  · rcases hexit with ⟨-, -, hzero⟩ | ⟨hendless, -⟩
    · exact hzero
    · cases hended.symm.trans hendless
  · exact hloud loudCall _ ⟨.file "tape.dt", {}, false, true, true⟩ hhelp hhelp' rfl rfl rfl rfl

end Command
end RingTape
