import RingTape.Proofs.SteadySink

/-!
# What does not show of the streams

A caller makes a machine step and run, and uses its console directly as well.  Of all this
the caller sees the answers and, in between, the machines (`transcript`).  The streams of
the console may take many requests for what one would do: readings are interrupted,
writings are interrupted or taken in parts.  None of that shows.  And the machine makes no
difference between a failed reading and the end of the input, which a caller who reads does.

`takers` lists who takes the readings of the console, in the order in which they are taken.
Two readers are the same to these takers if they tell them the same (`told`): the readings
that are not taken do not matter.  If moreover the sinks differ only in the calls that they
need, the transcripts are equal (`Paired.transcript`, `interruptions_invisible`).

A machine takes exactly one reading for each time that it reads from the console, but only
after the console has been flushed: if that fails, the step fails and the reading stays.
-/

namespace RingTape

/-- What a caller asks of a machine, or directly of its console. -/
inductive Request where
  /-- To make a step or to run. -/
  | call (call : Call)
  /-- To read a byte from the console. -/
  | read
  /-- To write bytes to the console. -/
  | write (bytes : List UInt8)
  /-- To flush the console. -/
  | flush

/-- What a request comes to. -/
inductive Answer where
  /-- What a step came to. -/
  | stepped (outcome : Outcome)
  /-- What a run came to. -/
  | ran (ending : Ending)
  /-- What was read. -/
  | read (reading : Reading)
  /-- What writing or flushing came to. -/
  | done (result : Except Fault Unit)

/-- Who takes a reading from a console. -/
inductive Taker where
  | machine
  | caller
deriving DecidableEq, Repr

/-- What a reading says to its taker: to a machine, a fault is the end of the input. -/
def Taker.hears : Taker → Reading → Reading
  | machine, .error _ => .ok none
  | _, reading => reading

theorem EndPolicy.fill_hears (policy : EndPolicy) (cell : UInt8) (reading : Reading) :
    policy.fill cell (Taker.machine.hears reading) = policy.fill cell reading := by
  rcases reading with fault | _ | byte <;> rfl

namespace Reader

/-- What a reader tells takers that come one after the other. -/
def told (r : Reader) : List Taker → List Reading
  | [] => []
  | taker :: rest => taker.hears r.readOne.1 :: r.readOne.2.told rest

theorem length_told (r : Reader) (takers : List Taker) :
    (r.told takers).length = takers.length := by
  induction takers generalizing r with
  | nil => rfl
  | cons taker rest ih => exact congrArg (· + 1) (ih _)

theorem told_append (r : Reader) (first later : List Taker) :
    r.told (first ++ later) = r.told first ++ (r.advance first.length).told later := by
  induction first generalizing r with
  | nil => rfl
  | cons taker rest ih => exact congrArg (_ :: ·) (ih _)

theorem getElem?_told (r : Reader) (takers : List Taker) (j : Nat) :
    (r.told takers)[j]? = takers[j]?.map fun taker => taker.hears (r.nth j) := by
  induction takers generalizing r j with
  | nil => rfl
  | cons taker rest ih =>
    cases j with
    | zero => exact congrArg (fun reading => some (taker.hears reading)) r.readOne_fst
    | succ j =>
      rw [told, List.getElem?_cons_succ, List.getElem?_cons_succ, ih, nth_readOne]

variable {r s : Reader}

/-- Readers that tell takers the same do so to the first of them and to the others. -/
theorem told_append_inj {first later : List Taker}
    (h : s.told (first ++ later) = r.told (first ++ later)) :
    s.told first = r.told first ∧
      (s.advance first.length).told later = (r.advance first.length).told later := by
  rw [told_append, told_append] at h
  exact List.append_inj h (by rw [length_told, length_told])

/-- Readers that tell a machine the same fill its cells alike. -/
theorem agrees_of_told {n : Nat}
    (h : s.told (List.replicate n .machine) = r.told (List.replicate n .machine))
    (policy : EndPolicy) : Agrees policy policy n r s := by
  intro j hj cell
  have hheard : Taker.machine.hears (s.nth j) = Taker.machine.hears (r.nth j) := by
    have htold := congrArg (·[j]?) h
    simpa [getElem?_told, List.getElem?_replicate, hj] using htold
  rw [← policy.fill_hears, hheard, policy.fill_hears]

end Reader

/-- All that can be seen of a machine: everything except the state of its streams, and what
the sink has stored. -/
structure Appearance (World Link : Type) where
  tape : Tape
  world : World
  active : Option (Connection Link)
  superseded : Array (Connection Link)
  books : Books
  written : List UInt8

namespace Machine

variable {World Link : Type}

/-- What can be seen of the machine. -/
def appearance (m : Machine World Link) : Appearance World Link :=
  ⟨m.tape, m.world, m.active, m.superseded, m.books, m.console.written⟩

section Requests

variable (net : Network World Link) (m : Machine World Link)

/-- The answer to a request, and the machine after it. -/
def serve : Request → Answer × Machine World Link
  | .call .step => (.stepped (m.step net).outcome, (m.step net).machine)
  | .call (.run flag) =>
    (.ran (m.runWatching net flag).ending, (m.runWatching net flag).machine)
  | .read => (.read m.console.readByte.1, { m with console := m.console.readByte.2 })
  | .write bytes =>
    (.done (m.console.write bytes).1, { m with console := (m.console.write bytes).2 })
  | .flush => (.done m.console.flush.1, { m with console := m.console.flush.2 })

/-- The answers to requests that are made one after the other, each with the appearance of
the machine after it. -/
def transcript (m : Machine World Link) : List Request → List (Answer × Appearance World Link)
  | [] => []
  | request :: rest =>
    ((m.serve net request).1, (m.serve net request).2.appearance) ::
      (m.serve net request).2.transcript rest

/-- Who takes the readings that a request takes from the console. -/
def takes : Request → List Taker
  | .call call => List.replicate (m.reads net (m.moves net call)) .machine
  | .read => [.caller]
  | .write _ | .flush => []

/-- Who takes the readings that requests take from the console, in order. -/
def takers (m : Machine World Link) : List Request → List Taker
  | [] => []
  | request :: rest => m.takes net request ++ (m.serve net request).2.takers rest

/-- **A request uses up the readings that are taken**, and no other. -/
theorem input_serve (request : Request) : (m.serve net request).2.console.input =
    m.console.input.advance (m.takes net request).length := by
  cases request with
  | call call =>
    have hmachine : (m.serve net (.call call)).2 = (m.call net call).1 := by cases call <;> rfl
    rw [hmachine, call_eq_play, input_play, takes, List.length_replicate]
  | read | write bytes | flush => rfl

theorem settings_serve (request : Request) :
    (m.serve net request).2.settings = m.settings := by
  cases request with
  | call call =>
    have hmachine : (m.serve net (.call call)).2 = (m.call net call).1 := by cases call <;> rfl
    rw [hmachine, call_eq_play, settings_play]
  | read | write bytes | flush => rfl

end Requests

section Alike

variable {net : Network World Link} {policy : EndPolicy} {m t : Machine World Link}

theorem Paired.appearance (h : m.Paired Sink.Alike m.settings.onEnd t) :
    t.appearance = m.appearance := by
  have hwritten : t.console.written = m.console.written := congrArg Array.toList h.output.stored
  unfold Machine.appearance
  rw [hwritten, h.rest]
  rfl

theorem Paired.withConsole {R : Sink → Sink → Prop} (h : m.Paired R policy t) {c d : Console}
    (houtput : R c.output d.output) :
    { m with console := c }.Paired R policy { t with console := d } := by
  refine ⟨houtput, ?_⟩
  rw [h.rest]
  rfl

/-- **A call is answered alike**, if the readings that it takes say the same to a machine. -/
theorem Paired.serve_call (h : m.Paired Sink.Alike m.settings.onEnd t) {call : Call}
    (htold : t.console.input.told (m.takes net (.call call)) =
      m.console.input.told (m.takes net (.call call))) :
    (t.serve net (.call call)).1 = (m.serve net (.call call)).1 ∧
      (m.serve net (.call call)).2.Paired Sink.Alike m.settings.onEnd
        (t.serve net (.call call)).2 ∧
      t.takes net (.call call) = m.takes net (.call call) := by
  have hagree : m.InputsAgree m.settings.onEnd (m.reads net (m.moves net call)) t :=
    Reader.agrees_of_told htold _
  cases call with
  | step =>
    have hreads : t.reads net [.step] = m.reads net [.step] := by
      rw [reads_step, reads_step, h.readsConsole Sink.alike_bisimulation]
      rfl
    rw [moves, reads_step] at hagree
    obtain ⟨houtcome, hnext, -⟩ := h.step net Sink.alike_bisimulation (fun _ => rfl) hagree
    exact ⟨congrArg Answer.stepped houtcome, hnext, congrArg (List.replicate · _) hreads⟩
  | run flag =>
    have hlinks (s : Machine World Link) (hs : s ∈ m.departures net (m.moves net (.run flag)))
        (_ : s.active.isSome) : m.settings.onEnd = s.settings.onEnd := by
      obtain ⟨past, _, -, rfl⟩ := mem_departures_iff.mp hs
      rw [settings_play]
    obtain ⟨hending, hlast, hreads⟩ := h.runWatching Sink.alike_bisimulation hlinks hagree
    exact ⟨congrArg Answer.ran hending, hlast, congrArg (List.replicate · _) hreads⟩

/-- **A request is answered alike**, if the readings that it takes say the same. -/
theorem Paired.serve (h : m.Paired Sink.Alike m.settings.onEnd t) {request : Request}
    (htold : t.console.input.told (m.takes net request) =
      m.console.input.told (m.takes net request)) :
    (t.serve net request).1 = (m.serve net request).1 ∧
      (m.serve net request).2.Paired Sink.Alike m.settings.onEnd (t.serve net request).2 ∧
      t.takes net request = m.takes net request := by
  cases request with
  | call call => exact h.serve_call htold
  | read =>
    have hreading : t.console.readByte.1 = m.console.readByte.1 := (List.cons.inj htold).1
    exact ⟨congrArg Answer.read hreading, h.withConsole h.output, rfl⟩
  | write bytes =>
    obtain ⟨hresult, hnext⟩ := Sink.alike_bisimulation.write h.output bytes
    exact ⟨congrArg Answer.done hresult, h.withConsole hnext, rfl⟩
  | flush =>
    obtain ⟨hresult, hnext⟩ := Sink.alike_bisimulation.flush h.output
    exact ⟨congrArg Answer.done hresult, h.withConsole hnext, rfl⟩

/-- **Requests are answered alike**, one after the other, if the readings that they take
say the same to their takers. -/
theorem Paired.transcript (h : m.Paired Sink.Alike m.settings.onEnd t) (requests : List Request)
    (htold : t.console.input.told (m.takers net requests) =
      m.console.input.told (m.takers net requests)) :
    t.transcript net requests = m.transcript net requests ∧
      t.takers net requests = m.takers net requests := by
  induction requests generalizing m t with
  | nil => exact ⟨rfl, rfl⟩
  | cons request rest ih =>
    obtain ⟨hfirst, hlater⟩ := Reader.told_append_inj htold
    obtain ⟨hanswer, hnext, htakes⟩ := h.serve hfirst
    rw [← settings_serve net m request] at hnext
    rw [← input_serve, ← htakes, ← input_serve] at hlater
    obtain ⟨hrest, htakers⟩ := ih hnext hlater
    rw [Machine.transcript, Machine.transcript, Machine.takers, Machine.takers, hanswer,
      hnext.appearance, hrest, htakes, htakers]
    exact ⟨rfl, rfl⟩

end Alike

/-- **Neither interruptions nor short calls show, and a machine takes a failed reading for
the end of the input.**  Two machines are the same but for their consoles.  The readers tell
the same to those who take their readings, and the sinks differ only in the calls that they
need.  Then every request gets the same answer and leaves the machines looking the same.

A machine that reads without a connection uses up exactly one answer of its reader that is
no interruption, if the console can be flushed.  If not, the step fails with the fault of
the flush and uses up none. -/
theorem interruptions_invisible (net : Network World Link) (m : Machine World Link)
    (console : Console) (requests : List Request)
    (houtput : m.console.output.Alike console.output)
    (htold : console.input.told (m.takers net requests) =
      m.console.input.told (m.takers net requests)) :
    { m with console := console }.transcript net requests = m.transcript net requests ∧
    { m with console := console }.takers net requests = m.takers net requests ∧
    ∀ s : Machine World Link, s.fetched = some .read → s.active = none →
      (s.console.flush.1 = .ok () →
        (s.step net).machine.console.input.finals = s.console.input.finals.tail) ∧
      ∀ fault, s.console.flush.1 = .error fault →
        (s.step net).outcome = .failed (.output fault) ∧
          (s.step net).machine.console.input = s.console.input := by
  have hpaired : m.Paired Sink.Alike m.settings.onEnd { m with console := console } :=
    ⟨houtput, rfl⟩
  obtain ⟨htranscript, htakers⟩ := hpaired.transcript requests htold
  refine ⟨htranscript, htakers, fun s hfetched hactive => ⟨fun hflush => ?_, ?_⟩⟩
  · have hreads : s.readsConsole = true := readsConsole_iff.mpr ⟨hfetched, hactive, hflush⟩
    rw [input_step, hreads]
    exact Reader.finals_readOne _
  · intro fault hflush
    have hconduct : s.Conduct net _ (.failed (.output fault)) _ :=
      .unflushed hfetched hactive (Prod.ext hflush rfl)
    have hreads : s.readsConsole = false := by
      simp [Machine.readsConsole, hfetched, hactive, hflush]
    obtain ⟨-, houtcome, -⟩ := hconduct.eq_step
    refine ⟨houtcome, ?_⟩
    rw [input_step, hreads]
    rfl

/-- A machine that reads twice and comes to a cell that is no instruction. -/
def twiceReader (console : Console) : Machine PeerWorld Nat :=
  load (.ofBytes [Opcode.read.code, Opcode.read.code, 0x0f]) console (.ofPeers .isolated []) {}

/-- The second reading fails on one console and finds the end on the other, which is
interrupted often and takes few bytes at a time.  Neither has room for all of the message
about the stray cell. -/
theorem interruptions_invisible_twiceReader :
    let smooth : Console :=
      .new [.stored 0x41 1, .failed .broken, .stored 0x42 1] { capacity := some 10 }
    let rough : Console :=
      .new [.interrupted, .stored 0x41 1, .interrupted, .ended, .stored 0x42 1, .failed .closed]
        { capacity := some 10, chunk := some 3, interruptions := fun i => i % 2 }
    let requests : List Request := [.call (.run fun look => 2 ≤ look), .read, .call .step]
    smooth.output.Alike rough.output ∧
      (twiceReader rough).transcript PeerWorld.network requests =
        (twiceReader smooth).transcript PeerWorld.network requests ∧
      rough.output.fitting (Text.utf8 strayCellText.toList) =
        (Text.utf8 strayCellText.toList).take 10 ∧
      10 < (Text.utf8 strayCellText.toList).length := by
  intro smooth rough requests
  have halike : smooth.output.Alike rough.output := {
    steady := ⟨by decide, fun _ => .inl rfl⟩
    steady' := ⟨by decide, fun _ => .inl rfl⟩
    capacity := rfl
    whenFull := rfl
    flushFault := rfl
    stored := rfl
    flushes := rfl }
  have htakers : (twiceReader smooth).takers PeerWorld.network requests =
      [.machine, .machine, .caller] := by decide +kernel
  have htold : rough.input.told ((twiceReader smooth).takers PeerWorld.network requests) =
      smooth.input.told ((twiceReader smooth).takers PeerWorld.network requests) := by
    rw [htakers]
    rfl
  obtain ⟨htranscript, -, -⟩ :=
    interruptions_invisible PeerWorld.network (twiceReader smooth) rough requests halike htold
  exact ⟨halike, htranscript, rfl, by decide +kernel⟩

/-- A machine about to read from a console that cannot be flushed. -/
def unflushable : Machine PeerWorld Nat :=
  load (.ofBytes [Opcode.read.code])
    (.new [.stored 0x41 1] { flushFault := fun _ => some .closed }) (.ofPeers .isolated []) {}

/-- **Reading without a connection does not always use up an answer**: the flush before it
may fail. -/
theorem reading_kept_unless_flushed :
    ¬ ∀ m : Machine PeerWorld Nat, m.fetched = some .read → m.active = none →
      (m.step PeerWorld.network).machine.console.input.finals = m.console.input.finals.tail := by
  intro h
  have hused := h unflushable (by decide +kernel) rfl
  have hkept : (unflushable.step PeerWorld.network).machine.console.input.finals.length = 1 := by
    decide +kernel
  rw [hused] at hkept
  exact absurd hkept (by decide +kernel)

end Machine
end RingTape
