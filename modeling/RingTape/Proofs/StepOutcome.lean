import RingTape.Network.Peers
import RingTape.Proofs.Conduct

/-!
# When a step halts, fails or goes on

Mistakes of a program never stop the machine.  A step stops for three reasons only,
and exactly when they are there: it has come to the end of the program; it reads
under a policy to halt and the input in use gives no byte (`RunsDry`); or the
console refuses what the step asks of it (`consoleAnswer`).  No two of these reasons
occur together, and without them the step goes on: an unknown cell, a bracket
without a partner, an endpoint that cannot be reached, and whatever happens on a
connection, all let the machine continue.
-/

namespace RingTape

/-- The fault of an effect that the console refused. -/
def Effect.refusal? {Link : Type} : Effect Link → Option Fault
  | .wrote _ (.error fault) => some fault
  | .flushed (.error fault) => some fault
  | _ => none

namespace Machine

variable {World Link : Type}

/-- The console's answer to what the step asks of it, if it asks anything: to write, or
to flush before it reads. -/
def consoleAnswer (net : Network World Link) (m : Machine World Link) :
    Option (Except Fault Unit) :=
  match m.fetched, m.active with
  | none, _ => some (m.console.write (Text.utf8 strayCellText.toList)).1
  | some .write, none => some (m.console.write [m.memory.get m.head]).1
  | some .read, none => some m.console.flush.1
  | some .connect, _ =>
    match (m.dialling net).1.reached with
    | some _ => none
    | none => some (m.console.write (Text.utf8 noConnectionText.toList)).1
  | _, _ => none

/-- What the input in use has for a step that reads: the connection's, or that of the
console once it is flushed. -/
def supply (net : Network World Link) (m : Machine World Link) : Reading :=
  match m.active with
  | some connection => (net.receive connection.link m.world).1
  | none => m.console.flush.2.readByte.1

/-- The step reads, the input in use has ended or fails, and the policy is to halt. -/
structure RunsDry (net : Network World Link) (m : Machine World Link) : Prop where
  reads : m.fetched = some .read
  policy : m.settings.onEnd = .halt
  flushed : m.active = none → m.console.flush.1 = .ok ()
  dry : ∀ byte, m.supply net ≠ .ok (some byte)

variable {net : Network World Link} {m : Machine World Link}

/-! ## The reasons exclude each other -/

theorem consoleAnswer_of_finish (h : m.fetched = some .finish) : m.consoleAnswer net = none := by
  simp only [consoleAnswer, h]

theorem RunsDry.consoleAnswer_ne (h : m.RunsDry net) (fault : Fault) :
    m.consoleAnswer net ≠ some (.error fault) := by
  cases hactive : m.active with
  | some connection => simp [consoleAnswer, h.reads, hactive]
  | none => simp [consoleAnswer, h.reads, hactive, h.flushed hactive]

theorem RunsDry.fetched_ne_finish (h : m.RunsDry net) : m.fetched ≠ some .finish := by
  rw [h.reads]
  decide

/-! ## The reasons are all there are -/

/-- What a step comes to, by reason. -/
def Verdict (net : Network World Link) (m : Machine World Link) (outcome : Outcome) : Prop :=
  m.fetched = some .finish ∧ outcome = .halted .finished ∨
  m.RunsDry net ∧ outcome = .halted .inputExhausted ∨
  (∃ fault, m.consoleAnswer net = some (.error fault) ∧ outcome = .failed (.output fault)) ∨
  m.fetched ≠ some .finish ∧ ¬ m.RunsDry net ∧
    (∀ fault, m.consoleAnswer net ≠ some (.error fault)) ∧ outcome = .continued

/-- A step that does not read and asks nothing of the console goes on. -/
theorem verdict_unasked (hfinish : m.fetched ≠ some .finish) (hread : m.fetched ≠ some .read)
    (hanswer : m.consoleAnswer net = none) : m.Verdict net .continued := by
  refine Or.inr (Or.inr (Or.inr ⟨hfinish, fun h => hread h.reads, fun fault h => ?_, rfl⟩))
  rw [hanswer] at h
  cases h

/-- A step that does not read does as the console answers. -/
theorem verdict_answered {result : Except Fault Unit} (hfinish : m.fetched ≠ some .finish)
    (hread : m.fetched ≠ some .read) (hanswer : m.consoleAnswer net = some result) :
    m.Verdict net (.ofAnswer result) := by
  cases result with
  | error fault => exact Or.inr (Or.inr (Or.inl ⟨fault, hanswer, rfl⟩))
  | ok =>
    refine Or.inr (Or.inr (Or.inr ⟨hfinish, fun h => hread h.reads, fun fault h => ?_, rfl⟩))
    rw [hanswer] at h
    cases h

/-- A step that has read does as the policy says. -/
theorem verdict_supplied (hread : m.fetched = some .read)
    (hflushed : m.active = none → m.console.flush.1 = .ok ()) :
    m.Verdict net (m.settings.onEnd.outcome (m.supply net)) := by
  have hfinish : m.fetched ≠ some .finish := by
    rw [hread]
    decide
  have hanswer : ∀ fault, m.consoleAnswer net ≠ some (.error fault) := by
    cases hactive : m.active with
    | some connection => simp [consoleAnswer, hread, hactive]
    | none => simp [consoleAnswer, hread, hactive, hflushed hactive]
  by_cases hdry : m.settings.onEnd = .halt ∧ ∀ byte, m.supply net ≠ .ok (some byte)
  · refine Or.inr (Or.inl ⟨⟨hread, hdry.1, hflushed, hdry.2⟩, ?_⟩)
    rcases hsupply : m.supply net with fault | _ | byte
    · simp [EndPolicy.outcome, hdry.1]
    · simp [EndPolicy.outcome, hdry.1]
    · exact absurd hsupply (hdry.2 byte)
  · refine Or.inr (Or.inr (Or.inr ⟨hfinish, fun h => hdry ⟨h.policy, h.dry⟩, hanswer, ?_⟩))
    rcases hsupply : m.supply net with fault | _ | byte
    · have hpolicy : m.settings.onEnd ≠ .halt := fun h => hdry ⟨h, by simp [hsupply]⟩
      simp [EndPolicy.outcome, hpolicy]
    · have hpolicy : m.settings.onEnd ≠ .halt := fun h => hdry ⟨h, by simp [hsupply]⟩
      simp [EndPolicy.outcome, hpolicy]
    · rfl

theorem Conduct.verdict {effects : List (Effect Link)} {outcome : Outcome}
    {front : Front World Link} (h : m.Conduct net effects outcome front) :
    m.Verdict net outcome := by
  cases h with
  | stray hfetched hwrite =>
    refine verdict_answered (by simp [hfetched]) (by simp [hfetched]) ?_
    simp [consoleAnswer, hfetched, hwrite]
  | sent hfetched hactive hsend =>
    refine verdict_unasked (by simp [hfetched]) (by simp [hfetched]) ?_
    simp [consoleAnswer, hfetched, hactive]
  | wrote hfetched hactive hwrite =>
    refine verdict_answered (by simp [hfetched]) (by simp [hfetched]) ?_
    simp [consoleAnswer, hfetched, hactive, hwrite]
  | @received connection reading world hfetched hactive hreceive =>
    have hsupply : m.supply net = reading := by simp only [supply, hactive, hreceive]
    rw [← hsupply]
    exact verdict_supplied hfetched (by simp [hactive])
  | @unflushed fault console hfetched hactive hflush =>
    refine Or.inr (Or.inr (Or.inl ⟨fault, ?_, rfl⟩))
    simp [consoleAnswer, hfetched, hactive, hflush]
  | @read flushed console reading hfetched hactive hflush hread =>
    have hsupply : m.supply net = reading := by simp only [supply, hactive, hflush, hread]
    rw [← hsupply]
    exact verdict_supplied hfetched (by simp [hflush])
  | reached hfetched hdial hreached =>
    refine verdict_unasked (by simp [hfetched]) (by simp [hfetched]) ?_
    simp [consoleAnswer, hfetched, hdial, hreached]
  | unreached hfetched hdial hreached hwrite =>
    refine verdict_answered (by simp [hfetched]) (by simp [hfetched]) ?_
    simp [consoleAnswer, hfetched, hdial, hreached, hwrite]
  | finished hfetched => exact Or.inl ⟨hfetched, rfl⟩
  | @quiet op hfetched hop =>
    cases op with
    | write | read | connect | finish => exact absurd hop (by decide)
    | nop | opening | closing | forward | backward | increment | decrement =>
      exact verdict_unasked (by simp [hfetched]) (by simp [hfetched])
        (by simp [consoleAnswer, hfetched])

theorem refusal?_wrote (bytes : List UInt8) (result : Except Fault Unit) (fault : Fault) :
    (Effect.wrote bytes result : Effect Link).refusal? = some fault ↔
      Outcome.ofAnswer result = .failed (.output fault) := by
  cases result <;> simp [Effect.refusal?, Outcome.ofAnswer]

theorem refusal?_dialled (outcome : Dialled Link) : (Effect.dialled outcome).refusal? = none :=
  rfl

theorem outcome_ne_failed (policy : EndPolicy) (reading : Reading) (failure : Failure) :
    policy.outcome reading ≠ .failed failure := by
  unfold EndPolicy.outcome
  split
  · exact Outcome.noConfusion
  · split <;> exact Outcome.noConfusion

/-- A step fails exactly by an effect that the console refused. -/
theorem Conduct.failed_iff {effects : List (Effect Link)} {outcome : Outcome}
    {front : Front World Link} (h : m.Conduct net effects outcome front) (fault : Fault) :
    outcome = .failed (.output fault) ↔ ∃ e ∈ effects, e.refusal? = some fault := by
  cases h with
  | stray | wrote => simp [refusal?_wrote]
  | unreached => simp [refusal?_wrote, refusal?_dialled]
  | sent | finished | quiet => simp [Effect.refusal?]
  | unflushed => simp [Effect.refusal?]
  | received | read => simp [Effect.refusal?, outcome_ne_failed]
  | reached => cases m.active <;> simp [Effect.refusal?]

namespace Verdict

variable {outcome : Outcome} (h : m.Verdict net outcome)
include h

theorem finished_iff : outcome = .halted .finished ↔ m.fetched = some .finish := by
  rcases h with ⟨hfetched, rfl⟩ | ⟨hdry, rfl⟩ | ⟨fault, hanswer, rfl⟩ | ⟨hfetched, -, -, rfl⟩
  · simp [hfetched]
  · simp [hdry.fetched_ne_finish]
  · have hfetched : m.fetched ≠ some .finish := fun h => by
      rw [consoleAnswer_of_finish h] at hanswer
      cases hanswer
    simp [hfetched]
  · simp [hfetched]

theorem inputExhausted_iff : outcome = .halted .inputExhausted ↔ m.RunsDry net := by
  rcases h with ⟨hfetched, rfl⟩ | ⟨hdry, rfl⟩ | ⟨fault, hanswer, rfl⟩ | ⟨-, hdry, -, rfl⟩
  · have hdry : ¬ m.RunsDry net := fun h => h.fetched_ne_finish hfetched
    simp [hdry]
  · simp [hdry]
  · have hdry : ¬ m.RunsDry net := fun h => h.consoleAnswer_ne fault hanswer
    simp [hdry]
  · simp [hdry]

/-- A failure is the console's, with the fault of its answer. -/
theorem failed_iff (failure : Failure) : outcome = .failed failure ↔
    ∃ fault, failure = .output fault ∧ m.consoleAnswer net = some (.error fault) := by
  rcases h with ⟨hfetched, rfl⟩ | ⟨hdry, rfl⟩ | ⟨fault, hanswer, rfl⟩ | ⟨-, -, hanswer, rfl⟩
  · simp [consoleAnswer_of_finish hfetched]
  · simp [hdry.consoleAnswer_ne]
  · simp [hanswer, eq_comm]
  · simp [hanswer]

theorem continued_iff : outcome = .continued ↔ m.fetched ≠ some .finish ∧ ¬ m.RunsDry net ∧
    ∀ fault, m.consoleAnswer net ≠ some (.error fault) := by
  rcases h with ⟨hfetched, rfl⟩ | ⟨hdry, rfl⟩ | ⟨fault, hanswer, rfl⟩ |
    ⟨hfetched, hdry, hanswer, rfl⟩
  · simp [hfetched]
  · simp [hdry]
  · simp [hanswer]
  · simp [hfetched, hdry, hanswer]

end Verdict

/-! ## What a halt leaves -/

theorem takeReading_of_halted {reading : Reading} {events : List (Event Link)} {reason : Halt}
    (h : (m.takeReading reading events).outcome = .halted reason) :
    (m.takeReading reading events).machine = m := by
  unfold takeReading at h ⊢
  split at h
  · cases h
  · split at h
    · cases h
    · cases h
    · rfl

theorem stepRead_of_halted {reason : Halt} (h : (m.stepRead net).outcome = .halted reason) :
    ∃ console world,
      (m.stepRead net).machine = { m with console := console, world := world } := by
  rcases m.active.eq_none_or_eq_some with hactive | ⟨connection, hactive⟩
  · rcases hflush : m.console.flush with ⟨result, console⟩
    cases result with
    | error fault =>
      rw [stepRead_unflushed hactive hflush] at h
      cases h
    | ok =>
      rw [stepRead_flushed hactive hflush] at h ⊢
      exact ⟨_, m.world, takeReading_of_halted h⟩
  · rw [stepRead_connected hactive] at h ⊢
    exact ⟨m.console, _, takeReading_of_halted h⟩

/-- **All that a step that halts has done**: it is counted, and it may have flushed and
read in vain. -/
theorem step_of_halted {reason : Halt} (h : (m.step net).outcome = .halted reason) :
    ∃ console world, (m.step net).machine =
      { m.counted m.fetched with console := console, world := world } := by
  have hverdict := (step_conduct net m).verdict
  rw [h] at hverdict
  -- of the four reasons two are halts, and each names the instruction
  rcases hverdict with ⟨hfetched, -⟩ | ⟨hdry, -⟩ | ⟨fault, -, hfailed⟩ | ⟨-, -, -, hcontinued⟩
  · rw [step_of_fetched_some hfetched, hfetched]
    exact ⟨m.console, m.world, rfl⟩
  · rw [step_of_fetched_some hdry.reads] at h ⊢
    rw [hdry.reads]
    exact stepRead_of_halted h
  · cases hfailed
  · cases hcontinued

/-! ## The outcome of a step -/

/-- **When a step halts, fails or goes on.**  The failure that a step reports is always
that of the console, and it is the fault with which the console refused the step's
write or flush; with a connection in use, reading and writing never fail.  A step
that halts leaves the ring and both cursors as they were. -/
theorem step_outcome_exact (net : Network World Link) (m : Machine World Link) :
    ((m.step net).outcome = .halted .finished ↔ m.fetched = some .finish) ∧
    ((m.step net).outcome = .halted .inputExhausted ↔ m.RunsDry net) ∧
    (∀ failure, (m.step net).outcome = .failed failure ↔
      ∃ fault, failure = .output fault ∧ m.consoleAnswer net = some (.error fault)) ∧
    (∀ fault, m.consoleAnswer net = some (.error fault) ↔
      ∃ e ∈ effectsOf (m.step net).events, e.refusal? = some fault) ∧
    ((m.step net).outcome = .continued ↔ m.fetched ≠ some .finish ∧ ¬ m.RunsDry net ∧
      ∀ fault, m.consoleAnswer net ≠ some (.error fault)) ∧
    (m.active.isSome → m.fetched = some .read ∨ m.fetched = some .write →
      ∀ failure, (m.step net).outcome ≠ .failed failure) ∧
    (∀ reason, (m.step net).outcome = .halted reason →
      (m.step net).machine.pc = m.pc ∧ (m.step net).machine.head = m.head ∧
        (m.step net).machine.memory = m.memory) := by
  have hconduct := step_conduct net m
  have hverdict := hconduct.verdict
  refine ⟨hverdict.finished_iff, hverdict.inputExhausted_iff, hverdict.failed_iff, fun fault => ?_,
    hverdict.continued_iff, fun hactive hfetched failure hfailed => ?_, fun reason hhalted => ?_⟩
  · rw [← hconduct.failed_iff, hverdict.failed_iff]
    simp
  · obtain ⟨connection, hconnection⟩ := Option.isSome_iff_exists.mp hactive
    have hanswer : m.consoleAnswer net = none := by
      rcases hfetched with hfetched | hfetched <;> simp [consoleAnswer, hfetched, hconnection]
    obtain ⟨fault, -, hrefused⟩ := (hverdict.failed_iff failure).mp hfailed
    rw [hanswer] at hrefused
    cases hrefused
  · obtain ⟨console, world, hmachine⟩ := step_of_halted hhalted
    rw [hmachine]
    exact ⟨rfl, rfl, rfl⟩

/-- A machine about to read, under a policy to halt, from a connection on which nothing
arrives in time. -/
def stalledReader : Machine PeerWorld Nat :=
  { load (.ofBytes [Opcode.read.code]) (.new [] {})
      { PeerWorld.ofPeers .isolated [] with sessions := #[⟨.unix, none, [], true, #[], false⟩] }
      { onEnd := .halt } with
    active := some ⟨.unix, "", 0⟩ }

/-- The fault of the connection halts the machine where it is and fails nothing. -/
theorem step_outcome_exact_stalledReader :
    stalledReader.supply PeerWorld.network = .error .unavailable ∧
      (stalledReader.step PeerWorld.network).outcome = .halted .inputExhausted ∧
      (∀ failure, (stalledReader.step PeerWorld.network).outcome ≠ .failed failure) ∧
      (stalledReader.step PeerWorld.network).machine.pc = stalledReader.pc ∧
      (stalledReader.step PeerWorld.network).machine.memory = stalledReader.memory := by
  have hfetched : stalledReader.fetched = some .read := by
    have hcell : stalledReader.memory.get stalledReader.pc = Opcode.read.code :=
      Memory.get_set_self _ _ _
    rw [fetched, hcell]
    decide
  have hsupply : stalledReader.supply PeerWorld.network = .error .unavailable := rfl
  obtain ⟨-, hexhausted, -, -, -, hconnected, hhalted⟩ :=
    step_outcome_exact PeerWorld.network stalledReader
  have hdry : stalledReader.RunsDry PeerWorld.network :=
    ⟨hfetched, rfl, fun hactive => (by cases hactive), fun byte => (by simp [hsupply])⟩
  obtain ⟨hpc, -, hmemory⟩ := hhalted .inputExhausted (hexhausted.mpr hdry)
  exact ⟨hsupply, hexhausted.mpr hdry, hconnected rfl (Or.inl hfetched), hpc, hmemory⟩

end Machine
end RingTape
