import RingTape.Network.Peers
import RingTape.Proofs.Instructions
import RingTape.Proofs.SinkContract

/-!
# A failed step can be repeated

Only the console can fail a step, and it does so before the step has changed
anything the program can notice.  `step_of_failed` says all that a failed step has
done: it has counted itself, the network may have seen a dial, and the console has
refused a flush or has taken only a first part of what the step was writing.

So a failed step leaves the same instruction to be executed again
(`Undisturbed`), and over any number of steps, however many of them fail, the bytes
that writing puts on the console are those of its successful steps, once each
(`gain_of_write`).
-/

namespace RingTape
namespace Machine

variable {World Link : Type} {net : Network World Link} {m : Machine World Link}
  {failure : Failure}

/-! ## What fails -/

theorem eq_error_of_proceed {width : UInt16} {result : Except Fault Unit}
    {events : List (Event Link)} (h : (m.proceed width result events).outcome = .failed failure) :
    ∃ fault, failure = .output fault ∧ result = .error fault := by
  cases result with
  | ok => cases h
  | error fault =>
    cases h
    exact ⟨fault, rfl, rfl⟩

theorem stepStray_of_failed {cell : UInt8} (h : (m.stepStray cell).outcome = .failed failure) :
    ∃ fault console, failure = .output fault ∧
      (m.stepStray cell).machine = { m with console := console } ∧
      m.console.write (Text.utf8 strayCellText.toList) = (.error fault, console) := by
  rcases hwrite : m.console.write (Text.utf8 strayCellText.toList) with ⟨result, console⟩
  rw [stepStray_offered hwrite] at h ⊢
  obtain ⟨fault, hfailure, rfl⟩ := eq_error_of_proceed h
  exact ⟨fault, console, hfailure, rfl, rfl⟩

theorem stepWrite_of_failed (h : (m.stepWrite net).outcome = .failed failure) :
    ∃ fault console, failure = .output fault ∧
      (m.stepWrite net).machine = { m with console := console } ∧
      m.console.write [m.current] = (.error fault, console) := by
  cases hactive : m.active with
  | some connection =>
    rw [stepWrite_connected hactive] at h
    cases h
  | none =>
    rcases hwrite : m.console.write [m.current] with ⟨result, console⟩
    rw [stepWrite_offered hactive hwrite] at h ⊢
    obtain ⟨fault, hfailure, rfl⟩ := eq_error_of_proceed h
    exact ⟨fault, console, hfailure, by rw [hactive]; rfl, rfl⟩

/-- What is read, or that nothing is, fails no step. -/
theorem takeReading_outcome_ne_failed (reading : Reading) (events : List (Event Link)) :
    (m.takeReading reading events).outcome ≠ .failed failure := by
  unfold takeReading
  split
  · exact Outcome.noConfusion
  · split <;> exact Outcome.noConfusion

theorem stepRead_of_failed (h : (m.stepRead net).outcome = .failed failure) :
    ∃ fault console, failure = .output fault ∧
      (m.stepRead net).machine = { m with console := console } ∧
      m.console.flush = (.error fault, console) := by
  cases hactive : m.active with
  | some connection =>
    rw [stepRead_connected hactive] at h
    exact absurd h (takeReading_outcome_ne_failed _ _)
  | none =>
    rcases hflush : m.console.flush with ⟨result, console⟩
    cases result with
    | ok =>
      rw [stepRead_flushed hactive hflush] at h
      exact absurd h (takeReading_outcome_ne_failed _ _)
    | error fault =>
      rw [stepRead_unflushed hactive hflush] at h ⊢
      cases h
      exact ⟨fault, console, rfl, by rw [hactive], rfl⟩

theorem stepConnect_of_failed (h : (m.stepConnect net).outcome = .failed failure) :
    ∃ fault console world, failure = .output fault ∧
      (m.stepConnect net).machine = { m with console := console, world := world } ∧
      m.console.write (Text.utf8 noConnectionText.toList) = (.error fault, console) := by
  rcases hdial : dialFirst net (Endpoint.ofMemory m.memory m.head) m.settings.dial
    m.settings.transports m.world with ⟨outcome, world⟩
  cases hreached : outcome.reached with
  | some connection =>
    rw [stepConnect_reached hdial hreached] at h
    cases h
  | none =>
    rcases hwrite : m.console.write (Text.utf8 noConnectionText.toList) with ⟨result, console⟩
    rw [stepConnect_offered hdial hreached hwrite] at h ⊢
    obtain ⟨fault, hfailure, rfl⟩ := eq_error_of_proceed h
    exact ⟨fault, console, world, hfailure, rfl, rfl⟩

theorem jumpPast_outcome (dir : Direction) : (m.jumpPast dir).outcome = .continued := by
  unfold jumpPast
  split <;> rfl

/-- **All that a failed step has done.**  The step is counted, and then either a flush
failed, for an instruction that reads, or a write of what the instruction offers. -/
theorem step_of_failed (h : (m.step net).outcome = .failed failure) :
    ∃ fault console world, failure = .output fault ∧ (m.step net).machine =
        { m.counted m.fetched with console := console, world := world } ∧
      (m.fetched = some .read ∧ m.console.flush = (.error fault, console) ∨
        m.fetched ≠ some .read ∧ m.console.write m.offering = (.error fault, console)) := by
  cases hfetched : m.fetched with
  | none =>
    rw [step_of_fetched_none hfetched] at h ⊢
    obtain ⟨fault, console, hfailure, hmachine, hwrite⟩ := stepStray_of_failed h
    refine ⟨fault, console, m.world, hfailure, hmachine, Or.inr ⟨by decide, ?_⟩⟩
    rw [offering, hfetched]
    exact hwrite
  | some op =>
    rw [step_of_fetched_some hfetched] at h ⊢
    cases op with
    | write =>
      obtain ⟨fault, console, hfailure, hmachine, hwrite⟩ := stepWrite_of_failed h
      refine ⟨fault, console, m.world, hfailure, hmachine, Or.inr ⟨by decide, ?_⟩⟩
      rw [offering, hfetched]
      exact hwrite
    | read =>
      obtain ⟨fault, console, hfailure, hmachine, hflush⟩ := stepRead_of_failed h
      exact ⟨fault, console, m.world, hfailure, hmachine, Or.inl ⟨rfl, hflush⟩⟩
    | connect =>
      obtain ⟨fault, console, world, hfailure, hmachine, hwrite⟩ := stepConnect_of_failed h
      refine ⟨fault, console, world, hfailure, hmachine, Or.inr ⟨by decide, ?_⟩⟩
      rw [offering, hfetched]
      exact hwrite
    | opening =>
      rw [execute] at h
      split at h
      · rw [jumpPast_outcome] at h
        cases h
      · cases h
    | closing =>
      rw [execute] at h
      split at h
      · cases h
      · rw [jumpPast_outcome] at h
        cases h
    | nop | forward | backward | increment | decrement | finish => cases h

/-- `t` differs from `m` at most in its counters, in what its console has written, and
in the state of the network. -/
structure Undisturbed (m t : Machine World Link) : Prop where
  memory : t.memory = m.memory
  pc : t.pc = m.pc
  head : t.head = m.head
  active : t.active = m.active
  superseded : t.superseded = m.superseded
  settings : t.settings = m.settings
  stop : t.stop = m.stop
  input : t.console.input = m.console.input

namespace Undisturbed

variable {t u : Machine World Link}

theorem refl (m : Machine World Link) : m.Undisturbed m :=
  ⟨rfl, rfl, rfl, rfl, rfl, rfl, rfl, rfl⟩

theorem trans (h : m.Undisturbed t) (h' : t.Undisturbed u) : m.Undisturbed u where
  memory := h'.memory.trans h.memory
  pc := h'.pc.trans h.pc
  head := h'.head.trans h.head
  active := h'.active.trans h.active
  superseded := h'.superseded.trans h.superseded
  settings := h'.settings.trans h.settings
  stop := h'.stop.trans h.stop
  input := h'.input.trans h.input

theorem fetched (h : m.Undisturbed t) : t.fetched = m.fetched := by
  rw [Machine.fetched, Machine.fetched, h.memory, h.pc]

theorem offering (h : m.Undisturbed t) : t.offering = m.offering := by
  unfold Machine.offering current
  rw [h.fetched, h.memory, h.head]

end Undisturbed

/-- **A failed step disturbs nothing.** -/
theorem undisturbed_of_failed (h : (m.step net).outcome = .failed failure) :
    m.Undisturbed (m.step net).machine := by
  obtain ⟨fault, console, world, -, hmachine, hcause⟩ := step_of_failed h
  have hinput : console.input = m.console.input := by
    rcases hcause with ⟨-, hflush⟩ | ⟨-, hwrite⟩
    · rw [← m.console.input_flush, hflush]
    · exact (Console.write_contract hwrite).1
  rw [hmachine]
  exact ⟨rfl, rfl, rfl, rfl, rfl, rfl, rfl, hinput⟩

/-- However often it fails, the same instruction is there to be executed again. -/
theorem undisturbed_after_failures (n : Nat)
    (h : ∀ i, i < n → ∃ failure, ((m.after net i).step net).outcome = .failed failure) :
    m.Undisturbed (m.after net n) := by
  induction n with
  | zero => exact .refl m
  | succ n ih =>
    obtain ⟨failure, hfailed⟩ := h n (Nat.lt_succ_self n)
    exact (ih fun i hi => h i (Nat.lt_succ_of_lt hi)).trans (undisturbed_of_failed hfailed)

/-! ## Counters -/

theorem steps_counted (op : Option Opcode) (h : m.steps < countMax) :
    (m.counted op).steps.toNat = m.steps.toNat + 1 := by
  have hroom := UInt64.lt_iff_toNat_lt.mp h
  have hmax : countMax.toNat = 18446744073709551615 := rfl
  rw [counted, UInt64.toNat_add]
  exact Nat.mod_eq_of_lt (show m.steps.toNat + 1 < 18446744073709551616 from by omega)

/-- Counting a step raises one slot of the profile by one and no other. -/
theorem profile_counted (op slot : Option Opcode) (h : m.profile.get op < countMax) :
    ((m.counted op).profile.get slot).toNat =
      (m.profile.get slot).toNat + if op = slot then 1 else 0 := by
  have hroom := UInt64.lt_iff_toNat_lt.mp h
  rw [counted, Profile.record, Profile.get_recordMany]
  by_cases hslot : op = slot
  · subst hslot
    rw [if_pos rfl, if_pos rfl, toNat_saturatingAdd]
    exact Nat.min_eq_left hroom
  · rw [if_neg hslot, if_neg hslot, Nat.add_zero]

/-! ## What reaches the console -/

section Console

variable (net : Network World Link) (m : Machine World Link)

theorem console_takeReading (reading : Reading) (events : List (Event Link)) :
    (m.takeReading reading events).machine.console = m.console := by
  unfold takeReading
  split
  · rfl
  · split <;> rfl

theorem console_jumpPast (dir : Direction) : (m.jumpPast dir).machine.console = m.console := by
  unfold jumpPast
  split <;> rfl

theorem console_adopt (connection : Connection Link) :
    (m.adopt connection).console = m.console := by
  unfold adopt
  split <;> rfl

theorem console_proceed (width : UInt16) (result : Except Fault Unit)
    (events : List (Event Link)) : (m.proceed width result events).machine.console = m.console := by
  cases result <;> rfl

theorem console_stepStray (cell : UInt8) : (m.stepStray cell).machine.console =
    (m.console.write (Text.utf8 strayCellText.toList)).2 := by
  rcases hwrite : m.console.write (Text.utf8 strayCellText.toList) with ⟨result, console⟩
  rw [stepStray_offered hwrite, console_proceed]

theorem console_stepWrite : (m.stepWrite net).machine.console =
    match m.active with
    | some _ => m.console
    | none => (m.console.write [m.current]).2 := by
  cases hactive : m.active with
  | some connection =>
    rw [stepWrite_connected hactive]
    rfl
  | none =>
    rcases hwrite : m.console.write [m.current] with ⟨result, console⟩
    rw [stepWrite_offered hactive hwrite, console_proceed]

theorem console_stepRead : (m.stepRead net).machine.console = m.console ∨
    (m.stepRead net).machine.console = m.console.flush.2 ∨
    (m.stepRead net).machine.console = m.console.flush.2.readByte.2 := by
  cases hactive : m.active with
  | some connection =>
    rw [stepRead_connected hactive, console_takeReading]
    exact Or.inl rfl
  | none =>
    rcases hflush : m.console.flush with ⟨result, console⟩
    cases result with
    | ok =>
      rw [stepRead_flushed hactive hflush, console_takeReading]
      exact Or.inr (Or.inr rfl)
    | error reason =>
      rw [stepRead_unflushed hactive hflush]
      exact Or.inr (Or.inl rfl)

theorem console_stepConnect : (m.stepConnect net).machine.console = m.console ∨
    (m.stepConnect net).machine.console =
      (m.console.write (Text.utf8 noConnectionText.toList)).2 := by
  rcases hdial : dialFirst net (Endpoint.ofMemory m.memory m.head) m.settings.dial
    m.settings.transports m.world with ⟨outcome, world⟩
  cases hreached : outcome.reached with
  | some connection =>
    rw [stepConnect_reached hdial hreached]
    exact Or.inl (console_adopt _ connection)
  | none =>
    rcases hwrite : m.console.write (Text.utf8 noConnectionText.toList) with ⟨result, console⟩
    rw [stepConnect_offered hdial hreached hwrite, console_proceed]
    exact Or.inr rfl

/-- **What a step does with its console**: nothing, or one write of what the
instruction offers, or a flush, or a flush and a read. -/
theorem console_step : (m.step net).machine.console = m.console ∨
    (m.step net).machine.console = (m.console.write m.offering).2 ∨
    (m.step net).machine.console = m.console.flush.2 ∨
    (m.step net).machine.console = m.console.flush.2.readByte.2 := by
  cases hfetched : m.fetched with
  | none =>
    rw [step_of_fetched_none hfetched, console_stepStray, offering, hfetched]
    exact Or.inr (Or.inl rfl)
  | some op =>
    rw [step_of_fetched_some hfetched]
    cases op with
    | write =>
      rw [execute, console_stepWrite, offering, hfetched]
      split
      · exact Or.inl rfl
      · exact Or.inr (Or.inl rfl)
    | read =>
      rcases console_stepRead net (m.counted (some .read)) with h | h | h
      · exact Or.inl h
      · exact Or.inr (Or.inr (Or.inl h))
      · exact Or.inr (Or.inr (Or.inr h))
    | connect =>
      rw [offering, hfetched]
      rcases console_stepConnect net (m.counted (some .connect)) with h | h
      · exact Or.inl h
      · exact Or.inr (Or.inl h)
    | opening =>
      rw [execute]
      split
      · exact Or.inl (console_jumpPast _ .forward)
      · exact Or.inl rfl
    | closing =>
      rw [execute]
      split
      · exact Or.inl rfl
      · exact Or.inl (console_jumpPast _ .backward)
    | nop | forward | backward | increment | decrement | finish => exact Or.inl rfl

end Console

/-! ## Histories -/

/-- What a step adds to the writing on the console. -/
def gain (net : Network World Link) (m : Machine World Link) : List UInt8 :=
  (m.step net).machine.console.written.drop m.console.written.length

/-- The byte that a step has put on the console by executing a write to its end. -/
def delivered (net : Network World Link) (m : Machine World Link) : Option UInt8 :=
  if m.fetched = some .write ∧ m.active.isNone ∧ (m.step net).outcome = .continued then
    some m.current
  else none

/-- A step only adds to what is written. -/
theorem written_step : (m.step net).machine.console.written = m.console.written ++ m.gain net := by
  have hgrows : m.console.written <+: (m.step net).machine.console.written := by
    rcases console_step net m with h | h | h | h
    · exact ⟨[], by rw [h, List.append_nil]⟩
    · rcases hwrite : m.console.write m.offering with ⟨result, console⟩
      obtain ⟨-, gained, -, -, hwritten, -⟩ := Console.write_contract hwrite
      exact ⟨gained, by rw [h, hwrite, hwritten]⟩
    · exact ⟨[], by rw [h, Console.written_flush, List.append_nil]⟩
    · exact ⟨[], by rw [h, Console.written_readByte, Console.written_flush, List.append_nil]⟩
  obtain ⟨gained, hgained⟩ := hgrows
  rw [gain, ← hgained, List.drop_left]

theorem gain_eq {gained : List UInt8}
    (h : (m.step net).machine.console.written = m.console.written ++ gained) :
    m.gain net = gained :=
  List.append_cancel_left (written_step.symm.trans h)

/-- **What is written after a number of steps** is what was written before and the gains
of the steps, in order. -/
theorem written_after (n : Nat) : (m.after net n).console.written =
    m.console.written ++ (List.range n).flatMap fun i => (m.after net i).gain net := by
  induction n with
  | zero => exact (List.append_nil _).symm
  | succ n ih =>
    rw [after, written_step, ih, List.range_succ, List.flatMap_append, List.append_assoc,
      List.flatMap_singleton]

/-- **Writing puts its byte on the console or nothing at all**: the byte if the step
succeeds without a connection. -/
theorem gain_of_write (h : m.fetched = some .write) : m.gain net = (m.delivered net).toList := by
  apply gain_eq
  unfold delivered
  rw [step_of_fetched_some h, execute, h]
  cases hactive : m.active with
  | some connection =>
    rw [stepWrite_connected (m := m.counted (some .write)) hactive]
    exact (List.append_nil _).symm
  | none =>
    rcases hwrite : m.console.write [m.current] with ⟨result, console⟩
    obtain ⟨-, gained, pending, hsplit, hwritten, hok⟩ := Console.write_contract hwrite
    rw [stepWrite_offered (m := m.counted (some .write)) hactive hwrite]
    cases result with
    | ok =>
      rw [hok.mp rfl, List.append_nil] at hsplit
      rw [hsplit] at hwritten
      exact hwritten
    | error reason =>
      -- a single byte has no proper first part but the empty one
      have hgained : gained = [] := by
        rcases List.append_eq_singleton_iff.mp hsplit with ⟨hnil, -⟩ | ⟨-, hnil⟩
        · exact hnil
        · cases hok.mpr hnil
      rw [hgained] at hwritten
      exact hwritten

theorem delivered_of_fetched_ne (h : m.fetched ≠ some .write) : m.delivered net = none :=
  if_neg fun hcond => h hcond.1

/-- Over any number of steps, the gains of the writes are the bytes delivered. -/
theorem gains_of_writes (n : Nat) :
    ((List.range n).filter fun i => (m.after net i).fetched = some .write).flatMap
        (fun i => (m.after net i).gain net) =
      (List.range n).filterMap fun i => (m.after net i).delivered net := by
  induction n with
  | zero => rfl
  | succ n ih =>
    rw [List.range_succ, List.filter_append, List.flatMap_append, ih, List.filterMap_append]
    refine congrArg (_ ++ ·) ?_
    by_cases h : (m.after net n).fetched = some .write
    · rw [List.filter_cons_of_pos (by simpa using h), List.filter_nil, List.flatMap_singleton,
        gain_of_write h]
      cases hbyte : (m.after net n).delivered net <;> simp [hbyte]
    · rw [List.filter_cons_of_neg (by simpa using h), List.filter_nil]
      simp [delivered_of_fetched_ne h]

/-! ## Atomicity -/

/-- **What a failed step has put on the console** is a first part of what it was writing
and not all of it; an instruction that writes a single byte, or that reads, has put
nothing there. -/
theorem gain_of_failed (h : (m.step net).outcome = .failed failure) :
    m.gain net <+: m.offering ∧ (m.fetched ≠ some .read → m.gain net ≠ m.offering) ∧
      (m.fetched = some .write ∨ m.fetched = some .read → m.gain net = []) := by
  obtain ⟨fault, console, world, -, hmachine, ⟨hread, hflush⟩ | ⟨hread, hwrite⟩⟩ :=
    step_of_failed h
  · have hgain : m.gain net = [] := by
      apply gain_eq
      rw [hmachine, List.append_nil, ← m.console.written_flush, hflush]
    rw [hgain]
    exact ⟨List.nil_prefix, fun hne => absurd hread hne, fun _ => rfl⟩
  · obtain ⟨-, gained, pending, hsplit, hwritten, hok⟩ := Console.write_contract hwrite
    have hgain : m.gain net = gained := by
      apply gain_eq
      rw [hmachine, hwritten]
    have hproper : gained ≠ m.offering := by
      intro hall
      rw [hall] at hsplit
      cases hok.mpr (List.append_right_eq_self.mp hsplit)
    rw [hgain]
    refine ⟨⟨pending, hsplit⟩, fun _ => hproper, ?_⟩
    rintro (hfetched | hfetched)
    · rw [← hgain, gain_of_write hfetched, delivered, if_neg]
      · rfl
      · rintro ⟨-, -, hcontinued⟩
        rw [h] at hcontinued
        cases hcontinued
    · exact absurd hfetched hread

/-- **A failed step is atomic.**  It leaves everything but the counters, the writing on
the console and the network as it was, and is counted once; the console has gained a
proper first part of what the step was writing.  However often a step fails, the same
instruction is executed next; and over any number of steps, failed or not, the
console gains what its steps add in order, of which the part added by writes is the
byte of each write that succeeded without a connection, once each. -/
theorem failed_step_atomic (net : Network World Link) (m : Machine World Link) :
    (∀ failure, (m.step net).outcome = .failed failure →
      m.Undisturbed (m.step net).machine ∧
      (m.steps < countMax → (m.step net).machine.steps.toNat = m.steps.toNat + 1) ∧
      (m.profile.get m.fetched < countMax → ∀ slot,
        ((m.step net).machine.profile.get slot).toNat =
          (m.profile.get slot).toNat + if m.fetched = slot then 1 else 0) ∧
      (m.step net).machine.console.written = m.console.written ++ m.gain net ∧
      m.gain net <+: m.offering ∧ (m.fetched ≠ some .read → m.gain net ≠ m.offering) ∧
      (m.fetched = some .write ∨ m.fetched = some .read → m.gain net = [])) ∧
    (∀ n, (∀ i, i < n → ∃ failure, ((m.after net i).step net).outcome = .failed failure) →
      m.Undisturbed (m.after net n) ∧ (m.after net n).fetched = m.fetched ∧
        (m.after net n).offering = m.offering) ∧
    ∀ n, (m.after net n).console.written =
        m.console.written ++ (List.range n).flatMap (fun i => (m.after net i).gain net) ∧
      ((List.range n).filter fun i => (m.after net i).fetched = some .write).flatMap
          (fun i => (m.after net i).gain net) =
        (List.range n).filterMap fun i => (m.after net i).delivered net := by
  refine ⟨fun failure h => ?_, fun n h => ?_, fun n => ⟨written_after n, gains_of_writes n⟩⟩
  · obtain ⟨fault, console, world, -, hmachine, -⟩ := step_of_failed h
    refine ⟨undisturbed_of_failed h, fun hroom => ?_, fun hroom slot => ?_, written_step,
      gain_of_failed h⟩
    · rw [hmachine]
      exact steps_counted m.fetched hroom
    · rw [hmachine]
      exact profile_counted m.fetched slot hroom
  · have hsame := undisturbed_after_failures n h
    exact ⟨hsame, hsame.fetched, hsame.offering⟩

/-- A machine about to write a zero on a console whose first call fails. -/
def refusedOnce : Machine PeerWorld Nat :=
  .load (.ofBytes [Opcode.write.code])
    (.new [] { mishap := fun i => if i = 0 then some (.fails .broken) else none })
    (.ofPeers .isolated []) {}

/-- The write fails, leaves nothing behind but its count, and is there to be executed
again. -/
theorem failed_step_atomic_refusedOnce :
    (refusedOnce.step PeerWorld.network).outcome = .failed (.output .broken) ∧
      refusedOnce.Undisturbed (refusedOnce.step PeerWorld.network).machine ∧
      (refusedOnce.step PeerWorld.network).machine.steps.toNat = 1 ∧
      refusedOnce.gain PeerWorld.network = [] ∧
      (refusedOnce.after PeerWorld.network 1).fetched = some .write := by
  have hfetched : refusedOnce.fetched = some .write := by
    have hcell : refusedOnce.memory.get refusedOnce.pc = Opcode.write.code :=
      Memory.get_set_self _ _ _
    rw [fetched, hcell]
    decide
  have hfails : (refusedOnce.step PeerWorld.network).outcome = .failed (.output .broken) := by
    rcases hwrite : refusedOnce.console.write [refusedOnce.current] with ⟨result, console⟩
    have hresult : (refusedOnce.console.write [refusedOnce.current]).1 = .error .broken := by
      simp [refusedOnce, load, Console.new, Console.write, Sink.writeAll, Sink.offer, Sink.ofRules,
        Sink.misfortune]
    rw [hwrite] at hresult
    subst hresult
    rw [step_of_fetched_some hfetched, execute,
      stepWrite_offered (m := refusedOnce.counted (some .write)) rfl hwrite]
    rfl
  obtain ⟨hatomic, hretry, -⟩ := failed_step_atomic PeerWorld.network refusedOnce
  obtain ⟨hsame, hsteps, -, -, -, -, hgain⟩ := hatomic (.output .broken) hfails
  have hagain := hretry 1 fun i hi => ⟨.output .broken, by rw [Nat.lt_one_iff.mp hi]; exact hfails⟩
  exact ⟨hfails, hsame, hsteps (by decide), hgain (Or.inl hfetched), hagain.2.1.trans hfetched⟩

end Machine
end RingTape
