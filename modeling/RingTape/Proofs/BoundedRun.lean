import RingTape.Network.Peers
import RingTape.Proofs.Bookkeeping
import RingTape.Proofs.StepOutcome
import RingTape.Proofs.Turns

/-!
# A bounded run is a prefix of a longer one

The limit on steps is looked at between steps and never by one.  So a machine with
another limit takes the same steps (`step_limitedTo`), and two machines that differ in
the limit alone part only where the smaller limit stops one of them.

Until then their turns agree.  If the run with the smaller limit ends in any other way,
the other run ends with it, in the same state (`takeTurns_limitedTo`).  If it stops at
its limit, it has made exactly the steps that it had room for, all of them continued,
and the other run begins with the same steps.  The last step there is room for is made
before the limit is looked at again, so a halt in it is the halt of the run.
-/

namespace RingTape

variable {World Link : Type}

/-- The machine with another limit on steps. -/
def Machine.limitedTo (limit : Option UInt64) (m : Machine World Link) : Machine World Link :=
  { m with settings := { m.settings with maxSteps := limit } }

/-- The result of a step with another limit in the machine. -/
def Transition.limitedTo (limit : Option UInt64) (t : Transition World Link) :
    Transition World Link :=
  { t with machine := t.machine.limitedTo limit }

/-- The result of a run with another limit in the machine. -/
def RunReport.limitedTo (limit : Option UInt64) (r : RunReport World Link) :
    RunReport World Link :=
  { r with machine := r.machine.limitedTo limit }

namespace Machine

/-! ## No step looks at the limit -/

section Steps

variable (net : Network World Link) (limit : Option UInt64) (m : Machine World Link)

theorem proceed_limitedTo (width : UInt16) (result : Except Fault Unit)
    (events : List (Event Link)) :
    (m.limitedTo limit).proceed width result events =
      (m.proceed width result events).limitedTo limit := by
  cases result <;> rfl

theorem takeReading_limitedTo (reading : Reading) (events : List (Event Link)) :
    (m.limitedTo limit).takeReading reading events =
      (m.takeReading reading events).limitedTo limit := by
  unfold takeReading
  rw [show (m.limitedTo limit).settings.onEnd = m.settings.onEnd from rfl]
  split
  · rfl
  · split <;> rfl

theorem jumpPast_limitedTo (dir : Direction) :
    (m.limitedTo limit).jumpPast dir = (m.jumpPast dir).limitedTo limit := by
  unfold jumpPast
  rw [show (m.limitedTo limit).memory.matchingBracket (m.limitedTo limit).pc dir =
    m.memory.matchingBracket m.pc dir from rfl]
  split <;> rfl

theorem stepStray_limitedTo (cell : UInt8) :
    (m.limitedTo limit).stepStray cell = (m.stepStray cell).limitedTo limit := by
  rcases hwrite : m.console.write (Text.utf8 strayCellText.toList) with ⟨result, console⟩
  rw [stepStray_offered hwrite, stepStray_offered (m := m.limitedTo limit) hwrite,
    ← proceed_limitedTo]
  rfl

theorem stepWrite_limitedTo :
    (m.limitedTo limit).stepWrite net = (m.stepWrite net).limitedTo limit := by
  rcases m.active.eq_none_or_eq_some with hactive | ⟨connection, hactive⟩
  · rcases hwrite : m.console.write [m.current] with ⟨result, console⟩
    rw [stepWrite_offered hactive hwrite,
      stepWrite_offered (m := m.limitedTo limit) hactive hwrite, ← proceed_limitedTo]
    rfl
  · rw [stepWrite_connected hactive, stepWrite_connected (m := m.limitedTo limit) hactive]
    rfl

theorem stepRead_limitedTo :
    (m.limitedTo limit).stepRead net = (m.stepRead net).limitedTo limit := by
  rcases m.active.eq_none_or_eq_some with hactive | ⟨connection, hactive⟩
  · rcases hflush : m.console.flush with ⟨fault | _, console⟩
    · rw [stepRead_unflushed hactive hflush,
        stepRead_unflushed (m := m.limitedTo limit) hactive hflush]
      rfl
    · rw [stepRead_flushed hactive hflush,
        stepRead_flushed (m := m.limitedTo limit) hactive hflush, ← takeReading_limitedTo]
      rfl
  · rw [stepRead_connected hactive, stepRead_connected (m := m.limitedTo limit) hactive,
      ← takeReading_limitedTo]
    rfl

theorem adopt_limitedTo (connection : Connection Link) :
    (m.limitedTo limit).adopt connection = (m.adopt connection).limitedTo limit := by
  unfold adopt
  rw [show (m.limitedTo limit).active = m.active from rfl]
  split <;> rfl

theorem stepConnect_limitedTo :
    (m.limitedTo limit).stepConnect net = (m.stepConnect net).limitedTo limit := by
  rcases hdial : dialFirst net (Endpoint.ofMemory m.memory m.head) m.settings.dial
    m.settings.transports m.world with ⟨outcome, world⟩
  cases hreached : outcome.reached with
  | some connection =>
    have hadopt := adopt_limitedTo limit { m with world := world } connection
    rw [stepConnect_reached hdial hreached,
      stepConnect_reached (m := m.limitedTo limit) hdial hreached]
    exact congrArg (fun t : Machine World Link =>
      t.goOn 1 (.effect (.dialled outcome) :: m.supersedingEvents)) hadopt
  | none =>
    rcases hwrite : m.console.write (Text.utf8 noConnectionText.toList) with ⟨result, console⟩
    rw [stepConnect_offered hdial hreached hwrite,
      stepConnect_offered (m := m.limitedTo limit) hdial hreached hwrite, ← proceed_limitedTo]
    rfl

theorem execute_limitedTo (op : Opcode) :
    (m.limitedTo limit).execute net op = (m.execute net op).limitedTo limit := by
  cases op with
  | write => exact stepWrite_limitedTo net limit m
  | read => exact stepRead_limitedTo net limit m
  | connect => exact stepConnect_limitedTo net limit m
  | opening =>
    rw [execute, execute, show (m.limitedTo limit).current = m.current from rfl]
    split
    · exact jumpPast_limitedTo limit m .forward
    · rfl
  | closing =>
    rw [execute, execute, show (m.limitedTo limit).current = m.current from rfl]
    split
    · rfl
    · exact jumpPast_limitedTo limit m .backward
  | nop | forward | backward | increment | decrement | finish => rfl

/-- **No step looks at the limit.** -/
theorem step_limitedTo : (m.limitedTo limit).step net = (m.step net).limitedTo limit := by
  cases hfetched : m.fetched with
  | none =>
    rw [step_of_fetched_none hfetched, step_of_fetched_none (m := m.limitedTo limit) hfetched]
    exact stepStray_limitedTo limit (m.counted none) _
  | some op =>
    rw [step_of_fetched_some hfetched, step_of_fetched_some (m := m.limitedTo limit) hfetched]
    exact execute_limitedTo net limit (m.counted (some op)) op

theorem after_limitedTo (n : Nat) :
    (m.limitedTo limit).after net n = (m.after net n).limitedTo limit := by
  induction n with
  | zero => rfl
  | succ n ih =>
    rw [after, after, ih, step_limitedTo]
    rfl

variable {net m} in
theorem Continues.limitedTo {n : Nat} (h : m.Continues net n) :
    (m.limitedTo limit).Continues net n := by
  intro i hi
  rw [after_limitedTo, step_limitedTo]
  exact h i hi

theorem lastFlush_limitedTo (reason : Halt) (events : List (Event Link)) :
    (m.limitedTo limit).lastFlush reason events =
      (m.lastFlush reason events).limitedTo limit := by
  rcases hflush : m.console.flush with ⟨result, console⟩
  rw [lastFlush_answered hflush, lastFlush_answered (m := m.limitedTo limit) hflush]
  rfl

theorem hangUp_limitedTo : (m.limitedTo limit).hangUp net =
    ((m.hangUp net).1.limitedTo limit, (m.hangUp net).2) := by
  unfold hangUp
  rw [show (m.limitedTo limit).active = m.active from rfl]
  split <;> rfl

/-- No cleanup looks at the limit. -/
theorem finish_limitedTo (reason : Halt) :
    (m.limitedTo limit).finish net reason = (m.finish net reason).limitedTo limit := by
  by_cases hreason : reason = .finished
  · rcases hwrite : m.console.write [0x0a] with ⟨fault | _, console⟩
    · rw [finish_unmarked hreason hwrite, finish_unmarked (m := m.limitedTo limit) hreason hwrite,
        hangUp_limitedTo]
      rfl
    · rw [finish_marked hreason hwrite, finish_marked (m := m.limitedTo limit) hreason hwrite,
        hangUp_limitedTo, ← lastFlush_limitedTo]
      rfl
  · rw [finish_unwritten (m := m.limitedTo limit) hreason, finish_unwritten (m := m) hreason,
      hangUp_limitedTo, lastFlush_limitedTo]

end Steps

theorem cleaned_limitedTo (net : Network World Link) (limit : Option UInt64)
    (r : RunReport World Link) : (r.limitedTo limit).cleaned net =
      (r.cleaned net).limitedTo limit := by
  rcases r with ⟨reason | failure | _, m, events⟩
  · simp only [RunReport.cleaned, RunReport.limitedTo, finish_limitedTo]
  · rfl
  · rfl

/-! ## Turns until the smaller limit -/

variable {net : Network World Link} {m : Machine World Link} {limit : UInt64}
  {other : Option UInt64}

/-- A larger limit is not reached before a smaller one. -/
theorem limitReached_limitedTo (hlimit : m.settings.maxSteps = some limit)
    (hother : ∀ n, other = some n → limit ≤ n) (h : m.limitReached = false) :
    (m.limitedTo other).limitReached = false := by
  simp only [limitReached, hlimit, decide_eq_false_iff_not, UInt64.not_le] at h
  cases other with
  | none => rfl
  | some n =>
    have hlt := UInt64.lt_of_lt_of_le h (hother n rfl)
    exact decide_eq_false (UInt64.not_le.mpr hlt)

/-- **Turns that do not stop at the limit are the turns under any larger limit.** -/
theorem takeTurns_limitedTo (hlimit : m.settings.maxSteps = some limit)
    (hother : ∀ n, other = some n → limit ≤ n) {flag : Nat → Bool} {turns look : Nat}
    {events : Array (Event Link)}
    (h : (takeTurns net flag turns look m events).ending ≠ .halted .stepLimit) :
    takeTurns net flag turns look (m.limitedTo other) events =
      (takeTurns net flag turns look m events).limitedTo other := by
  induction turns generalizing look m events with
  | zero => rfl
  | succ turns ih =>
    cases hflag : flag look with
    | true =>
      rw [takeTurns_raised hflag, takeTurns_raised hflag]
      rfl
    | false =>
      cases hreached : m.limitReached with
      | true =>
        rw [takeTurns_limited hflag hreached] at h
        exact absurd rfl h
      | false =>
        rw [takeTurns_stepped hflag hreached] at h ⊢
        rw [takeTurns_stepped hflag (limitReached_limitedTo hlimit hother hreached),
          step_limitedTo]
        -- both machines made the same step, and neither limit has changed in it
        simp only [Transition.limitedTo]
        cases hstep : (m.step net).outcome with
        | continued =>
          simp only [hstep] at h
          exact ih ((settings_step net m).symm ▸ hlimit) h
        | halted reason => rfl
        | failed failure => rfl

/-! ## Room for steps -/

/-- The machine can make `k` steps before it reaches its limit. -/
def HasRoom (m : Machine World Link) (k : Nat) : Prop :=
  ∀ n, m.settings.maxSteps = some n → m.steps.toNat + k ≤ n.toNat

/-- The steps that a machine has room for until it reaches a limit. -/
def roomTo (limit : UInt64) (m : Machine World Link) : Nat :=
  limit.toNat - m.steps.toNat

/-- As long as there is room for steps, the limit is not reached. -/
theorem HasRoom.limitReached_after {k i : Nat} (hroom : m.HasRoom k) (hi : i < k) :
    (m.after net i).limitReached = false := by
  unfold limitReached
  rw [settings_after]
  split
  · rfl
  · rename_i n hn
    have hk := hroom n hn
    have hn := n.toNat_lt
    have hcount := steps_after net m (n := i) (by rw [UInt64.size]; omega)
    rw [decide_eq_false_iff_not, UInt64.le_iff_toNat_le, hcount]
    omega

/-- A run under a clear flag goes on through steps that continue and that there is room
for. -/
theorem Continues.goes {k : Nat} (h : m.Continues net k) (hstop : m.stop = false)
    (hroom : m.HasRoom k) : m.Goes net (fun _ => m.stop) 0 k :=
  ⟨fun _ _ => hstop, fun _ hi => hroom.limitReached_after hi, h⟩

/-- No step reports that the limit is reached. -/
theorem step_outcome_ne_stepLimit (net : Network World Link) (m : Machine World Link) :
    (m.step net).outcome ≠ .halted .stepLimit := by
  intro h
  have hverdict := (step_conduct net m).verdict
  rw [h] at hverdict
  rcases hverdict with ⟨-, h⟩ | ⟨-, h⟩ | ⟨_, -, h⟩ | ⟨-, -, -, h⟩ <;> cases h

/-- The first step that does not continue is the only one of its kind. -/
theorem Continues.unique {i j : Nat} (hi : m.Continues net i) (hj : m.Continues net j)
    (hstopi : ((m.after net i).step net).outcome ≠ .continued)
    (hstopj : ((m.after net j).step net).outcome ≠ .continued) : i = j := by
  rcases Nat.lt_trichotomy i j with hlt | rfl | hlt
  · exact absurd (hj i hlt) hstopi
  · rfl
  · exact absurd (hi j hlt) hstopj

section Bounded

variable (hsteps : m.steps ≤ limit)
include hsteps

theorem steps_add_roomTo : m.steps.toNat + m.roomTo limit = limit.toNat :=
  Nat.add_sub_of_le (UInt64.le_iff_toNat_le.mp hsteps)

theorem roomTo_lt_turnsLeft : m.roomTo limit < m.turnsLeft := by
  have hroom := steps_add_roomTo hsteps
  have hlimit := limit.toNat_lt
  rw [turnsLeft, UInt64.size]
  omega

/-- A machine that has made the steps it had room for has reached its limit. -/
theorem steps_after_roomTo : (m.after net (m.roomTo limit)).steps = limit := by
  have hroom := steps_add_roomTo hsteps
  apply UInt64.toNat_inj.mp
  rw [steps_after net m (hroom ▸ limit.toNat_lt), hroom]

/-- There is as much room at least under a larger limit. -/
theorem hasRoom_limitedTo (hother : ∀ n, other = some n → limit ≤ n) :
    (m.limitedTo other).HasRoom (m.roomTo limit) := by
  intro n hn
  have hlarger := UInt64.le_iff_toNat_le.mp (hother n hn)
  rw [show (m.limitedTo other).steps = m.steps from rfl, steps_add_roomTo hsteps]
  exact hlarger

variable (hlimit : m.settings.maxSteps = some limit) (hstop : m.stop = false)
include hlimit hstop

/-- **How a bounded run ends** under a clear flag: at the limit, after exactly the steps
there was room for, or by a step that there was room for. -/
theorem turned_cases (net : Network World Link) :
    (m.Continues net (m.roomTo limit) ∧ (m.turned net).ending = .halted .stepLimit ∧
      (m.turned net).machine = m.after net (m.roomTo limit) ∧
      m.moves net (.run fun _ => m.stop) =
        List.replicate (m.roomTo limit) .step ++ [.cleanup .stepLimit]) ∨
    ∃ n, n < m.roomTo limit ∧ m.Continues net n ∧
      (m.turned net).machine = m.after net (n + 1) ∧
      ((∃ reason, ((m.after net n).step net).outcome = .halted reason ∧
          (m.turned net).ending = .halted reason) ∨
        ∃ failure, ((m.after net n).step net).outcome = .failed failure ∧
          (m.turned net).ending = .failed failure) := by
  obtain ⟨n, moves, hgoes, hends, hmoves⟩ :=
    takeTurns_ends net (fun _ => m.stop) m.turnsLeft 0 m #[]
  have hleft := roomTo_lt_turnsLeft hsteps
  -- the limit is reached after `roomTo limit` steps, so no more than these continue, and a
  -- step is made before that only
  have hreached : (m.after net (m.roomTo limit)).limitReached = true := by
    simp [limitReached, settings_after, hlimit, steps_after_roomTo hsteps]
  have hle : n ≤ m.roomTo limit := by
    apply Nat.le_of_not_lt
    intro hlt
    simp [hgoes.unlimited _ hlt] at hreached
  have hlt (hunlimited : (m.after net n).limitReached = false) : n < m.roomTo limit := by
    refine Nat.lt_of_le_of_ne hle fun heq => ?_
    simp [heq, hreached] at hunlimited
  rw [turned, Machine.moves, hmoves]
  generalize takeTurns net (fun _ => m.stop) m.turnsLeft 0 m #[] = report at hends ⊢
  rcases report with ⟨ending, t, events⟩
  cases hends with
  | spent => omega
  | raised hturns hflag => simp [hstop] at hflag
  | limited hturns hflag hlimited =>
    have hown : m.HasRoom (m.roomTo limit) := by
      intro k hk
      rw [hlimit] at hk
      cases hk
      exact Nat.le_of_eq (steps_add_roomTo hsteps)
    have hroom : n = m.roomTo limit := by
      refine Nat.le_antisymm hle (Nat.le_of_not_lt fun hlt => ?_)
      simp [hown.limitReached_after hlt] at hlimited
    subst hroom
    exact Or.inl ⟨hgoes.continues, rfl, rfl, rfl⟩
  | halted hturns hflag hunlimited hstep =>
    exact Or.inr ⟨n, hlt hunlimited, hgoes.continues, rfl, Or.inl ⟨_, hstep, rfl⟩⟩
  | failed hturns hflag hunlimited hstep =>
    exact Or.inr ⟨n, hlt hunlimited, hgoes.continues, rfl, Or.inr ⟨_, hstep, rfl⟩⟩

/-- A bounded run stops at its limit exactly when the steps up to it all continue. -/
theorem turned_ending_eq_stepLimit_iff (net : Network World Link) :
    (m.turned net).ending = .halted .stepLimit ↔ m.Continues net (m.roomTo limit) := by
  rcases turned_cases hsteps hlimit hstop net with
    ⟨hcontinues, hending, -⟩ | ⟨n, hn, -, -, ⟨reason, hstep, hending⟩ | ⟨failure, hstep, hending⟩⟩
  · exact iff_of_true hending hcontinues
  · refine iff_of_false (fun h => ?_) fun hcontinues => ?_
    · cases h.symm.trans hending
      exact step_outcome_ne_stepLimit net _ hstep
    · simp [hcontinues n hn] at hstep
  · refine iff_of_false (fun h => ?_) fun hcontinues => ?_
    · cases h.symm.trans hending
    · simp [hcontinues n hn] at hstep

end Bounded

/-- A run begins with the steps that continue and that there is room for. -/
theorem Continues.moves_run {k : Nat} (h : m.Continues net k) (hstop : m.stop = false)
    (hroom : m.HasRoom k) (hk : k ≤ m.turnsLeft) :
    List.replicate k .step <+: m.moves net (.run fun _ => m.stop) := by
  obtain ⟨n, moves, -, hends, hmoves⟩ :=
    takeTurns_ends net (fun _ => m.stop) m.turnsLeft 0 m #[]
  obtain ⟨d, rfl⟩ := Nat.exists_eq_add_of_le ((h.goes hstop hroom).le_of_ends hk hends)
  rw [Machine.moves, hmoves, ← List.replicate_append_replicate, List.append_assoc]
  exact List.prefix_append _ _

/-- A run whose turns do not end at the limit is the run under any larger limit. -/
theorem run_limitedTo (hlimit : m.settings.maxSteps = some limit)
    (hother : ∀ n, other = some n → limit ≤ n)
    (h : (m.turned net).ending ≠ .halted .stepLimit) :
    (m.limitedTo other).run net = (m.run net).limitedTo other := by
  rw [run_eq_cleaned, run_eq_cleaned, ← cleaned_limitedTo]
  exact congrArg (RunReport.cleaned net) (takeTurns_limitedTo hlimit hother h)

/-- **A bounded run is a prefix of a longer one.**  The machines differ in the limit
alone, which is larger in `longer` or missing there.  A run that ends before its limit,
by a halt or by a step that fails, is the longer run.  A run stops at its limit when
all steps it had room for continue, and then it has made exactly these; the longer run
begins with them, and they lead to the same state.  A step there was room for that
halts, also the last one, decides what the run reports. -/
theorem bounded_run_prefix (net : Network World Link) (m : Machine World Link) (limit : UInt64)
    (other : Option UInt64) (hlimit : m.settings.maxSteps = some limit)
    (hother : ∀ n, other = some n → limit ≤ n) (hstop : m.stop = false)
    (hsteps : m.steps ≤ limit) :
    let longer := m.limitedTo other
    let room := m.roomTo limit
    let report := m.turned net
    (∀ reason, reason ≠ .stepLimit → (m.run net).ending = .halted reason →
      longer.run net = (m.run net).limitedTo other) ∧
    (∀ failure, report.ending = .failed failure →
      (m.run net).ending = .failed failure ∧ longer.run net = (m.run net).limitedTo other) ∧
    (report.ending = .halted .stepLimit ↔ m.Continues net room) ∧
    (report.ending = .halted .stepLimit →
      m.moves net (.run fun _ => m.stop) = List.replicate room .step ++ [.cleanup .stepLimit] ∧
      report.machine = m.after net room ∧
      List.replicate room .step <+: longer.moves net (.run fun _ => longer.stop) ∧
      longer.Continues net room ∧ longer.after net room = report.machine.limitedTo other) ∧
    (∀ last reason, last < room → m.Continues net last →
      ((m.after net last).step net).outcome = .halted reason →
      reason ≠ .stepLimit ∧ report.ending = .halted reason ∧
      report.machine = m.after net (last + 1) ∧
      (m.run net).ending = ((m.after net (last + 1)).finish net reason).ending) ∧
    report.ending ≠ .uncounted ∧
    ∀ reason, (m.run net).ending = .halted reason → report.ending = .halted reason := by
  intro longer room report
  have hcases := turned_cases hsteps hlimit hstop net
  have hiff := turned_ending_eq_stepLimit_iff hsteps hlimit hstop net
  refine ⟨?_, ?_, hiff, ?_, ?_, ?_, fun reason => turned_of_run_halted⟩
  · intro reason hreason hrun
    refine run_limitedTo hlimit hother ?_
    rw [turned_of_run_halted hrun]
    simpa using hreason
  · intro failure hfailed
    refine ⟨?_, run_limitedTo hlimit hother (by simp [report, hfailed])⟩
    rw [run_eq_cleaned, RunReport.cleaned, hfailed]
    exact hfailed
  · intro hlimited
    have hcontinues := hiff.mp hlimited
    have hlonger : longer.Continues net room := hcontinues.limitedTo other
    rcases hcases with ⟨-, -, hmachine, hmoves⟩ | ⟨n, hn, -, -, hstopped⟩
    · refine ⟨hmoves, hmachine, ?_, hlonger, ?_⟩
      · exact hlonger.moves_run hstop (hasRoom_limitedTo hsteps hother)
          (Nat.le_of_lt (roomTo_lt_turnsLeft hsteps))
      · rw [hmachine, after_limitedTo]
    · have hgoes := hcontinues n hn
      rcases hstopped with ⟨reason, hstep, -⟩ | ⟨failure, hstep, -⟩ <;> simp [hgoes] at hstep
  · intro last reason hlast hcontinues hstep
    rcases hcases with ⟨hall, -⟩ | ⟨n, -, hgoes, hmachine, hstopped⟩
    · rw [hall last hlast] at hstep
      cases hstep
    · have heq (hfirst : ((m.after net n).step net).outcome ≠ .continued) : n = last :=
        hgoes.unique hcontinues hfirst (by simp [hstep])
      rcases hstopped with ⟨found, hfound, hending⟩ | ⟨failure, hfailed, -⟩
      · obtain rfl := heq (by simp [hfound])
        cases hstep.symm.trans hfound
        refine ⟨fun h => step_outcome_ne_stepLimit net _ (h ▸ hstep), hending, hmachine, ?_⟩
        rw [← hmachine, run_eq_cleaned, RunReport.cleaned, hending]
      · obtain rfl := heq (by simp [hfailed])
        cases hstep.symm.trans hfailed
  · rcases hcases with ⟨-, hending, -⟩ | ⟨n, -, -, -, ⟨reason, -, hending⟩ | ⟨failure, -, hending⟩⟩
    all_goals simp [report, hending]

/-- A machine with a limit, about to add one to a cell and to read from an input without
bytes, at the end of which it halts. -/
def bumper (limit : UInt64) : Machine PeerWorld Nat :=
  load (.ofBytes [Opcode.increment.code, 0, Opcode.read.code]) (.new [] {})
    (.ofPeers .isolated []) { maxSteps := some limit, onEnd := .halt }

/-- With room for one step, the machine stops where an unlimited one passes; with room
for two, it halts in the second, as an unlimited one. -/
theorem bounded_run_prefix_bumper :
    ((bumper 1).turned PeerWorld.network).ending = .halted .stepLimit ∧
      ((bumper 1).limitedTo none).after PeerWorld.network 1 =
        ((bumper 1).turned PeerWorld.network).machine.limitedTo none ∧
      ((bumper 2).turned PeerWorld.network).ending = .halted .inputExhausted ∧
      ((bumper 2).limitedTo none).run PeerWorld.network =
        ((bumper 2).run PeerWorld.network).limitedTo none := by
  have hlimited : ((bumper 1).turned PeerWorld.network).ending = .halted .stepLimit := by
    decide +kernel
  have hfirst : (bumper 2).Continues PeerWorld.network 1 := by
    intro i hi
    obtain rfl := Nat.lt_one_iff.mp hi
    decide +kernel
  have hsecond : (((bumper 2).after PeerWorld.network 1).step PeerWorld.network).outcome =
      .halted .inputExhausted := by decide +kernel
  have hended : ((bumper 2).run PeerWorld.network).ending = .halted .inputExhausted := by
    decide +kernel
  obtain ⟨-, -, -, hstopped, -⟩ :=
    bounded_run_prefix PeerWorld.network (bumper 1) 1 none rfl nofun rfl (by decide)
  obtain ⟨hsame, -, -, -, hlast, -⟩ :=
    bounded_run_prefix PeerWorld.network (bumper 2) 2 none rfl nofun rfl (by decide)
  obtain ⟨-, -, -, -, hafter⟩ := hstopped hlimited
  obtain ⟨-, hreported, -⟩ := hlast 1 .inputExhausted (by decide) hfirst hsecond
  exact ⟨hlimited, hafter, hreported, hsame .inputExhausted (by decide) hended⟩

end Machine
end RingTape
