import RingTape.Proofs.BoundedRun
import RingTape.Proofs.Departures

/-!
# The limit bounds every run

A run looks at its limit before every step, so each of its steps is made while there
is room below the limit (`unlimited_of_mem_departures`), and uses up one unit of that
room (`roomTo_step`).  The room is a measure of the turns that are left: a run that may
take more turns than there is room for never feels the bound on its turns
(`takeTurns_of_room`), and the step counter, which stays at or below the limit, never
overflows.

All this holds under every flag.  The flag is looked at before the limit, so a raised
flag cancels a run also where the limit is reached.
-/

namespace RingTape
namespace Machine

variable {World Link : Type} {net : Network World Link} {flag : Nat → Bool}
  {m : Machine World Link} {limit : UInt64}

theorem limitReached_eq_false_iff (hlimit : m.settings.maxSteps = some limit) :
    m.limitReached = false ↔ m.steps < limit := by
  simp [limitReached, hlimit]

/-! ## Room is used up step by step -/

theorem roomTo_lt_turns (limit : UInt64) (m : Machine World Link) :
    m.roomTo limit < m.turnsLeft := by
  have hsteps := m.steps.toNat_lt
  have hsize := limit.toNat_lt
  rw [roomTo, turnsLeft, UInt64.size]
  omega

section Room

variable (hroom : m.steps < limit)
include hroom

/-- Below a limit there is room in the counter. -/
theorem toNat_steps_step (net : Network World Link) :
    (m.step net).machine.steps.toNat = m.steps.toNat + 1 := by
  have hlt := UInt64.lt_iff_toNat_lt.mp hroom
  have hsize := limit.toNat_lt
  rw [steps_step, UInt64.toNat_add]
  exact Nat.mod_eq_of_lt (by rw [show (1 : UInt64).toNat = 1 from rfl]; omega)

theorem roomTo_step (net : Network World Link) :
    (m.step net).machine.roomTo limit + 1 = m.roomTo limit := by
  have hlt := UInt64.lt_iff_toNat_lt.mp hroom
  rw [roomTo, roomTo, toNat_steps_step hroom]
  omega

end Room

section Limited

variable (hlimit : m.settings.maxSteps = some limit)
include hlimit

/-- **Turns beyond the room change nothing.** -/
theorem takeTurns_of_room {first second look : Nat} {events : Array (Event Link)}
    (hfirst : m.roomTo limit < first) (hsecond : m.roomTo limit < second) :
    takeTurns net flag first look m events = takeTurns net flag second look m events := by
  induction first generalizing second look m events with
  | zero => omega
  | succ first ih =>
    obtain ⟨second, rfl⟩ := Nat.exists_eq_add_one.mpr (Nat.zero_lt_of_lt hsecond)
    cases hflag : flag look with
    | true => rw [takeTurns_raised hflag, takeTurns_raised hflag]
    | false =>
      cases hreached : m.limitReached with
      | true => rw [takeTurns_limited hflag hreached, takeTurns_limited hflag hreached]
      | false =>
        rw [takeTurns_stepped hflag hreached, takeTurns_stepped hflag hreached]
        cases hstep : (m.step net).outcome with
        | continued =>
          have hroom := roomTo_step ((limitReached_eq_false_iff hlimit).mp hreached) net
          exact ih ((settings_step net m).symm ▸ hlimit) (by omega) (by omega)
        | halted reason => rfl
        | failed failure => rfl

/-- A machine that has made the steps it had room for is at its limit. -/
theorem limitReached_after_roomTo (net : Network World Link) :
    (m.after net (m.roomTo limit)).limitReached = true := by
  by_cases hsteps : m.steps ≤ limit
  · simp [limitReached, settings_after, hlimit, steps_after_roomTo hsteps]
  · have hover := UInt64.lt_iff_toNat_lt.mp (UInt64.not_le.mp hsteps)
    have hnone : m.roomTo limit = 0 := Nat.sub_eq_zero_of_le (Nat.le_of_lt hover)
    rw [hnone, after]
    simp [limitReached, hlimit, UInt64.le_of_lt (UInt64.not_le.mp hsteps)]

/-- Steps that are all made below the limit are no more than there is room for. -/
theorem le_roomTo {n : Nat} (h : ∀ i, i < n → (m.after net i).limitReached = false) :
    n ≤ m.roomTo limit := by
  apply Nat.le_of_not_lt
  intro hlt
  have hreached := limitReached_after_roomTo hlimit net
  rw [h _ hlt] at hreached
  cases hreached

end Limited

/-! ## The steps of a run -/

/-- **A run makes its steps below the limit.** -/
theorem unlimited_of_mem_departures {turns look : Nat} {t : Machine World Link}
    (h : t ∈ m.departures net (turnMoves net flag turns look m)) : t.limitReached = false := by
  induction turns generalizing look m with
  | zero => cases h
  | succ turns ih =>
    rw [turnMoves] at h
    cases hflag : flag look with
    | true => simp [hflag] at h
    | false =>
      cases hlimit : m.limitReached with
      | true => simp [hflag, hlimit] at h
      | false =>
        cases hstep : (m.step net).outcome with
        | continued =>
          simp only [hflag, hlimit, hstep, Bool.false_eq_true, if_false, departures_step,
            List.mem_cons] at h
          rcases h with rfl | h
          · exact hlimit
          · exact ih h
        | halted reason | failed failure =>
          simp only [hflag, hlimit, hstep, Bool.false_eq_true, if_false, departures_step,
            departures_cleanup, departures_nil, List.mem_singleton] at h
          rw [h]
          exact hlimit

theorem limitReached_of_lt_paces {i : Nat} (hi : i < m.paces net flag) :
    (m.after net i).limitReached = false := by
  have hmem : m.after net i ∈ m.departures net (m.moves net (.run flag)) := by
    rw [departures_run]
    exact List.mem_map_of_mem (List.mem_range.mpr hi)
  exact unlimited_of_mem_departures hmem

section Limited

variable (hlimit : m.settings.maxSteps = some limit)
include hlimit

theorem paces_le_roomTo (net : Network World Link) (flag : Nat → Bool) :
    m.paces net flag ≤ m.roomTo limit :=
  le_roomTo hlimit fun _ hi => limitReached_of_lt_paces hi

theorem steps_after_paces (net : Network World Link) (flag : Nat → Bool) :
    (m.after net (m.paces net flag)).steps.toNat = m.steps.toNat + m.paces net flag := by
  have hpaces := paces_le_roomTo hlimit net flag
  have hsteps := m.steps.toNat_lt
  have hsize := limit.toNat_lt
  apply steps_after
  rw [roomTo] at hpaces
  rw [UInt64.size]
  omega

theorem watched_ending_ne_uncounted (net : Network World Link) (flag : Nat → Bool) :
    (m.watched net flag).ending ≠ .uncounted := by
  obtain ⟨n, moves, hgoes, hends, -⟩ := watched_ends net flag m
  have hn := le_roomTo hlimit hgoes.unlimited
  have hturns := roomTo_lt_turns limit m
  intro huncounted
  rw [huncounted] at hends
  generalize (m.watched net flag).machine = t at hends
  cases hends
  omega

/-- **A run that stops at its limit** has found the flag clear and the limit reached when
it last looked. -/
theorem watched_stepLimit (h : (m.watched net flag).ending = .halted .stepLimit) :
    m.Goes net flag 0 (m.paces net flag) ∧ flag (m.paces net flag) = false ∧
      limit ≤ (m.watched net flag).machine.steps := by
  obtain ⟨n, moves, hgoes, hends, hmoves⟩ := watched_ends net flag m
  rw [h] at hends
  generalize (m.watched net flag).machine = t at hends ⊢
  cases hends with
  | limited hturns hflag hreached =>
    rw [paces_of_moves hmoves]
    refine ⟨hgoes, by simpa using hflag, ?_⟩
    simpa [limitReached, settings_after, hlimit] using hreached
  | halted hturns hflag hunlimited hstep => exact absurd hstep (step_outcome_ne_stepLimit net _)

/-- **A raised flag cancels**, also where the limit is reached. -/
theorem watched_cancelled {k : Nat} (hgoes : m.Goes net flag 0 k) (hraised : flag k = true) :
    m.paces net flag = k ∧ (m.watched net flag).ending = .halted .cancelled := by
  have hk := le_roomTo hlimit hgoes.unlimited
  have hturns := roomTo_lt_turns limit m
  have hlook : flag (0 + k) = true := (congrArg flag (Nat.zero_add k)).trans hraised
  obtain ⟨hending, -, hpaces⟩ := watched_of_ends hgoes (.raised (by omega) hlook)
  exact ⟨hpaces, hending⟩

/-! ## Run after run -/

/-- However often it is run, a machine makes its steps below the limit. -/
theorem steps_lt_of_mem_departures {flags : List (Nat → Bool)} {t : Machine World Link}
    (h : t ∈ m.departures net (m.allMoves net (flags.map .run))) : t.steps < limit := by
  induction flags generalizing m with
  | nil => cases h
  | cons flag rest ih =>
    rw [List.map_cons, allMoves, departures_append] at h
    rcases List.mem_append.mp h with h | h
    · obtain ⟨past, later, -, ht⟩ := mem_departures_iff.mp h
      have hsettings : t.settings.maxSteps = some limit := by
        rw [ht, settings_play, hlimit]
      exact (limitReached_eq_false_iff hsettings).mp (unlimited_of_mem_departures h)
    · rw [call_eq_play] at h
      exact ih ((congrArg Settings.maxSteps (settings_play net m _)).trans hlimit) h

end Limited

/-- A counter that is only raised below a limit is never raised above it. -/
theorem steps_play_le {moves : List Move} (h : ∀ t ∈ m.departures net moves, t.steps < limit) :
    (m.play net moves).1.steps.toNat ≤ max limit.toNat m.steps.toNat := by
  induction moves generalizing m with
  | nil => exact Nat.le_max_right _ _
  | cons move rest ih =>
    cases move with
    | step =>
      have hroom := h m List.mem_cons_self
      have hlt := UInt64.lt_iff_toNat_lt.mp hroom
      have hrest := ih fun t ht => h t (List.mem_cons_of_mem _ ht)
      have hstep := toNat_steps_step hroom net
      rw [hstep] at hrest
      exact Nat.le_trans hrest (by omega)
    | cleanup reason =>
      have hrest := ih h
      have hsteps := congrArg Books.steps (books_finish net m reason)
      rw [show (m.finish net reason).machine.steps = m.steps from hsteps] at hrest
      exact hrest

/-! ## The bound -/

theorem runWatching_ending_ne_uncounted (hlimit : m.settings.maxSteps = some limit)
    (net : Network World Link) (flag : Nat → Bool) :
    (m.runWatching net flag).ending ≠ .uncounted := by
  cases hending : (m.watched net flag).ending with
  | halted reason =>
    rw [runWatching_halted hending]
    exact (finish_cleanup net (m.watched net flag).machine reason).ending_ne_uncounted
  | failed failure =>
    rw [runWatching_failed hending, hending]
    exact Ending.noConfusion
  | uncounted => exact absurd hending (watched_ending_ne_uncounted hlimit net flag)

/-- **The limit bounds every run**, under every flag.  A run ends by itself: it takes no
notice of how many turns it is given beyond its room.  It makes at most the steps it
has room for, and the counter grows by their number.  It reports the limit only with
the limit reached and the flag clear at the last look.  The first raised flag that it
sees ends it: no step is made after that, and it comes to a cancellation, unless the
last flush fails.  Over any number of runs, whatever they come to, the counter never
passes the limit, or the value it had when that was larger; each step is made below
the limit, so the counter never overflows. -/
theorem step_limit_bounds_runs (net : Network World Link) (m : Machine World Link)
    (limit : UInt64) (hlimit : m.settings.maxSteps = some limit) :
    (∀ flag : Nat → Bool,
      let report := m.watched net flag
      let run := m.runWatching net flag
      let made := m.paces net flag
      (∀ turns, m.roomTo limit < turns → takeTurns net flag turns 0 m #[] = report) ∧
      run.ending ≠ .uncounted ∧
      made ≤ m.roomTo limit ∧ run.machine.steps.toNat = m.steps.toNat + made ∧
      (run.ending = .halted .stepLimit →
        limit ≤ run.machine.steps ∧ m.Goes net flag 0 made ∧ flag made = false) ∧
      ∀ k, m.Goes net flag 0 k → flag k = true →
        made = k ∧ report.ending = .halted .cancelled ∧
          run.ending = .ofFlush .cancelled (m.after net k).console.flush.1) ∧
    ∀ flags : List (Nat → Bool),
      let moves := m.allMoves net (flags.map .run)
      m.callAll net (flags.map .run) = m.play net moves ∧
      (∀ past, past <+: moves →
        (m.play net past).1.steps.toNat ≤ max limit.toNat m.steps.toNat) ∧
      ∀ t ∈ m.departures net moves,
        t.steps < limit ∧ (t.step net).machine.steps.toNat = t.steps.toNat + 1 := by
  refine ⟨fun flag => ?_, fun flags => ?_⟩
  · intro report run made
    have hsteps : run.machine.steps = report.machine.steps :=
      congrArg Books.steps (books_runWatching net flag m)
    refine ⟨fun turns hturns => ?_, runWatching_ending_ne_uncounted hlimit net flag,
      paces_le_roomTo hlimit net flag, ?_, fun hended => ?_, fun k hgoes hraised => ?_⟩
    · exact takeTurns_of_room hlimit hturns (roomTo_lt_turns limit m)
    · rw [hsteps, machine_watched]
      exact steps_after_paces hlimit net flag
    · obtain ⟨hgoes, hclear, hreached⟩ := watched_stepLimit hlimit (ending_of_cleaned hended)
      exact ⟨hsteps ▸ hreached, hgoes, hclear⟩
    · obtain ⟨hmade, hcancelled⟩ := watched_cancelled hlimit hgoes hraised
      have hmachine : report.machine = m.after net k := hmade ▸ machine_watched net flag m
      have hcleanup : run.ending = (report.machine.finish net .cancelled).ending := by
        rw [show run = _ from runWatching_halted hcancelled]
      rw [hcleanup, ending_finish (by decide), hmachine]
      exact ⟨hmade, hcancelled, rfl⟩
  · intro moves
    have hbelow : ∀ t ∈ m.departures net moves, t.steps < limit :=
      fun t ht => steps_lt_of_mem_departures hlimit ht
    refine ⟨callAll_eq_play net m _, fun past hpast => ?_, fun t ht => ?_⟩
    · obtain ⟨rest, hrest⟩ := hpast
      apply steps_play_le
      intro t ht
      apply hbelow
      rw [← hrest, departures_append]
      exact List.mem_append_left _ ht
    · exact ⟨hbelow t ht, toNat_steps_step (hbelow t ht) net⟩

/-- The flag of a run that is raised at the second look. -/
def secondLook (i : Nat) : Bool :=
  i == 1

/-- With room for one step, a machine makes that step and stops at the limit; if the flag
is raised when the limit is reached, it is cancelled instead. -/
theorem step_limit_bounds_runs_bumper :
    ((bumper 1).runWatching PeerWorld.network fun _ => false).ending = .halted .stepLimit ∧
      1 ≤ ((bumper 1).runWatching PeerWorld.network fun _ => false).machine.steps ∧
      ((bumper 1).after PeerWorld.network 1).limitReached = true ∧
      ((bumper 1).watched PeerWorld.network secondLook).ending = .halted .cancelled ∧
      (bumper 1).paces PeerWorld.network secondLook = 1 ∧
      ∀ t ∈ (bumper 1).departures PeerWorld.network
          ((bumper 1).allMoves PeerWorld.network [.run secondLook, .run fun _ => false]),
        t.steps < 1 := by
  have hstopped : ((bumper 1).runWatching PeerWorld.network fun _ => false).ending =
      .halted .stepLimit := by decide +kernel
  have hreached : ((bumper 1).after PeerWorld.network 1).limitReached = true := by decide +kernel
  have hgoes : (bumper 1).Goes PeerWorld.network secondLook 0 1 := by
    refine Goes.cons rfl ?_ ?_ .zero
    · decide +kernel
    · decide +kernel
  obtain ⟨hrun, hruns⟩ := step_limit_bounds_runs PeerWorld.network (bumper 1) 1 rfl
  obtain ⟨-, -, -, -, hlimited, -⟩ := hrun fun _ => false
  obtain ⟨-, -, -, -, -, hcancelled⟩ := hrun secondLook
  obtain ⟨hmade, hending, -⟩ := hcancelled 1 hgoes rfl
  obtain ⟨-, -, hbelow⟩ := hruns [secondLook, fun _ => false]
  exact ⟨hstopped, (hlimited hstopped).1, hreached, hending, hmade, fun t ht => (hbelow t ht).1⟩

end Machine
end RingTape
