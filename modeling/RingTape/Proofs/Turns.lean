import RingTape.Proofs.History

/-!
# How turns end

Turns are taken for as long as each of them continues: the flag is clear, the limit is
not reached, and the step comes to nothing that would stop the machine (`Goes`).  The
first turn for which one of these fails is the last one, and there are five ways in
which it can fail, or not come at all (`Ends`), which exclude each other (`Ends.unique`).
`takeTurns_ends` says this for turns from any machine, under any flag.

The number of turns that continue is the number of steps of plain stepping that the
run agrees with, so that what a run has done is said in terms of `after`.
-/

namespace RingTape
namespace Machine

variable {World Link : Type}

/-- Steps that are made one after the other, the first of them apart. -/
theorem after_succ_eq (net : Network World Link) (m : Machine World Link) (n : Nat) :
    m.after net (n + 1) = (m.step net).machine.after net n := by
  induction n with
  | zero => rfl
  | succ n ih => rw [after, ih, after]

/-- Steps that are made in two parts. -/
theorem after_add (net : Network World Link) (m : Machine World Link) (n k : Nat) :
    m.after net (n + k) = (m.after net n).after net k := by
  induction k with
  | zero => rfl
  | succ k ih => rw [← Nat.add_assoc, after, ih, after]

/-- The first `n` steps all continue. -/
def Continues (net : Network World Link) (m : Machine World Link) (n : Nat) : Prop :=
  ∀ i, i < n → ((m.after net i).step net).outcome = .continued

/-- The first `n` turns all make a step that continues. -/
structure Goes (net : Network World Link) (flag : Nat → Bool) (look : Nat)
    (m : Machine World Link) (n : Nat) : Prop where
  clear : ∀ i, i < n → flag (look + i) = false
  unlimited : ∀ i, i < n → (m.after net i).limitReached = false
  continues : m.Continues net n

/-- **How turns end**, after `n` of them have continued: what they come to, the machine
that they leave, and the moves that are still to be made then, the cleanup included. -/
inductive Ends (net : Network World Link) (flag : Nat → Bool) (turns look : Nat)
    (m : Machine World Link) : (n : Nat) → Ending → Machine World Link → List Move → Prop where
  /-- No turn is left. -/
  | spent : Ends net flag turns look m turns .uncounted (m.after net turns) []
  /-- The flag is raised. -/
  | raised {n : Nat} (hturns : n < turns) (hflag : flag (look + n) = true) :
      Ends net flag turns look m n (.halted .cancelled) (m.after net n) [.cleanup .cancelled]
  /-- The limit is reached. -/
  | limited {n : Nat} (hturns : n < turns) (hflag : flag (look + n) = false)
      (hlimit : (m.after net n).limitReached = true) :
      Ends net flag turns look m n (.halted .stepLimit) (m.after net n) [.cleanup .stepLimit]
  /-- The step halts. -/
  | halted {n : Nat} {reason : Halt} (hturns : n < turns) (hflag : flag (look + n) = false)
      (hlimit : (m.after net n).limitReached = false)
      (hstep : ((m.after net n).step net).outcome = .halted reason) :
      Ends net flag turns look m n (.halted reason) (m.after net (n + 1))
        [.step, .cleanup reason]
  /-- The step fails, and nothing is cleaned up. -/
  | failed {n : Nat} {failure : Failure} (hturns : n < turns) (hflag : flag (look + n) = false)
      (hlimit : (m.after net n).limitReached = false)
      (hstep : ((m.after net n).step net).outcome = .failed failure) :
      Ends net flag turns look m n (.failed failure) (m.after net (n + 1)) [.step]

section Turns

variable {net : Network World Link} {flag : Nat → Bool} {turns look n : Nat}
  {m : Machine World Link}

theorem Goes.zero : m.Goes net flag look 0 :=
  ⟨nofun, nofun, nofun⟩

/-- Turns go on when the first continues and the others go on. -/
theorem Goes.cons (hflag : flag look = false) (hlimit : m.limitReached = false)
    (hstep : (m.step net).outcome = .continued)
    (h : (m.step net).machine.Goes net flag (look + 1) n) : m.Goes net flag look (n + 1) := by
  refine ⟨fun i hi => ?_, fun i hi => ?_, fun i hi => ?_⟩
  · cases i with
    | zero => exact hflag
    | succ i =>
      rw [Nat.add_comm i 1, ← Nat.add_assoc]
      exact h.clear i (Nat.lt_of_succ_lt_succ hi)
  · cases i with
    | zero => exact hlimit
    | succ i =>
      rw [after_succ_eq]
      exact h.unlimited i (Nat.lt_of_succ_lt_succ hi)
  · cases i with
    | zero => exact hstep
    | succ i =>
      rw [after_succ_eq]
      exact h.continues i (Nat.lt_of_succ_lt_succ hi)

/-- Turns end as those after the first do. -/
theorem Ends.cons {ending : Ending} {t : Machine World Link} {moves : List Move}
    (h : (m.step net).machine.Ends net flag turns (look + 1) n ending t moves) :
    m.Ends net flag (turns + 1) look (n + 1) ending t moves := by
  have hlook (n : Nat) : look + 1 + n = look + (n + 1) := by omega
  cases h with
  | spent =>
    rw [← after_succ_eq]
    exact .spent
  | raised hturns hflag =>
    rw [hlook] at hflag
    rw [← after_succ_eq]
    exact .raised (Nat.succ_lt_succ hturns) hflag
  | limited hturns hflag hlimit =>
    rw [hlook] at hflag
    rw [← after_succ_eq] at hlimit ⊢
    exact .limited (Nat.succ_lt_succ hturns) hflag hlimit
  | halted hturns hflag hlimit hstep =>
    rw [hlook] at hflag
    rw [← after_succ_eq] at hlimit hstep ⊢
    exact .halted (Nat.succ_lt_succ hturns) hflag hlimit hstep
  | failed hturns hflag hlimit hstep =>
    rw [hlook] at hflag
    rw [← after_succ_eq] at hlimit hstep ⊢
    exact .failed (Nat.succ_lt_succ hturns) hflag hlimit hstep

/-- Turns that go on are not ended before. -/
theorem Goes.le_of_ends {k : Nat} {ending : Ending} {t : Machine World Link} {moves : List Move}
    (hgoes : m.Goes net flag look k) (hk : k ≤ turns)
    (hends : m.Ends net flag turns look n ending t moves) : k ≤ n := by
  apply Nat.le_of_not_lt
  intro hn
  cases hends with
  | spent => omega
  | raised hturns hflag => simp [hgoes.clear n hn] at hflag
  | limited hturns hflag hlimit => simp [hgoes.unlimited n hn] at hlimit
  | halted hturns hflag hlimit hstep => simp [hgoes.continues n hn] at hstep
  | failed hturns hflag hlimit hstep => simp [hgoes.continues n hn] at hstep

section Ending

variable {ending ending' : Ending} {t t' : Machine World Link} {moves moves' : List Move}

theorem Ends.le_turns (h : m.Ends net flag turns look n ending t moves) : n ≤ turns := by
  cases h with
  | spent => exact Nat.le_refl _
  | raised hturns | limited hturns | halted hturns | failed hturns => exact Nat.le_of_lt hturns

/-- **Turns end in one way**: what each rule asks for excludes the others. -/
theorem Ends.unique (h : m.Ends net flag turns look n ending t moves)
    (h' : m.Ends net flag turns look n ending' t' moves') :
    ending = ending' ∧ t = t' ∧ moves = moves' := by
  cases h with
  | spent =>
    cases h' with
    | spent => exact ⟨rfl, rfl, rfl⟩
    | raised hturns | limited hturns | halted hturns | failed hturns => omega
  | raised hturns hflag =>
    cases h' with
    | spent => omega
    | raised => exact ⟨rfl, rfl, rfl⟩
    | limited _ hclear | halted _ hclear | failed _ hclear => simp [hflag] at hclear
  | limited hturns hflag hlimit =>
    cases h' with
    | spent => omega
    | raised _ hraised => simp [hflag] at hraised
    | limited => exact ⟨rfl, rfl, rfl⟩
    | halted _ _ hunlimited | failed _ _ hunlimited => simp [hlimit] at hunlimited
  | halted hturns hflag hlimit hstep =>
    cases h' with
    | spent => omega
    | raised _ hraised => simp [hflag] at hraised
    | limited _ _ hreached => simp [hlimit] at hreached
    | halted _ _ _ hstep' =>
      obtain rfl := Outcome.halted.inj (hstep.symm.trans hstep')
      exact ⟨rfl, rfl, rfl⟩
    | failed _ _ _ hstep' => simp [hstep] at hstep'
  | failed hturns hflag hlimit hstep =>
    cases h' with
    | spent => omega
    | raised _ hraised => simp [hflag] at hraised
    | limited _ _ hreached => simp [hlimit] at hreached
    | halted _ _ _ hstep' => simp [hstep] at hstep'
    | failed _ _ _ hstep' =>
      obtain rfl := Outcome.failed.inj (hstep.symm.trans hstep')
      exact ⟨rfl, rfl, rfl⟩

end Ending

end Turns

/-- **Turns continue for a while, and then they end.** -/
theorem takeTurns_ends (net : Network World Link) (flag : Nat → Bool) (turns look : Nat)
    (m : Machine World Link) (events : Array (Event Link)) :
    ∃ n moves, m.Goes net flag look n ∧
      m.Ends net flag turns look n (takeTurns net flag turns look m events).ending
        (takeTurns net flag turns look m events).machine moves ∧
      turnMoves net flag turns look m = List.replicate n .step ++ moves := by
  induction turns generalizing look m events with
  | zero => exact ⟨0, [], .zero, .spent, rfl⟩
  | succ turns ih =>
    have hturns := Nat.zero_lt_succ turns
    rw [turnMoves]
    cases hflag : flag look with
    | true =>
      rw [takeTurns_raised hflag]
      exact ⟨0, _, .zero, .raised hturns hflag, rfl⟩
    | false =>
      cases hlimit : m.limitReached with
      | true =>
        rw [takeTurns_limited hflag hlimit]
        exact ⟨0, _, .zero, .limited hturns hflag hlimit, rfl⟩
      | false =>
        rw [takeTurns_stepped hflag hlimit]
        cases hstep : (m.step net).outcome with
        | continued =>
          obtain ⟨n, moves, hgoes, hends, hmoves⟩ := ih (look + 1) (m.step net).machine
            (events ++ (m.step net).events)
          refine ⟨n + 1, moves, hgoes.cons hflag hlimit hstep, hends.cons, ?_⟩
          simp [hmoves, List.replicate_succ]
        | halted reason => exact ⟨0, _, .zero, .halted hturns hflag hlimit hstep, rfl⟩
        | failed failure => exact ⟨0, _, .zero, .failed hturns hflag hlimit hstep, rfl⟩

/-! ## The turns of a run -/

/-- The report of a run before its cleanup. -/
def turned (net : Network World Link) (m : Machine World Link) : RunReport World Link :=
  takeTurns net (fun _ => m.stop) m.turnsLeft 0 m #[]

theorem run_eq_cleaned (net : Network World Link) (m : Machine World Link) :
    m.run net = (m.turned net).cleaned net := rfl

/-- A cleanup does not change for what reason a run has stopped. -/
theorem Cleanup.reason_eq {net : Network World Link} {m : Machine World Link}
    {reason reported : Halt} {effects : List (Effect Link)} {front : Front World Link}
    (h : m.Cleanup net reason effects (.halted reported) front) : reported = reason := by
  generalize hending : Ending.halted reported = ending at h
  cases h with
  | unmarked => cases hending
  | @marked _ _ result | @flushed _ result =>
    cases result with
    | ok => exact Ending.halted.inj hending
    | error fault => cases hending

theorem Cleanup.ending_ne_uncounted {net : Network World Link} {m : Machine World Link}
    {reason : Halt} {effects : List (Effect Link)} {ending : Ending} {front : Front World Link}
    (h : m.Cleanup net reason effects ending front) : ending ≠ .uncounted := by
  cases h with
  | unmarked => exact Ending.noConfusion
  | @marked _ _ result | @flushed _ result => cases result <;> exact Ending.noConfusion

/-- A report of a halt, after the cleanup, is about turns that halted for that reason. -/
theorem ending_of_cleaned {net : Network World Link} {report : RunReport World Link}
    {reason : Halt} (h : (report.cleaned net).ending = .halted reason) :
    report.ending = .halted reason := by
  rw [RunReport.cleaned] at h
  split at h
  · rename_i stopped hstopped
    have hcleanup := finish_cleanup net report.machine stopped
    rw [show (report.machine.finish net stopped).ending = .halted reason from h] at hcleanup
    rw [hstopped, hcleanup.reason_eq]
  · exact h

/-- A run that reports a halt has halted for that reason. -/
theorem turned_of_run_halted {net : Network World Link} {m : Machine World Link} {reason : Halt}
    (h : (m.run net).ending = .halted reason) : (m.turned net).ending = .halted reason :=
  ending_of_cleaned (run_eq_cleaned net m ▸ h)

end Machine
end RingTape
