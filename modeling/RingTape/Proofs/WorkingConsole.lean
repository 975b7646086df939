import RingTape.Proofs.RunCleanup
import RingTape.Proofs.SteadySink
import RingTape.Proofs.StepOutcome

/-!
# Runs on a console that works

A console works if its sink is steady, has no bound on what it can hold, and can always
be flushed.  Writing to such a console succeeds, and so does flushing it, and it works
afterwards (`Working.write`, `Working.flush`).  A step fails only through its console
and a cleanup too, so neither fails here (`Conduct.of_working`, `Cleanup.of_working`).
What is left for a run is to halt, or to go on for as long as the step counter has room
(`runWatching_of_working`).
-/

namespace RingTape

/-- **A console that works**: nothing that is written or flushed is ever refused. -/
structure Console.Working (c : Console) : Prop where
  steady : c.output.rules.Steady
  unbounded : c.output.rules.capacity = none
  flushes : ∀ i, c.output.rules.flushFault i = none

namespace Console

variable {c c' : Console} (h : c.Working)
include h

theorem Working.of_rules (hrules : c'.output.rules = c.output.rules) : c'.Working := by
  refine ⟨?_, ?_, ?_⟩
  · rw [hrules]
    exact h.steady
  · rw [hrules]
    exact h.unbounded
  · rw [hrules]
    exact h.flushes

theorem Working.write {bytes : List UInt8} {result : Except Fault Unit}
    (hwrite : c.write bytes = (result, c')) : result = .ok () ∧ c'.Working := by
  obtain rfl : (c.write bytes).1 = result := congrArg Prod.fst hwrite
  obtain rfl : (c.write bytes).2 = c' := congrArg Prod.snd hwrite
  obtain ⟨hresult, -, hrules, -⟩ := Sink.writeAll_steady h.steady bytes
  have hfits : c.output.fitting bytes = bytes := by
    rw [Sink.fitting, h.unbounded]
  rw [if_pos hfits] at hresult
  exact ⟨hresult, h.of_rules hrules⟩

theorem Working.flush {result : Except Fault Unit} (hflush : c.flush = (result, c')) :
    result = .ok () ∧ c'.Working := by
  unfold Console.flush Sink.flush at hflush
  rw [h.flushes] at hflush
  cases hflush
  exact ⟨rfl, h.of_rules rfl⟩

theorem Working.readByte {reading : Reading} (hread : c.readByte = (reading, c')) :
    c'.Working := by
  obtain rfl : c.readByte.2 = c' := congrArg Prod.snd hread
  exact h.of_rules rfl

omit h in
/-- A console under no rules works, whatever it reads from. -/
theorem working_unruled (input : Reader) : Working ⟨input, .ofRules {}⟩ :=
  ⟨⟨nofun, fun _ => Or.inl rfl⟩, rfl, fun _ => rfl⟩

end Console

namespace Machine

variable {World Link : Type} {net : Network World Link} {flag : Nat → Bool}
  {m : Machine World Link} {effects : List (Effect Link)} {front : Front World Link}

/-- **A step on a console that works does not fail**, and leaves the console working. -/
theorem Conduct.of_working {outcome : Outcome} (h : m.Conduct net effects outcome front)
    (hworking : m.console.Working) :
    (∀ failure, outcome ≠ .failed failure) ∧ front.console.Working := by
  cases h with
  | stray _ hwrite | wrote _ _ hwrite | unreached _ _ _ hwrite =>
    obtain ⟨rfl, hconsole⟩ := hworking.write hwrite
    exact ⟨fun _ => Outcome.noConfusion, hconsole⟩
  | unflushed _ _ hflush =>
    obtain ⟨hresult, -⟩ := hworking.flush hflush
    cases hresult
  | read _ _ hflush hread =>
    obtain ⟨-, hflushed⟩ := hworking.flush hflush
    exact ⟨outcome_ne_failed _ _, hflushed.readByte hread⟩
  | received => exact ⟨outcome_ne_failed _ _, hworking⟩
  | sent | reached | finished | quiet => exact ⟨fun _ => Outcome.noConfusion, hworking⟩

/-- The console works after any number of steps. -/
theorem working_after (hworking : m.console.Working) (n : Nat) :
    (m.after net n).console.Working := by
  induction n with
  | zero => exact hworking
  | succ n ih => exact ((step_conduct net (m.after net n)).of_working ih).2

/-- **A cleanup on a console that works succeeds.** -/
theorem Cleanup.of_working {reason : Halt} {ending : Ending}
    (h : m.Cleanup net reason effects ending front) (hworking : m.console.Working) :
    ending = .halted reason := by
  cases h with
  | unmarked _ hwrite =>
    obtain ⟨hresult, -⟩ := hworking.write hwrite
    cases hresult
  | marked _ hwrite hflush =>
    obtain ⟨-, hmarked⟩ := hworking.write hwrite
    obtain ⟨rfl, -⟩ := hmarked.flush hflush
    rfl
  | flushed _ hflush =>
    obtain ⟨rfl, -⟩ := hworking.flush hflush
    rfl

/-- **A run on a console that works** halts, or goes on until the step counter is full. -/
theorem runWatching_of_working (hworking : m.console.Working) :
    (∃ reason, (m.runWatching net flag).ending = .halted reason) ∨
      (m.runWatching net flag).ending = .uncounted ∧ m.Continues net m.turnsLeft := by
  cases hending : (m.watched net flag).ending with
  | halted reason =>
    left
    have hlast : (m.watched net flag).machine.console.Working := by
      rw [machine_watched]
      exact working_after hworking _
    have hcleanup := (finish_cleanup net (m.watched net flag).machine reason).of_working hlast
    refine ⟨reason, ?_⟩
    rw [runWatching_halted hending]
    exact hcleanup
  | failed failure =>
    obtain ⟨last, -, -, hstep⟩ := exists_failed_of_watched hending
    have hnever := (step_conduct net (m.after net last)).of_working (working_after hworking last)
    exact absurd hstep (hnever.1 failure)
  | uncounted =>
    right
    obtain ⟨n, moves, hgoes, hends, -⟩ := watched_ends net flag m
    rw [hending] at hends
    generalize (m.watched net flag).machine = t at hends
    cases hends
    refine ⟨?_, hgoes.continues⟩
    rw [runWatching_eq_watched, RunReport.cleaned, hending]
    exact hending

end Machine
end RingTape
