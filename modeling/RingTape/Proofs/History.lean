import RingTape.Proofs.Conduct

/-!
# Histories

A caller makes a machine step and run, again and again.  What the machine itself does
is coarser in one way and finer in another: a run is many steps and at most one
cleanup.  A **move** is a step or a cleanup, and the moments between moves are the
moments at which something can be said about the machine.

`moves` lists the moves that a call makes, and `callAll_eq_play` says that making the
calls of a list, one after the other and whatever each of them comes to, is playing
their moves: the machine is the same in the end and the outside sees the same.  So
whatever holds after every list of moves holds at every moment of every sequence of
calls, also in the middle of a run.
-/

namespace RingTape

/-- What a caller asks of a machine. -/
inductive Call where
  /-- To make a step. -/
  | step
  /-- To run under a flag that shows the value `flag i` at the `i`-th look. -/
  | run (flag : Nat → Bool)

/-- What a machine does in one go. -/
inductive Move where
  /-- It makes a step. -/
  | step
  /-- It cleans up after a halt. -/
  | cleanup (reason : Halt)
deriving DecidableEq, Repr

variable {World Link : Type}

/-- The report of a run whose turns are taken: a halt is followed by the cleanup. -/
def RunReport.cleaned (net : Network World Link) (report : RunReport World Link) :
    RunReport World Link :=
  match report.ending with
  | .halted reason =>
    let cleanup := report.machine.finish net reason
    { cleanup with events := report.events ++ cleanup.events }
  | _ => report

/-- The machine that a run leaves, and what the outside has seen of it. -/
def RunReport.seen (report : RunReport World Link) : Machine World Link × List (Effect Link) :=
  (report.machine, effectsOf report.events.toList)

namespace Machine

/-! ## Turns, one by one -/

section Turns

variable {net : Network World Link} {m : Machine World Link} {flag : Nat → Bool}
  {turns look : Nat} {events : Array (Event Link)}

theorem takeTurns_raised (h : flag look = true) :
    takeTurns net flag (turns + 1) look m events = ⟨.halted .cancelled, m, events⟩ := by
  simp [takeTurns, turn, h]

theorem takeTurns_limited (h : flag look = false) (hlimit : m.limitReached = true) :
    takeTurns net flag (turns + 1) look m events = ⟨.halted .stepLimit, m, events⟩ := by
  simp [takeTurns, turn, h, hlimit]

/-- A turn that makes its step does as the step came out. -/
theorem takeTurns_stepped (h : flag look = false) (hlimit : m.limitReached = false) :
    takeTurns net flag (turns + 1) look m events =
      match (m.step net).outcome with
      | .continued =>
        takeTurns net flag turns (look + 1) (m.step net).machine (events ++ (m.step net).events)
      | .halted reason =>
        ⟨.halted reason, (m.step net).machine, events ++ (m.step net).events⟩
      | .failed failure =>
        ⟨.failed failure, (m.step net).machine, events ++ (m.step net).events⟩ := by
  rw [takeTurns, turn, h, hlimit]
  rcases m.step net with ⟨outcome, t, new⟩
  cases outcome <;> rfl

end Turns

theorem runWatching_eq_cleaned (net : Network World Link) (flag : Nat → Bool)
    (m : Machine World Link) :
    m.runWatching net flag = (takeTurns net flag m.turnsLeft 0 m #[]).cleaned net := rfl

/-! ## Moves -/

variable (net : Network World Link) (m : Machine World Link)

/-- The machine after a move, and what the outside sees of the move. -/
def move : Move → Machine World Link × List (Effect Link)
  | .step => ((m.step net).machine, effectsOf (m.step net).events)
  | .cleanup reason => (m.finish net reason).seen

/-- The machine after some moves, and what the outside sees of them. -/
def play (m : Machine World Link) : List Move → Machine World Link × List (Effect Link)
  | [] => (m, [])
  | move :: rest =>
    let first := m.move net move
    let later := first.1.play rest
    (later.1, first.2 ++ later.2)

@[simp] theorem play_nil : m.play net [] = (m, []) := rfl

@[simp] theorem play_singleton (move : Move) : m.play net [move] = m.move net move := by
  simp [play]

/-- Moves that are played in two parts. -/
theorem play_append (first second : List Move) : m.play net (first ++ second) =
    (((m.play net first).1.play net second).1,
      (m.play net first).2 ++ ((m.play net first).1.play net second).2) := by
  induction first generalizing m with
  | nil => rfl
  | cons move rest ih => simp [play, ih, List.append_assoc]

/-! ## Calls -/

/-- The moves that turns make, and the cleanup after them. -/
def turnMoves (flag : Nat → Bool) : (turns look : Nat) → Machine World Link → List Move
  | 0, _, _ => []
  | turns + 1, look, m =>
    if flag look then [.cleanup .cancelled]
    else if m.limitReached then [.cleanup .stepLimit]
    else
      match (m.step net).outcome with
      | .continued => .step :: turnMoves flag turns (look + 1) (m.step net).machine
      | .halted reason => [.step, .cleanup reason]
      | .failed _ => [.step]

/-- The moves that a call makes. -/
def moves : Call → List Move
  | .step => [.step]
  | .run flag => turnMoves net flag m.turnsLeft 0 m

/-- The machine after a call, and what the outside sees of the call. -/
def call : Call → Machine World Link × List (Effect Link)
  | .step => ((m.step net).machine, effectsOf (m.step net).events)
  | .run flag => (m.runWatching net flag).seen

/-- The machine after calls that are made one after the other, and what the outside sees
of them. -/
def callAll (m : Machine World Link) : List Call → Machine World Link × List (Effect Link)
  | [] => (m, [])
  | call :: rest =>
    let first := m.call net call
    let later := first.1.callAll rest
    (later.1, first.2 ++ later.2)

/-- The moves that calls make one after the other. -/
def allMoves (m : Machine World Link) : List Call → List Move
  | [] => []
  | call :: rest => m.moves net call ++ allMoves (m.call net call).1 rest

/-- Turns and the cleanup after them are played moves. -/
theorem seen_takeTurns (flag : Nat → Bool) (turns look : Nat) (events : Array (Event Link)) :
    ((takeTurns net flag turns look m events).cleaned net).seen =
      ((m.play net (turnMoves net flag turns look m)).1,
        effectsOf events.toList ++ (m.play net (turnMoves net flag turns look m)).2) := by
  induction turns generalizing look m events with
  | zero => simp [takeTurns, RunReport.cleaned, RunReport.seen, turnMoves]
  | succ turns ih =>
    rw [turnMoves]
    cases hflag : flag look with
    | true =>
      rw [takeTurns_raised hflag]
      simp [RunReport.cleaned, RunReport.seen, move]
    | false =>
      cases hlimit : m.limitReached with
      | true =>
        rw [takeTurns_limited hflag hlimit]
        simp [RunReport.cleaned, RunReport.seen, move]
      | false =>
        cases hstep : (m.step net).outcome with
        | continued =>
          rw [takeTurns_stepped hflag hlimit, hstep, ih]
          simp [play, move]
        | halted reason =>
          rw [takeTurns_stepped hflag hlimit, hstep]
          simp [RunReport.cleaned, RunReport.seen, play, move]
        | failed failure =>
          rw [takeTurns_stepped hflag hlimit, hstep]
          simp [RunReport.cleaned, RunReport.seen, move]

/-- **A call is played.** -/
theorem call_eq_play (call : Call) : m.call net call = m.play net (m.moves net call) := by
  cases call with
  | step => simp [Machine.call, moves, move]
  | run flag =>
    rw [Machine.call, runWatching_eq_cleaned, seen_takeTurns]
    simp [moves, effectsOf]

/-- **Calls are played**, one after the other. -/
theorem callAll_eq_play (calls : List Call) :
    m.callAll net calls = m.play net (m.allMoves net calls) := by
  induction calls generalizing m with
  | nil => rfl
  | cons call rest ih =>
    rw [callAll, allMoves, play_append, ← call_eq_play, ih]

end Machine
end RingTape
