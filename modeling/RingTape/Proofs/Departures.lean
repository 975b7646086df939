import RingTape.Proofs.Bookkeeping
import RingTape.Proofs.Turns

/-!
# The steps of a history

A history makes its steps one after the other, each from the machine that the moves
before it have left.  `departures` lists these machines.  A statement about every step
that was executed is a statement about the members of this list, and the number of
executed steps is its length.  Cleanups are no steps and add nothing to it.

A run makes all its steps before its cleanup, so its departures are the machines of
plain stepping, as many as it makes steps (`departures_run`), and it leaves its turns
where plain stepping gets with that number of steps (`machine_watched`).  What a run
comes to is decided by the first of its turns that does not continue
(`watched_of_ends`): a check that stops a run adds no step to it (`paces_of_stopped`), and
a step that ends it adds one (`paces_of_last_step`).
-/

namespace RingTape

/-- The moves that follow turns which came to an ending: a halt is cleaned up, and
nothing else is. -/
def Ending.closing : Ending → List Move
  | .halted reason => [.cleanup reason]
  | .failed _ | .uncounted => []

namespace Machine

variable {World Link : Type}

section Histories

variable (net : Network World Link) (m : Machine World Link)

/-- The machines that the steps of a history start from, in order. -/
def departures (m : Machine World Link) : List Move → List (Machine World Link)
  | [] => []
  | .step :: rest => m :: (m.step net).machine.departures rest
  | .cleanup reason :: rest => (m.finish net reason).machine.departures rest

@[simp] theorem departures_nil : m.departures net [] = [] := rfl

@[simp] theorem departures_step (rest : List Move) :
    m.departures net (.step :: rest) = m :: (m.step net).machine.departures net rest := rfl

@[simp] theorem departures_cleanup (reason : Halt) (rest : List Move) :
    m.departures net (.cleanup reason :: rest) =
      (m.finish net reason).machine.departures net rest := rfl

theorem departures_append (first second : List Move) : m.departures net (first ++ second) =
    m.departures net first ++ (m.play net first).1.departures net second := by
  induction first generalizing m with
  | nil => rfl
  | cons move rest ih =>
    cases move with
    | step => exact congrArg (m :: ·) (ih _)
    | cleanup reason => exact ih _

variable {net m}

/-- **A departure is a moment before a step**, and every such moment is one. -/
theorem mem_departures_iff {t : Machine World Link} {moves : List Move} :
    t ∈ m.departures net moves ↔
      ∃ past rest, moves = past ++ .step :: rest ∧ t = (m.play net past).1 := by
  constructor
  · induction moves generalizing m with
    | nil => exact fun h => nomatch h
    | cons move rest ih =>
      intro h
      cases move with
      | step =>
        rcases List.mem_cons.mp h with rfl | h
        · exact ⟨[], rest, rfl, rfl⟩
        · obtain ⟨past, later, rfl, ht⟩ := ih h
          exact ⟨.step :: past, later, rfl, ht⟩
      | cleanup reason =>
        obtain ⟨past, later, rfl, ht⟩ := ih h
        exact ⟨.cleanup reason :: past, later, rfl, ht⟩
  · rintro ⟨past, rest, rfl, rfl⟩
    rw [departures_append]
    exact List.mem_append_right _ List.mem_cons_self

end Histories

/-! ## What moves keep -/

section Books

variable (net : Network World Link) (m : Machine World Link)

theorem books_finish (reason : Halt) : (m.finish net reason).machine.books = m.books := by
  rw [machine_finish]
  rfl

theorem settings_move (move : Move) : (m.move net move).1.settings = m.settings := by
  cases move with
  | step => exact settings_step net m
  | cleanup reason => exact congrArg Books.settings (books_finish net m reason)

/-- Settings are the same after every history. -/
theorem settings_play (moves : List Move) : (m.play net moves).1.settings = m.settings := by
  induction moves generalizing m with
  | nil => rfl
  | cons move rest ih => exact (ih _).trans (settings_move net m move)

end Books

/-! ## The steps of a run -/

section Runs

variable (net : Network World Link) (flag : Nat → Bool) (m : Machine World Link)

/-- The report of a run under a flag before its cleanup. -/
def watched : RunReport World Link :=
  takeTurns net flag m.turnsLeft 0 m #[]

/-- The number of steps that a run makes. -/
def paces : Nat :=
  (m.moves net (.run flag)).count .step

theorem runWatching_eq_watched : m.runWatching net flag = (m.watched net flag).cleaned net := rfl

variable {net flag m}

/-- A run whose turns halt goes on with the cleanup. -/
theorem runWatching_halted {reason : Halt} (h : (m.watched net flag).ending = .halted reason) :
    m.runWatching net flag =
      let cleanup := (m.watched net flag).machine.finish net reason
      { cleanup with events := (m.watched net flag).events ++ cleanup.events } := by
  rw [runWatching_eq_watched, RunReport.cleaned, h]

/-- A run whose turns fail is over. -/
theorem runWatching_failed {failure : Failure}
    (h : (m.watched net flag).ending = .failed failure) :
    m.runWatching net flag = m.watched net flag := by
  rw [runWatching_eq_watched, RunReport.cleaned, h]

variable (net flag m)

/-- The books are closed when the turns are over. -/
theorem books_runWatching :
    (m.runWatching net flag).machine.books = (m.watched net flag).machine.books := by
  cases hending : (m.watched net flag).ending with
  | halted reason =>
    rw [runWatching_halted hending]
    exact books_finish net _ reason
  | failed failure => rw [runWatching_failed hending]
  | uncounted => rw [runWatching_eq_watched, RunReport.cleaned, hending]

/-- The turns of a run continue for a while, and then they end. -/
theorem watched_ends : ∃ n moves, m.Goes net flag 0 n ∧
    m.Ends net flag m.turnsLeft 0 n (m.watched net flag).ending (m.watched net flag).machine moves ∧
    m.moves net (.run flag) = List.replicate n .step ++ moves :=
  takeTurns_ends net flag m.turnsLeft 0 m #[]

variable {net flag m}

theorem paces_of_moves {n : Nat} {moves : List Move}
    (h : m.moves net (.run flag) = List.replicate n .step ++ moves) :
    m.paces net flag = n + moves.count .step := by
  rw [paces, h, List.count_append, List.count_replicate_self]

section LastTurn

variable {k : Nat} (hgoes : m.Goes net flag 0 k)
include hgoes

/-- **How a run ends** is known from where its turns cannot go on. -/
theorem watched_of_ends {ending : Ending} {t : Machine World Link} {moves : List Move}
    (hends : m.Ends net flag m.turnsLeft 0 k ending t moves) :
    (m.watched net flag).ending = ending ∧ (m.watched net flag).machine = t ∧
      m.paces net flag = k + moves.count .step := by
  obtain ⟨n, made, hgone, hended, hmoves⟩ := watched_ends net flag m
  have hle : k ≤ n := hgoes.le_of_ends hends.le_turns hended
  have hge : n ≤ k := hgone.le_of_ends hended.le_turns hends
  obtain rfl := Nat.le_antisymm hle hge
  obtain ⟨rfl, rfl, rfl⟩ := hends.unique hended
  exact ⟨rfl, rfl, paces_of_moves hmoves⟩

variable (hk : k < m.turnsLeft)
include hk

/-- **A check that stops a run counts no step.** -/
theorem paces_of_stopped (hstop : flag k = true ∨ (m.after net k).limitReached = true) :
    m.paces net flag = k := by
  have hlook : flag (0 + k) = flag k := congrArg flag (Nat.zero_add k)
  cases hflag : flag k with
  | true => exact (watched_of_ends hgoes (.raised hk (hlook.trans hflag))).2.2
  | false =>
    have hlimit := hstop.resolve_left (by simp [hflag])
    exact (watched_of_ends hgoes (.limited hk (hlook.trans hflag) hlimit)).2.2

/-- **A step that ends a run counts as one.** -/
theorem paces_of_last_step (hflag : flag k = false) (hlimit : (m.after net k).limitReached = false)
    (hstep : ((m.after net k).step net).outcome ≠ .continued) : m.paces net flag = k + 1 := by
  have hlook : flag (0 + k) = false := (congrArg flag (Nat.zero_add k)).trans hflag
  cases houtcome : ((m.after net k).step net).outcome with
  | continued => exact absurd houtcome hstep
  | halted reason => exact (watched_of_ends hgoes (.halted hk hlook hlimit houtcome)).2.2
  | failed failure => exact (watched_of_ends hgoes (.failed hk hlook hlimit houtcome)).2.2

end LastTurn

/-- What is left to do when turns end is a last step, if there is one, and the cleanup
of the ending. -/
theorem Ends.moves_eq {turns look n : Nat} {ending : Ending} {t : Machine World Link}
    {moves : List Move} (h : m.Ends net flag turns look n ending t moves) :
    moves = List.replicate (moves.count .step) .step ++ ending.closing ∧
      t = m.after net (n + moves.count .step) := by
  cases h with
  | spent | raised _ _ | limited _ _ _ | halted _ _ _ _ | failed _ _ _ _ => exact ⟨rfl, rfl⟩

variable (net flag m)

/-- **The course of a run**: some steps, and then the cleanup of what they came to. -/
theorem moves_run : m.moves net (.run flag) =
    List.replicate (m.paces net flag) .step ++ (m.watched net flag).ending.closing := by
  obtain ⟨n, moves, -, hends, hmoves⟩ := watched_ends net flag m
  rw [paces_of_moves hmoves, ← List.replicate_append_replicate, List.append_assoc,
    ← hends.moves_eq.1, hmoves]

/-- **A run gets as far as plain stepping** with the number of its steps. -/
theorem machine_watched : (m.watched net flag).machine = m.after net (m.paces net flag) := by
  obtain ⟨n, moves, -, hends, hmoves⟩ := watched_ends net flag m
  rw [paces_of_moves hmoves]
  exact hends.moves_eq.2

theorem departures_replicate (n : Nat) :
    m.departures net (List.replicate n .step) = (List.range n).map (m.after net) := by
  induction n generalizing m with
  | zero => rfl
  | succ n ih =>
    rw [List.replicate_succ, departures_step, ih, List.range_succ_eq_map, List.map_cons,
      List.map_map]
    exact congrArg (m :: ·) (List.map_congr_left fun i _ => (after_succ_eq net m i).symm)

/-- **The departures of a run** are the machines of plain stepping. -/
theorem departures_run : m.departures net (m.moves net (.run flag)) =
    (List.range (m.paces net flag)).map (m.after net) := by
  rw [moves_run, departures_append, departures_replicate]
  cases (m.watched net flag).ending <;> simp [Ending.closing]

/-- What the outside sees of turns is what it sees of their steps. -/
theorem effectsOf_takeTurns (turns look : Nat) (events : Array (Event Link)) :
    effectsOf (takeTurns net flag turns look m events).events.toList = effectsOf events.toList ++
      (m.departures net (turnMoves net flag turns look m)).flatMap
        fun t => effectsOf (t.step net).events := by
  induction turns generalizing look m events with
  | zero => simp [takeTurns, turnMoves]
  | succ turns ih =>
    rw [turnMoves]
    cases hflag : flag look with
    | true => simp [takeTurns_raised hflag]
    | false =>
      cases hlimit : m.limitReached with
      | true => simp [takeTurns_limited hflag hlimit]
      | false =>
        rw [takeTurns_stepped hflag hlimit]
        cases hstep : (m.step net).outcome with
        | continued => simp [ih]
        | halted reason => simp
        | failed failure => simp

theorem effectsOf_watched : effectsOf (m.watched net flag).events.toList =
    (List.range (m.paces net flag)).flatMap
      fun i => effectsOf ((m.after net i).step net).events := by
  rw [watched, effectsOf_takeTurns]
  have hdepartures := departures_run net flag m
  rw [moves] at hdepartures
  rw [hdepartures, List.flatMap_map]
  rfl

end Runs

end Machine
end RingTape
