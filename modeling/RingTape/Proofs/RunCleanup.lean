import RingTape.Network.Peers
import RingTape.Proofs.Departures
import RingTape.Proofs.FailedStep

/-!
# What a run leaves behind

A run is its steps and, if they halt, one cleanup.  So what a run leaves is known from
two sides.  The steps of a run that halts have all succeeded, and each of them has put
on the console exactly what its effects say (`Conduct.written`); the cleanup adds the
mark of the halt and flushes (`Cleanup.of_halted`).  A run that a step fails has no
cleanup at all, and a cleanup that fails has hung up before it failed
(`Cleanup.of_failed`).
-/

namespace RingTape

variable {World Link : Type}

/-- The bytes that an effect has put on the console. -/
def Effect.printed : Effect Link → List UInt8
  | .wrote bytes (.ok ()) => bytes
  | _ => []

/-- The bytes by which a cleanup marks a halt. -/
def Halt.mark (reason : Halt) : List UInt8 :=
  if reason = .finished then [0x0a] else []

/-- The effects of marking a halt. -/
def Halt.marking (reason : Halt) : List (Effect Link) :=
  reason.mark.map fun byte => .wrote [byte] (.ok ())

theorem Halt.marking_of_ne {reason : Halt} (h : reason ≠ .finished) :
    (reason.marking : List (Effect Link)) = [] := by
  rw [marking, mark, if_neg h, List.map_nil]

namespace Machine

variable {net : Network World Link} {flag : Nat → Bool} {m : Machine World Link}
  {effects : List (Effect Link)} {front : Front World Link} {failure : Failure}

/-! ## What steps put on the console -/

/-- **A step that does not fail has written what its effects say.** -/
theorem Conduct.written {outcome : Outcome} (h : m.Conduct net effects outcome front)
    (hfailed : ∀ failure, outcome ≠ .failed failure) :
    front.console.written = m.console.written ++ effects.flatMap Effect.printed := by
  have hnothing (c : Console) : c.written = c.written ++ [] := (List.append_nil _).symm
  cases h with
  | @stray result _ _ hwrite | @wrote result _ _ _ hwrite =>
    cases result with
    | ok => exact (Console.written_write hwrite).trans (by simp [Effect.printed])
    | error fault => exact absurd rfl (hfailed (.output fault))
  | @unreached _ _ result _ _ _ _ hwrite =>
    cases result with
    | ok => exact (Console.written_write hwrite).trans (by simp [Effect.printed])
    | error fault => exact absurd rfl (hfailed (.output fault))
  | @unflushed fault => exact absurd rfl (hfailed (.output fault))
  | @read flushed console reading _ _ hflush hread =>
    have hflushed := m.console.written_flush
    have hconsole := flushed.written_readByte
    rw [hflush] at hflushed
    rw [hread] at hconsole
    exact (hconsole.trans hflushed).trans (hnothing m.console)
  | reached => cases m.active <;> exact hnothing m.console
  | sent | received | finished | quiet => exact hnothing m.console

theorem written_after_of_not_failed {n : Nat}
    (h : ∀ i, i < n → ∀ failure, ((m.after net i).step net).outcome ≠ .failed failure) :
    (m.after net n).console.written = m.console.written ++
      ((List.range n).flatMap fun i => effectsOf ((m.after net i).step net).events).flatMap
        Effect.printed := by
  induction n with
  | zero => exact (List.append_nil _).symm
  | succ n ih =>
    have hbefore := ih fun i hi => h i (Nat.lt_succ_of_lt hi)
    have hlast := (step_conduct net (m.after net n)).written (h n (Nat.lt_succ_self n))
    rw [List.range_succ, List.flatMap_append, List.flatMap_append, List.flatMap_singleton,
      ← List.append_assoc, ← hbefore]
    exact hlast

/-! ## How the steps of a run came out -/

/-- The steps of a run that halts have not failed. -/
theorem outcome_of_watched_halted {reason : Halt}
    (h : (m.watched net flag).ending = .halted reason) {i : Nat} (hi : i < m.paces net flag) :
    ((m.after net i).step net).outcome ≠ .failed failure := by
  obtain ⟨n, moves, hgoes, hends, hmoves⟩ := watched_ends net flag m
  have hcontinued (hn : i < n) : ((m.after net i).step net).outcome ≠ .failed failure := by
    rw [hgoes.continues i hn]
    exact Outcome.noConfusion
  rw [paces_of_moves hmoves] at hi
  rw [h] at hends
  generalize (m.watched net flag).machine = t at hends
  cases hends with
  | raised _ _ | limited _ _ _ => exact hcontinued (by simpa using hi)
  | halted _ _ _ hstep =>
    by_cases hn : i < n
    · exact hcontinued hn
    -- the last step of the run is the one that halts
    · obtain rfl : i = n := by
        have hone : List.count .step [Move.step, .cleanup reason] = 1 := rfl
        omega
      rw [hstep]
      exact Outcome.noConfusion

/-- The last step of a run that fails is the one that failed. -/
theorem exists_failed_of_watched (h : (m.watched net flag).ending = .failed failure) :
    ∃ last, m.paces net flag = last + 1 ∧ m.Continues net last ∧
      ((m.after net last).step net).outcome = .failed failure := by
  obtain ⟨n, moves, hgoes, hends, hmoves⟩ := watched_ends net flag m
  rw [h] at hends
  generalize (m.watched net flag).machine = t at hends
  cases hends with
  | failed _ _ _ hstep => exact ⟨n, paces_of_moves hmoves, hgoes.continues, hstep⟩

/-! ## What a cleanup leaves -/

/-- A cleanup that succeeds has marked the halt, and has flushed last. -/
theorem Cleanup.of_halted {reason reported : Halt}
    (h : m.Cleanup net reason effects (.halted reported) front) :
    effects = m.farewell net ++ reason.marking ++ [.flushed (.ok ())] ∧
      front.console.written = m.console.written ++ reason.mark ∧
      ∃ before : Console, before.flush = (.ok (), front.console) := by
  generalize hending : Ending.halted reported = ending at h
  cases h with
  | unmarked => cases hending
  | @marked marked console result hreason hwrite hflush =>
    cases result with
    | error fault => cases hending
    | ok =>
      have hwritten := marked.written_flush
      rw [hflush, Console.written_write hwrite] at hwritten
      subst hreason
      refine ⟨?_, hwritten, marked, hflush⟩
      rw [List.append_assoc]
      rfl
  | @flushed console result hreason hflush =>
    cases result with
    | error fault => cases hending
    | ok =>
      have hwritten := m.console.written_flush
      rw [hflush] at hwritten
      refine ⟨?_, ?_, m.console, hflush⟩
      · rw [Halt.marking_of_ne hreason, List.append_nil]
      · rw [Halt.mark, if_neg hreason, List.append_nil]
        exact hwritten

/-- A cleanup that fails has hung up, and has failed to mark the halt or to flush. -/
theorem Cleanup.of_failed {reason : Halt}
    (h : m.Cleanup net reason effects (.failed failure) front) :
    ∃ fault, failure = .output fault ∧
      (reason = .finished ∧ effects = m.farewell net ++ [.wrote [0x0a] (.error fault)] ∨
        effects = m.farewell net ++ reason.marking ++ [.flushed (.error fault)]) := by
  generalize hending : Ending.failed failure = ending at h
  cases h with
  | @unmarked fault console hreason hwrite =>
    cases hending
    exact ⟨fault, rfl, Or.inl ⟨hreason, rfl⟩⟩
  | @marked marked console result hreason hwrite hflush =>
    cases result with
    | ok => cases hending
    | error fault =>
      cases hending
      subst hreason
      exact ⟨fault, rfl, Or.inr (List.append_assoc _ [_] [_]).symm⟩
  | @flushed console result hreason hflush =>
    cases result with
    | ok => cases hending
    | error fault =>
      cases hending
      rw [Halt.marking_of_ne hreason, List.append_nil]
      exact ⟨fault, rfl, Or.inr rfl⟩

/-! ## The contract -/

/-- A run that halted has its effects from its steps and from its cleanup. -/
theorem effectsOf_runWatching {reason : Halt} (h : (m.watched net flag).ending = .halted reason) :
    effectsOf (m.runWatching net flag).events.toList =
      effectsOf (m.watched net flag).events.toList ++
        effectsOf ((m.watched net flag).machine.finish net reason).events.toList := by
  rw [runWatching_halted h, Array.toList_append, effectsOf_append]

/-- **What a run leaves behind.**  A run that halts holds no connection, has put on the
console what its steps wrote and then the mark of the halt, a newline at the end of
the program and nothing otherwise, and a successful flush was the last thing it did.
A run that a step failed has done nothing after that step.  A run that its cleanup
failed, in marking the halt or in flushing, has hung up nevertheless.  No cleanup
changes more than the connection in use, the console, and the world in which the
connection was closed. -/
theorem run_cleanup_contract (net : Network World Link) (flag : Nat → Bool)
    (m : Machine World Link) :
    let report := m.watched net flag
    let run := m.runWatching net flag
    let made := m.paces net flag
    let seen := (List.range made).flatMap fun i => effectsOf ((m.after net i).step net).events
    (report.machine = m.after net made ∧ effectsOf report.events.toList = seen) ∧
    (∀ reason, run.ending = .halted reason →
      report.ending = .halted reason ∧ run.machine.active = none ∧
      run.machine.console.written =
        m.console.written ++ seen.flatMap Effect.printed ++ reason.mark ∧
      effectsOf run.events.toList =
        seen ++ (report.machine.farewell net ++ reason.marking ++ [.flushed (.ok ())]) ∧
      ∃ before : Console, before.flush = (.ok (), run.machine.console)) ∧
    (∀ failure, report.ending = .failed failure →
      run = report ∧ m.moves net (.run flag) = List.replicate made .step ∧
      ∃ last, made = last + 1 ∧ ((m.after net last).step net).outcome = .failed failure ∧
        run.machine = ((m.after net last).step net).machine ∧
        run.machine.active = (m.after net last).active) ∧
    (∀ reason failure, report.ending = .halted reason → run.ending = .failed failure →
      run.machine.active = none ∧
      ∃ fault tried, failure = .output fault ∧
        effectsOf run.events.toList = seen ++ (report.machine.farewell net ++ tried) ∧
        (reason = .finished ∧ tried = [.wrote [0x0a] (.error fault)] ∨
          tried = reason.marking ++ [.flushed (.error fault)])) ∧
    (∀ failure, run.ending = .failed failure →
      report.ending = .failed failure ∨ ∃ reason, report.ending = .halted reason) ∧
    ∀ reason, report.ending = .halted reason → run.machine =
      { report.machine with
        console := run.machine.console
        world := (report.machine.hungUp net).world
        active := none } := by
  intro report run made seen
  have hmachine : report.machine = m.after net made := machine_watched net flag m
  have hseen : effectsOf report.events.toList = seen := effectsOf_watched net flag m
  have hframe (reason : Halt) (h : report.ending = .halted reason) : run.machine =
      { report.machine with
        console := run.machine.console
        world := (report.machine.hungUp net).world
        active := none } := by
    rw [show run = _ from runWatching_halted h]
    exact machine_finish net report.machine reason
  -- what the cleanup did, once the turns have halted
  have hcleanup (reason : Halt) (h : report.ending = .halted reason) :
      ∃ effects, effectsOf run.events.toList = seen ++ effects ∧
        report.machine.Cleanup net reason effects run.ending run.machine.front := by
    refine ⟨_, hseen ▸ effectsOf_runWatching h, ?_⟩
    rw [show run = _ from runWatching_halted h]
    exact finish_cleanup net report.machine reason
  refine ⟨⟨hmachine, hseen⟩, fun reason hrun => ?_, fun failure hfailed => ?_,
    fun reason failure hhalted hrun => ?_, fun failure hrun => ?_, hframe⟩
  · have hhalted : report.ending = .halted reason := ending_of_cleaned hrun
    obtain ⟨effects, heffects, hrules⟩ := hcleanup reason hhalted
    rw [hrun] at hrules
    obtain ⟨rfl, hmarked, hflushed⟩ := hrules.of_halted
    have hsteps : report.machine.console.written =
        m.console.written ++ seen.flatMap Effect.printed := by
      rw [hmachine]
      exact written_after_of_not_failed fun i hi failure => outcome_of_watched_halted hhalted hi
    refine ⟨hhalted, ?_, ?_, heffects, hflushed⟩
    · rw [hframe reason hhalted]
    · rw [← hsteps]
      exact hmarked
  · have hrun : run = report := runWatching_failed hfailed
    obtain ⟨last, hlast, -, hstep⟩ := exists_failed_of_watched hfailed
    have hleft : run.machine = ((m.after net last).step net).machine := by
      rw [hrun, hmachine, show made = last + 1 from hlast, after]
    refine ⟨hrun, ?_, last, hlast, hstep, hleft, ?_⟩
    · rw [moves_run, hfailed]
      exact List.append_nil _
    · rw [hleft]
      exact (undisturbed_of_failed hstep).active
  · obtain ⟨effects, heffects, hrules⟩ := hcleanup reason hhalted
    rw [hrun] at hrules
    refine ⟨by rw [hframe reason hhalted], ?_⟩
    obtain ⟨fault, hfailure, ⟨hreason, rfl⟩ | rfl⟩ := hrules.of_failed
    · exact ⟨fault, _, hfailure, heffects, Or.inl ⟨hreason, rfl⟩⟩
    · rw [List.append_assoc] at heffects
      exact ⟨fault, _, hfailure, heffects, Or.inr rfl⟩
  · cases hending : report.ending with
    | halted reason => exact Or.inr ⟨reason, rfl⟩
    | failed cause =>
      rw [show run = report from runWatching_failed hending, hending] at hrun
      exact Or.inl hrun
    | uncounted =>
      rw [show run = report.cleaned net from rfl, RunReport.cleaned, hending] at hrun
      rw [hending] at hrun
      cases hrun

/-- The rules of a console that takes nothing. -/
def deafRules : SinkRules :=
  { mishap := fun _ => some (.fails .broken) }

theorem write_deaf {bytes : List UInt8} (h : bytes ≠ []) :
    ((Console.new [] deafRules).write bytes).1 = .error .broken := by
  obtain ⟨byte, rest, rfl⟩ := List.exists_cons_of_ne_nil h
  simp [deafRules, Console.new, Console.write, Sink.writeAll, Sink.offer, Sink.ofRules,
    Sink.misfortune]

/-- A machine with a connection, about to execute a cell. -/
def linked (cell : UInt8) (rules : SinkRules) : Machine PeerWorld Nat :=
  { load (.ofBytes [cell]) (.new [] rules)
      { PeerWorld.ofPeers .isolated [] with
        sessions := #[⟨.unix, none, [], true, #[], false⟩] } {} with
    active := some ⟨.unix, "", 0⟩ }

theorem fetched_linked (cell : UInt8) (rules : SinkRules) :
    (linked cell rules).fetched = Opcode.decode cell := by
  have hcell : (linked cell rules).memory.get (linked cell rules).pc = cell :=
    Memory.get_set_self _ _ _
  rw [fetched, hcell]

theorem watched_linked (cell : UInt8) (rules : SinkRules) :
    (linked cell rules).watched PeerWorld.network (fun _ => false) =
      takeTurns PeerWorld.network (fun _ => false) (UInt64.size - 1 + 1) 0
        (linked cell rules) #[] :=
  rfl

theorem runWatching_linked_finish (rules : SinkRules) :
    (linked Opcode.finish.code rules).runWatching PeerWorld.network (fun _ => false) =
      ((linked Opcode.finish.code rules).counted (some .finish)).finish PeerWorld.network
        .finished := by
  have hfetched : (linked Opcode.finish.code rules).fetched = some .finish :=
    (fetched_linked _ _).trans (by decide)
  rw [runWatching_eq_watched, watched_linked, takeTurns_stepped rfl rfl,
    step_of_fetched_some hfetched]
  simp [execute, RunReport.cleaned]

/-- On a console that takes everything, the cleanup succeeds. -/
theorem ending_linked_finish :
    ((linked Opcode.finish.code {}).runWatching PeerWorld.network fun _ => false).ending =
      .halted .finished := by
  rcases hwrite : (Console.new [] {}).write [0x0a] with ⟨result, marked⟩
  have hresult : ((Console.new [] {}).write [0x0a]).1 = .ok () := by
    simp [Console.new, Console.write, Sink.writeAll, Sink.offer, Sink.ofRules, Sink.misfortune,
      Sink.isFull, Sink.allowance]
  have hflush : ((Console.new [] {}).write [0x0a]).2.flush.1 = .ok () := by
    simp [Console.new, Console.write, Sink.writeAll, Sink.offer, Sink.ofRules, Sink.misfortune,
      Sink.isFull, Sink.allowance, Console.flush, Sink.flush]
  rw [hwrite] at hresult hflush
  obtain rfl : result = .ok () := hresult
  rcases hflushed : marked.flush with ⟨answer, flushed⟩
  rw [hflushed] at hflush
  obtain rfl : answer = .ok () := hflush
  rw [runWatching_linked_finish, finish_marked rfl hwrite, lastFlush_answered hflushed]
  rfl

/-- On a console that takes nothing, it fails to mark the end. -/
theorem ending_linked_finish_deaf :
    ((linked Opcode.finish.code deafRules).runWatching PeerWorld.network fun _ => false).ending =
      .failed (.output .broken) := by
  rcases hwrite : (Console.new [] deafRules).write [0x0a] with ⟨result, unmarked⟩
  have hresult : ((Console.new [] deafRules).write [0x0a]).1 = .error .broken :=
    write_deaf (by decide)
  rw [hwrite] at hresult
  obtain rfl : result = .error .broken := hresult
  rw [runWatching_linked_finish, finish_unmarked rfl hwrite]

/-- There, a cell that names no instruction fails the step. -/
theorem outcome_linked_stray_deaf :
    ((linked 0x0f deafRules).step PeerWorld.network).outcome = .failed (.output .broken) := by
  have hfetched : (linked 0x0f deafRules).fetched = none :=
    (fetched_linked _ _).trans (by decide)
  rcases hwrite : (Console.new [] deafRules).write (Text.utf8 strayCellText.toList) with
    ⟨result, console⟩
  have hresult : ((Console.new [] deafRules).write (Text.utf8 strayCellText.toList)).1 =
      .error .broken := write_deaf (by decide)
  rw [hwrite] at hresult
  obtain rfl : result = .error .broken := hresult
  rw [step_of_fetched_none hfetched,
    stepStray_offered (m := (linked 0x0f deafRules).counted none) hwrite]
  rfl

/-- At the end of the program the connection is given up and a newline is written; if
that fails, the connection is given up all the same.  A stray cell that cannot be told
of fails the run and leaves the connection in use. -/
theorem run_cleanup_contract_linked :
    (∃ run, run = (linked Opcode.finish.code {}).runWatching PeerWorld.network (fun _ => false) ∧
      run.ending = .halted .finished ∧ run.machine.active = none ∧
      run.machine.console.written = [0x0a]) ∧
    (∃ run, run = (linked Opcode.finish.code deafRules).runWatching PeerWorld.network
        (fun _ => false) ∧
      run.ending = .failed (.output .broken) ∧ run.machine.active = none) ∧
    ∃ run, run = (linked 0x0f deafRules).runWatching PeerWorld.network (fun _ => false) ∧
      run.ending = .failed (.output .broken) ∧
      run.machine.active = (linked 0x0f deafRules).active := by
  refine ⟨⟨_, rfl, ending_linked_finish, ?_⟩, ⟨_, rfl, ending_linked_finish_deaf, ?_⟩,
    ⟨_, rfl, ?_⟩⟩
  · have hmade : (linked Opcode.finish.code {}).paces PeerWorld.network (fun _ => false) = 1 := by
      decide +kernel
    have hfetched : (linked Opcode.finish.code {}).fetched = some .finish :=
      (fetched_linked _ _).trans (by decide)
    obtain ⟨-, hok, -⟩ := run_cleanup_contract PeerWorld.network (fun _ => false)
      (linked Opcode.finish.code {})
    obtain ⟨-, hactive, hwritten, -⟩ := hok .finished ending_linked_finish
    refine ⟨hactive, hwritten.trans ?_⟩
    rw [hmade, List.range_one, List.flatMap_singleton, after, step_of_fetched_some hfetched]
    rfl
  · have hhalted : ((linked Opcode.finish.code deafRules).watched PeerWorld.network
        fun _ => false).ending = .halted .finished := by decide +kernel
    obtain ⟨-, -, -, hcleanup, -⟩ := run_cleanup_contract PeerWorld.network (fun _ => false)
      (linked Opcode.finish.code deafRules)
    exact (hcleanup .finished (.output .broken) hhalted ending_linked_finish_deaf).1
  · have hstep := outcome_linked_stray_deaf
    have hfailed : ((linked 0x0f deafRules).watched PeerWorld.network
        fun _ => false).ending = .failed (.output .broken) := by
      rw [watched_linked, takeTurns_stepped rfl rfl, hstep]
    have hmoves : (linked 0x0f deafRules).moves PeerWorld.network (.run fun _ => false) =
        [.step] := by
      rw [moves, show (linked 0x0f deafRules).turnsLeft = UInt64.size - 1 + 1 from rfl, turnMoves,
        hstep]
      rfl
    obtain ⟨-, -, hunfinished, -⟩ := run_cleanup_contract PeerWorld.network (fun _ => false)
      (linked 0x0f deafRules)
    obtain ⟨hrun, -, last, hlast, -, -, hactive⟩ := hunfinished (.output .broken) hfailed
    rw [paces, hmoves] at hlast
    obtain rfl : last = 0 := Nat.succ.inj hlast.symm
    rw [hrun] at hactive ⊢
    exact ⟨hfailed, hactive⟩

end Machine
end RingTape
