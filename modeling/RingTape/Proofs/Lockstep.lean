import RingTape.Proofs.Parts
import RingTape.Proofs.Readings

/-!
# Two machines on two consoles

Two machines that differ in nothing but their consoles, and in what they do at the end of
the input, make the same steps for as long as the consoles serve them alike.  A machine
asks three things of its console.  It writes and flushes: here two sinks serve alike if a
*bisimulation* relates them.  And it reads: here it only matters what the current cell
becomes, or that the machine is to stop (`EndPolicy.fill`), so a byte that was read may
stand against an end of the input that is treated as that byte.

`Paired` relates the machines.  A step keeps it (`Paired.step`) if the reading that the
step takes, if it takes one, fills the current cell alike, and so does plain stepping
(`Paired.after`); the cleanup keeps it (`Paired.finish`); and so a run keeps it and ends
alike (`Paired.runWatching`) if the readings that it takes do so (`Agrees`).  A connection
is read under the policy too, so where the policies differ there must not be one.
-/

namespace RingTape

/-- A write of what is there anyway. -/
theorem Memory.set_get (m : Memory) (a : UInt16) : m.set a (m.get a) = m := by
  ext b
  rw [get_set]
  split
  · rename_i hab
    rw [hab]
  · rfl

namespace EndPolicy

/-- **What becomes of the current cell** when something is read: its new value, or nothing
if the machine is to stop. -/
def fill (policy : EndPolicy) (cell : UInt8) : Reading → Option UInt8
  | .ok (some byte) => some byte
  | _ =>
    match policy with
    | .zero => some 0
    | .keep => some cell
    | .halt => none

theorem outcome_eq_fill (policy : EndPolicy) (cell : UInt8) (reading : Reading) :
    policy.outcome reading =
      if (policy.fill cell reading).isSome then .continued else .halted .inputExhausted := by
  rcases reading with fault | _ | byte
  · cases policy <;> rfl
  · cases policy <;> rfl
  · rfl

end EndPolicy

/-- The next readings of two readers, taken under two policies, do the same to every cell. -/
def Reader.Agrees (policy other : EndPolicy) (n : Nat) (r s : Reader) : Prop :=
  ∀ j, j < n → ∀ cell, other.fill cell (s.nth j) = policy.fill cell (r.nth j)

namespace Reader.Agrees

variable {policy other : EndPolicy} {n k : Nat} {r s : Reader}

theorem mono (h : Agrees policy other n r s) (hk : k ≤ n) : Agrees policy other k r s :=
  fun j hj => h j (Nat.lt_of_lt_of_le hj hk)

theorem advance (h : Agrees policy other (k + n) r s) :
    Agrees policy other n (r.advance k) (s.advance k) := by
  intro j hj cell
  rw [nth_advance, nth_advance]
  exact h (k + j) (Nat.add_lt_add_left hj k) cell

end Reader.Agrees

/-- **A bisimulation of sinks**: related sinks give the same answers and stay related. -/
structure Sink.Bisimulation (R : Sink → Sink → Prop) : Prop where
  write : ∀ {s t}, R s t → ∀ bytes, (t.writeAll bytes).1 = (s.writeAll bytes).1 ∧
    R (s.writeAll bytes).2 (t.writeAll bytes).2
  flush : ∀ {s t}, R s t → t.flush.1 = s.flush.1 ∧ R s.flush.2 t.flush.2

namespace Console

variable {R : Sink → Sink → Prop} (hR : Sink.Bisimulation R) {c d c' : Console}
  {result : Except Fault Unit}
include hR

theorem write_related (h : R c.output d.output) {bytes : List UInt8}
    (hwrite : c.write bytes = (result, c')) :
    ∃ d', d.write bytes = (result, d') ∧ R c'.output d'.output := by
  obtain ⟨hresult, hnext⟩ := hR.write h bytes
  cases hwrite
  exact ⟨(d.write bytes).2, Prod.ext hresult rfl, hnext⟩

theorem flush_related (h : R c.output d.output) (hflush : c.flush = (result, c')) :
    ∃ d', d.flush = (result, d') ∧ R c'.output d'.output := by
  obtain ⟨hresult, hnext⟩ := hR.flush h
  cases hflush
  exact ⟨d.flush.2, Prod.ext hresult rfl, hnext⟩

end Console

namespace Machine

variable {World Link : Type}

/-- The machine on another console and under another policy. -/
def facing (console : Console) (policy : EndPolicy) (m : Machine World Link) : Machine World Link :=
  { m with console := console, settings := { m.settings with onEnd := policy } }

/-- **Two machines that differ in console and policy alone**, with related sinks. -/
structure Paired (R : Sink → Sink → Prop) (policy : EndPolicy) (m t : Machine World Link) :
    Prop where
  output : R m.console.output t.console.output
  rest : t = m.facing t.console policy

/-- The readings that some moves take from the console agree. -/
abbrev InputsAgree (policy : EndPolicy) (n : Nat) (m t : Machine World Link) : Prop :=
  Reader.Agrees m.settings.onEnd policy n m.console.input t.console.input

/-! ## Steps -/

section Step

variable {net : Network World Link} {m : Machine World Link} {console : Console}
  {policy : EndPolicy}

theorem refilled_facing {reading reading' : Reading}
    (h : policy.fill m.current reading' = m.settings.onEnd.fill m.current reading) :
    (m.facing console policy).refilled reading' = m.refilled reading := by
  have hrefilled (t : Machine World Link) (r : Reading) : t.refilled r =
      ((t.settings.onEnd.fill t.current r).map (t.memory.set t.head)).getD t.memory := by
    have hkeep := t.memory.set_get t.head
    rcases r with fault | _ | byte
    · cases hpolicy : t.settings.onEnd <;> simp [refilled, hpolicy, EndPolicy.fill, current, hkeep]
    · cases hpolicy : t.settings.onEnd <;> simp [refilled, hpolicy, EndPolicy.fill, current, hkeep]
    · rfl
  rw [hrefilled, hrefilled m]
  exact congrArg (fun value => (value.map (m.memory.set m.head)).getD m.memory) h

/-- Where the machines go from here depends on the console by what is read alone. -/
theorem nextTape_facing (hfill : m.fetched = some .read →
      policy.fill m.current ((m.facing console policy).supply net) =
        m.settings.onEnd.fill m.current (m.supply net)) :
    (m.facing console policy).nextTape net = m.nextTape net := by
  have hmemory : (m.facing console policy).nextMemory net = m.nextMemory net := by
    unfold nextMemory
    rw [show (m.facing console policy).fetched = m.fetched from rfl]
    split
    case h_1 => rfl
    case h_2 => rfl
    case h_3 hfetched => exact refilled_facing (hfill hfetched)
    case h_4 => rfl
  rw [nextTape, hmemory]
  rfl

theorem supply_unconnected (h : m.active = none) : m.supply net = m.console.input.nth 0 := by
  rw [supply, h, ← Reader.readOne_fst]
  rfl

variable (hlink : m.active.isSome → policy = m.settings.onEnd)
variable (hfill : m.readsConsole = true → policy.fill m.current (console.input.nth 0) =
  m.settings.onEnd.fill m.current (m.console.input.nth 0))
include hlink hfill

/-- A step that reads and goes on fills the current cell alike. -/
theorem fill_supply_facing (hcontinued : (m.step net).outcome = .continued)
    (hfetched : m.fetched = some .read) :
    policy.fill m.current ((m.facing console policy).supply net) =
      m.settings.onEnd.fill m.current (m.supply net) := by
  rcases m.active.eq_none_or_eq_some with hactive | ⟨connection, hactive⟩
  · rcases hflush : m.console.flush with ⟨fault | _, flushed⟩
    · have hconduct : m.Conduct net _ (.failed (.output fault)) _ :=
        .unflushed hfetched hactive hflush
      obtain ⟨-, hfailed, -⟩ := hconduct.eq_step
      rw [hcontinued] at hfailed
      cases hfailed
    · rw [supply_unconnected hactive, supply_unconnected (m := m.facing console policy) hactive]
      exact hfill (readsConsole_iff.mpr ⟨hfetched, hactive, congrArg Prod.fst hflush⟩)
  · rw [hlink (by simp [hactive])]
    simp only [supply, facing, hactive]

variable {R : Sink → Sink → Prop} (hR : Sink.Bisimulation R)
variable (houtput : R m.console.output console.output)
include hR houtput

/-- **The same rule fits both machines**, with the same outcome and related sinks. -/
theorem Conduct.facing {effects : List (Effect Link)} {outcome : Outcome}
    {front : Front World Link} (h : m.Conduct net effects outcome front) :
    ∃ effects' console', (m.facing console policy).Conduct net effects' outcome
      { front with console := console' } ∧ R front.console.output console'.output := by
  cases h with
  | stray hfetched hwrite =>
    obtain ⟨c', hwrite', hnext⟩ := Console.write_related hR houtput hwrite
    exact ⟨_, c', .stray hfetched hwrite', hnext⟩
  | sent hfetched hactive hsend => exact ⟨_, console, .sent hfetched hactive hsend, houtput⟩
  | wrote hfetched hactive hwrite =>
    obtain ⟨c', hwrite', hnext⟩ := Console.write_related hR houtput hwrite
    exact ⟨_, c', .wrote hfetched hactive hwrite', hnext⟩
  | received hfetched hactive hreceive =>
    rw [← hlink (by simp [hactive])]
    exact ⟨_, console, .received hfetched hactive hreceive, houtput⟩
  | unflushed hfetched hactive hflush =>
    obtain ⟨c', hflush', hnext⟩ := Console.flush_related hR houtput hflush
    exact ⟨_, c', .unflushed hfetched hactive hflush', hnext⟩
  | @read flushed c reading hfetched hactive hflush hread =>
    obtain ⟨flushed', hflush', hnext⟩ := Console.flush_related hR houtput hflush
    have hreads : m.readsConsole = true :=
      readsConsole_iff.mpr ⟨hfetched, hactive, congrArg Prod.fst hflush⟩
    have hreading : reading = m.console.input.nth 0 := by
      rw [← Reader.readOne_fst, ← Console.input_of_flush hflush]
      exact (congrArg Prod.fst hread).symm
    have hreading' : flushed'.readByte.1 = console.input.nth 0 := by
      rw [← Reader.readOne_fst, ← Console.input_of_flush hflush']
      rfl
    have houtcome : m.settings.onEnd.outcome reading = policy.outcome flushed'.readByte.1 := by
      rw [EndPolicy.outcome_eq_fill _ m.current, EndPolicy.outcome_eq_fill _ m.current, hreading,
        hreading', hfill hreads]
    rw [houtcome]
    refine ⟨_, flushed'.readByte.2, .read hfetched hactive hflush' rfl, ?_⟩
    rw [← show flushed.readByte.2 = c from congrArg Prod.snd hread]
    exact hnext
  | reached hfetched hdial hreached =>
    exact ⟨_, console, .reached hfetched hdial hreached, houtput⟩
  | unreached hfetched hdial hreached hwrite =>
    obtain ⟨c', hwrite', hnext⟩ := Console.write_related hR houtput hwrite
    exact ⟨_, c', .unreached hfetched hdial hreached hwrite', hnext⟩
  | finished hfetched => exact ⟨_, console, .finished hfetched, houtput⟩
  | quiet hfetched hop => exact ⟨_, console, .quiet hfetched hop, houtput⟩

end Step

section Steps

variable (net : Network World Link) {m t : Machine World Link} {policy : EndPolicy}
  {R : Sink → Sink → Prop} (hR : Sink.Bisimulation R) (h : m.Paired R policy t)
include hR h

theorem Paired.readsConsole : t.readsConsole = m.readsConsole := by
  obtain ⟨houtput, hrest⟩ := h
  generalize t.console = console at houtput hrest
  subst hrest
  have hflush : console.flush.1 = m.console.flush.1 := (hR.flush houtput).1
  unfold Machine.readsConsole
  rw [show (m.facing console policy).console.flush.1 = m.console.flush.1 from hflush]
  rfl

/-- **A step keeps machines paired** and comes to the same for both, if what it reads from
the console does the same to the current cell; then the readings after it agree as before. -/
theorem Paired.step (hlink : m.active.isSome → policy = m.settings.onEnd) {n : Nat}
    (hagree : m.InputsAgree policy ((if m.readsConsole then 1 else 0) + n) t) :
    (t.step net).outcome = (m.step net).outcome ∧
      (m.step net).machine.Paired R policy (t.step net).machine ∧
      (m.step net).machine.InputsAgree policy n (t.step net).machine := by
  have hreads := h.readsConsole hR
  obtain ⟨houtput, hrest⟩ := h
  generalize hconsole : t.console = console at houtput hrest
  subst hrest
  have hfill (hread : m.readsConsole = true) : policy.fill m.current (console.input.nth 0) =
      m.settings.onEnd.fill m.current (m.console.input.nth 0) := by
    rw [hread, if_pos rfl] at hagree
    exact hagree 0 (by omega) m.current
  obtain ⟨effects, console', hconduct, hnext⟩ :=
    (step_conduct net m).facing hlink hfill hR houtput
  obtain ⟨-, houtcome, hfront⟩ := hconduct.eq_step
  have htape : ((m.facing console policy).step net).machine.tape = (m.step net).machine.tape := by
    rw [step_leads net m, step_leads net (m.facing console policy), houtcome]
    split
    · rename_i hcontinued
      exact nextTape_facing (fill_supply_facing hlink hfill hcontinued)
    · rfl
  have hbooks : ((m.facing console policy).step net).machine.books =
      ((m.step net).machine.facing console' policy).books := by
    rw [books_step]
    exact congrArg (fun books : Books =>
      { books with settings := { books.settings with onEnd := policy } }) (books_step net m).symm
  refine ⟨houtcome, ?_, ?_⟩
  · have hafter : ((m.facing console policy).step net).machine.console = console' :=
      congrArg Front.console hfront
    refine ⟨hafter ▸ hnext, ?_⟩
    rw [hafter]
    exact eq_of_parts htape hfront hbooks
  · rw [InputsAgree, settings_step, input_step, input_step, hreads]
    exact hagree.advance

/-- **Plain stepping keeps machines paired**, if enough of the readings agree: a step takes
at most one. -/
theorem Paired.after {n rest : Nat}
    (hlinks : ∀ j, j < n → (m.after net j).active.isSome → policy = m.settings.onEnd)
    (hagree : m.InputsAgree policy (n + rest) t) :
    (m.after net n).Paired R policy (t.after net n) ∧
      (m.after net n).InputsAgree policy rest (t.after net n) := by
  induction n generalizing rest with
  | zero => exact ⟨h, hagree.mono (Nat.le_add_left rest 0)⟩
  | succ n ih =>
    rw [Nat.add_assoc] at hagree
    obtain ⟨hpaired, hinputs⟩ := ih (fun j hj => hlinks j (Nat.lt_succ_of_lt hj)) hagree
    have hlink (hactive : (m.after net n).active.isSome) :
        policy = (m.after net n).settings.onEnd := by
      rw [settings_after]
      exact hlinks n (Nat.lt_succ_self n) hactive
    obtain ⟨-, hnext, hrest⟩ := hpaired.step net hR hlink (n := rest)
      (hinputs.mono (by split <;> omega))
    exact ⟨hnext, hrest⟩

/-- **A cleanup keeps machines paired** and comes to the same for both. -/
theorem Paired.finish (reason : Halt) :
    (t.finish net reason).ending = (m.finish net reason).ending ∧
      (m.finish net reason).machine.Paired R policy (t.finish net reason).machine := by
  obtain ⟨houtput, hrest⟩ := h
  generalize t.console = console at houtput hrest
  subst hrest
  have hhangUp : (m.facing console policy).hangUp net =
      ((m.hangUp net).1.facing console policy, (m.hangUp net).2) := by
    unfold hangUp
    rw [show (m.facing console policy).active = m.active from rfl]
    split <;> rfl
  by_cases hreason : reason = .finished
  · rcases hwrite : m.console.write [0x0a] with ⟨fault | _, marked⟩
    · obtain ⟨marked', hwrite', hnext⟩ := Console.write_related hR houtput hwrite
      rw [finish_unmarked hreason hwrite,
        finish_unmarked (m := m.facing console policy) hreason hwrite', hhangUp]
      exact ⟨rfl, hnext, rfl⟩
    · obtain ⟨marked', hwrite', hmarked⟩ := Console.write_related hR houtput hwrite
      rcases hflush : marked.flush with ⟨result, flushed⟩
      obtain ⟨flushed', hflush', hnext⟩ := Console.flush_related hR hmarked hflush
      rw [finish_marked hreason hwrite, lastFlush_answered hflush,
        finish_marked (m := m.facing console policy) hreason hwrite', lastFlush_answered hflush',
        hhangUp]
      exact ⟨rfl, hnext, rfl⟩
  · rcases hflush : m.console.flush with ⟨result, flushed⟩
    obtain ⟨flushed', hflush', hnext⟩ := Console.flush_related hR houtput hflush
    have hclosed : (m.hangUp net).1.console.flush = (result, flushed) :=
      (console_hangUp net m).symm ▸ hflush
    have hclosed' : ((m.hangUp net).1.facing console policy).console.flush = (result, flushed') :=
      hflush'
    rw [finish_unwritten (m := m) hreason, lastFlush_answered hclosed,
      finish_unwritten (m := m.facing console policy) hreason, hhangUp, lastFlush_answered hclosed']
    exact ⟨rfl, hnext, rfl⟩

end Steps

/-! ## Runs -/

section Runs

variable {net : Network World Link} {policy : EndPolicy} {R : Sink → Sink → Prop}

theorem Paired.limitReached {m t : Machine World Link} (h : m.Paired R policy t) :
    t.limitReached = m.limitReached := by
  rw [h.rest]
  rfl

/-- **Turns of paired machines end alike**, and leave paired machines. -/
theorem Paired.takeTurns (hR : Sink.Bisimulation R) {flag : Nat → Bool} {turns look : Nat}
    {m t : Machine World Link} (h : m.Paired R policy t)
    (hlinks : ∀ s ∈ m.departures net (turnMoves net flag turns look m),
      s.active.isSome → policy = s.settings.onEnd)
    (hagree : m.InputsAgree policy (m.reads net (turnMoves net flag turns look m)) t)
    (events events' : Array (Event Link)) :
    let report := Machine.takeTurns net flag turns look m events
    let report' := Machine.takeTurns net flag turns look t events'
    report'.ending = report.ending ∧ report.machine.Paired R policy report'.machine ∧
      t.reads net (turnMoves net flag turns look t) =
        m.reads net (turnMoves net flag turns look m) := by
  induction turns generalizing look m t events events' with
  | zero => exact ⟨rfl, h, rfl⟩
  | succ turns ih =>
    rw [turnMoves] at hlinks hagree ⊢
    rw [turnMoves, h.limitReached]
    cases hflag : flag look with
    | true =>
      rw [takeTurns_raised hflag, takeTurns_raised hflag]
      exact ⟨rfl, h, rfl⟩
    | false =>
      cases hlimit : m.limitReached with
      | true =>
        rw [takeTurns_limited hflag hlimit, takeTurns_limited hflag (h.limitReached.trans hlimit)]
        exact ⟨rfl, h, rfl⟩
      | false =>
        rw [takeTurns_stepped hflag hlimit,
          takeTurns_stepped hflag (h.limitReached.trans hlimit)]
        simp only [hflag, hlimit, Bool.false_eq_true, if_false] at hlinks hagree ⊢
        have hreads := h.readsConsole hR
        cases hstep : (m.step net).outcome with
        | continued =>
          simp only [hstep, reads_step] at hlinks hagree ⊢
          obtain ⟨houtcome, hnext, hrest⟩ := h.step net hR (hlinks m List.mem_cons_self) hagree
          simp only [houtcome, hstep, reads_step, hreads]
          obtain ⟨hending, hlast, hmoves⟩ := ih hnext
            (fun s hs => hlinks s (List.mem_cons_of_mem _ hs)) hrest
            (events ++ (m.step net).events) (events' ++ (t.step net).events)
          exact ⟨hending, hlast, congrArg _ hmoves⟩
        | halted reason =>
          simp only [hstep, reads_step] at hlinks hagree ⊢
          obtain ⟨houtcome, hnext, -⟩ := h.step net hR (hlinks m List.mem_cons_self) hagree
          rw [houtcome, hstep]
          refine ⟨rfl, hnext, ?_⟩
          rw [← hreads]
          exact reads_step net t [.cleanup reason]
        | failed failure =>
          simp only [hstep, reads_step] at hlinks hagree ⊢
          obtain ⟨houtcome, hnext, -⟩ := h.step net hR (hlinks m List.mem_cons_self) hagree
          rw [houtcome, hstep]
          refine ⟨rfl, hnext, ?_⟩
          rw [← hreads]
          exact reads_step net t []

/-- The cleanup after turns that ended alike. -/
theorem Paired.cleaned (net : Network World Link) (hR : Sink.Bisimulation R)
    {report report' : RunReport World Link} (hending : report'.ending = report.ending)
    (h : report.machine.Paired R policy report'.machine) :
    (report'.cleaned net).ending = (report.cleaned net).ending ∧
      (report.cleaned net).machine.Paired R policy (report'.cleaned net).machine := by
  rw [RunReport.cleaned, RunReport.cleaned, hending]
  split
  · rename_i reason _
    exact h.finish net hR reason
  · exact ⟨hending, h⟩

theorem Paired.turnsLeft {m t : Machine World Link} (h : m.Paired R policy t) :
    t.turnsLeft = m.turnsLeft := by
  rw [h.rest]
  rfl

/-- **Runs of paired machines end alike**, and leave paired machines. -/
theorem Paired.runWatching (hR : Sink.Bisimulation R) {flag : Nat → Bool}
    {m t : Machine World Link} (h : m.Paired R policy t)
    (hlinks : ∀ s ∈ m.departures net (m.moves net (.run flag)),
      s.active.isSome → policy = s.settings.onEnd)
    (hagree : m.InputsAgree policy (m.reads net (m.moves net (.run flag))) t) :
    (t.runWatching net flag).ending = (m.runWatching net flag).ending ∧
      (m.runWatching net flag).machine.Paired R policy (t.runWatching net flag).machine ∧
      t.reads net (t.moves net (.run flag)) = m.reads net (m.moves net (.run flag)) := by
  obtain ⟨hending, hturned, hreads⟩ := h.takeTurns hR hlinks hagree #[] #[]
  have hwatched : Machine.takeTurns net flag m.turnsLeft 0 t #[] = t.watched net flag := by
    rw [watched, h.turnsLeft]
  have hmoves : turnMoves net flag m.turnsLeft 0 t = t.moves net (.run flag) := by
    rw [moves, h.turnsLeft]
  rw [hwatched] at hending hturned
  rw [hmoves] at hreads
  obtain ⟨hclosed, hlast⟩ := hturned.cleaned net hR hending
  exact ⟨hclosed, hlast, hreads⟩

end Runs

end Machine
end RingTape
