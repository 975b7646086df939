import RingTape.Network.Peers
import RingTape.Proofs.Conservation

/-!
# Where bytes go and where they come from

The rules of `Conduct` and `Cleanup` say for a single move which stream it touches.
This module follows connections through whole histories.  A connection is *used* by
sending over it or receiving from it.  In every history the only connection that is
used is the one that is in use by the ledger (`Ledger.Proper`), so none that was
superseded or closed; and what is handed to a connection, byte by byte, are the
current cells of the writes that were executed while it was in use
(`handed_play`).
-/

namespace RingTape

variable {World Link : Type}

namespace Effect

/-- The connection that an effect uses. -/
def party? : Effect Link → Option (Connection Link)
  | .sent connection _ _ => some connection
  | .received connection _ => some connection
  | _ => none

/-- The byte that an effect hands to a connection. -/
def handed? : Effect Link → Option UInt8
  | .sent _ byte _ => some byte
  | _ => none

theorem handed?_of_party? {e : Effect Link} (h : e.party? = none) : e.handed? = none := by
  cases e with
  | sent => cases h
  | _ => rfl

end Effect

namespace Ledger

variable (l : Ledger Link)

/-- The bytes that effects hand to the connection with number `j`. -/
def handed (j : Nat) : Ledger Link → List (Effect Link) → List UInt8
  | _, [] => []
  | l, e :: rest =>
    (if l.active = some j then e.handed?.toList else []) ++ handed j (l.record e) rest

/-- Effects use the connection in use, and no other. -/
def Proper : Ledger Link → List (Effect Link) → Prop
  | _, [] => True
  | l, e :: rest => (∀ connection ∈ e.party?, l.inUse? = some connection) ∧ (l.record e).Proper rest

theorem handed_append (j : Nat) (first second : List (Effect Link)) :
    handed j l (first ++ second) = handed j l first ++ handed j (l.recordAll first) second := by
  induction first generalizing l with
  | nil => rfl
  | cons e rest ih => simp only [List.cons_append, handed, ih, recordAll_cons, List.append_assoc]

theorem proper_append (first second : List (Effect Link)) :
    l.Proper (first ++ second) ↔ l.Proper first ∧ (l.recordAll first).Proper second := by
  induction first generalizing l with
  | nil => simp [Proper]
  | cons e rest ih => simp only [List.cons_append, Proper, ih, recordAll_cons, and_assoc]

section Unused

variable {effects : List (Effect Link)} (h : ∀ e ∈ effects, e.party? = none)
include h

theorem handed_of_unused (j : Nat) : handed j l effects = [] := by
  induction effects generalizing l with
  | nil => rfl
  | cons e rest ih =>
    have hhanded := Effect.handed?_of_party? (h e List.mem_cons_self)
    rw [handed, hhanded, ih _ fun e he => h e (List.mem_cons_of_mem _ he)]
    simp

theorem proper_of_unused : l.Proper effects := by
  induction effects generalizing l with
  | nil => trivial
  | cons e rest ih =>
    refine ⟨?_, ih _ fun e he => h e (List.mem_cons_of_mem _ he)⟩
    rw [h e List.mem_cons_self]
    exact nofun

end Unused

variable {l}

theorem active_eq_none_of_inUse? (hl : l.Valid) (h : l.inUse? = none) : l.active = none := by
  have hnumbers := map_some_inUse? hl
  rw [h] at hnumbers
  cases hactive : l.active with
  | none => rfl
  | some j => simp [hactive] at hnumbers

/-- What is used anywhere in a proper list of effects is neither superseded nor closed
by then. -/
theorem Proper.of_append (hl : l.Valid) {before after : List (Effect Link)} {e : Effect Link}
    (h : l.Proper (before ++ e :: after)) {connection : Connection Link}
    (hparty : e.party? = some connection) :
    ∃ j, (l.recordAll before).active = some j ∧
      (l.recordAll before).made[j]? = some connection ∧
      j ∉ (l.recordAll before).superseded ∧ j ∉ (l.recordAll before).closed := by
  have hvalid := hl.recordAll before
  obtain ⟨-, hinUse, -⟩ := (l.proper_append before (e :: after)).mp h
  obtain ⟨j, hactive, hmade⟩ := Option.bind_eq_some_iff.mp (hinUse connection hparty)
  refine ⟨j, hactive, hmade, fun hj => ?_, fun hj => ?_⟩
  · exact Nat.lt_irrefl j (hvalid.lt_active (Or.inl hj) hactive)
  · exact Nat.lt_irrefl j (hvalid.lt_active (Or.inr hj) hactive)

end Ledger

namespace Machine

variable {net : Network World Link} {m : Machine World Link} {l : Ledger Link}
  {closes : List (Connection Link)} {effects : List (Effect Link)} {front : Front World Link}

/-- **A step uses at most one connection**, and only by writing or reading. -/
theorem Conduct.parties {outcome : Outcome} (h : m.Conduct net effects outcome front) :
    (∃ connection result, m.fetched = some .write ∧ m.active = some connection ∧
      effects = [.sent connection (m.memory.get m.head) result]) ∨
    (∃ connection reading, m.fetched = some .read ∧ m.active = some connection ∧
      effects = [.received connection reading]) ∨
    (m.fetched = some .write → m.active = none) ∧ ∀ e ∈ effects, e.party? = none := by
  cases h with
  | sent hfetched hactive hsend => exact Or.inl ⟨_, _, hfetched, hactive, rfl⟩
  | received hfetched hactive hreceive => exact Or.inr (Or.inl ⟨_, _, hfetched, hactive, rfl⟩)
  | wrote hfetched hactive hwrite =>
    exact Or.inr (Or.inr ⟨fun _ => hactive, by simp [Effect.party?]⟩)
  | stray hfetched _ | unflushed hfetched _ _ | read hfetched _ _ _ | unreached hfetched _ _ _
  | finished hfetched =>
    exact Or.inr (Or.inr ⟨by simp [hfetched], by simp [Effect.party?]⟩)
  | reached hfetched hdial hreached =>
    exact Or.inr (Or.inr ⟨by simp [hfetched], by simp [Effect.party?]⟩)
  | quiet hfetched hop =>
    refine Or.inr (Or.inr ⟨fun h => absurd ?_ hop, by simp⟩)
    rw [Option.some.inj (hfetched.symm.trans h)]
    decide

/-- A cleanup uses no connection. -/
theorem Cleanup.parties {reason : Halt} {ending : Ending}
    (h : m.Cleanup net reason effects ending front) : ∀ e ∈ effects, e.party? = none := by
  have hfarewell : ∀ e ∈ m.farewell net, e.party? = none := by
    simp [farewell, Effect.party?]
  cases h with
  | unmarked _ _ | marked _ _ _ | flushed _ _ =>
    exact List.forall_mem_append.mpr ⟨hfarewell, by simp [Effect.party?]⟩

/-- The bytes that moves write while the connection with number `j` is in use: the cells
at the head when they do. -/
def writesOver (net : Network World Link) (j : Nat) :
    Ledger Link → Machine World Link → List Move → List UInt8
  | _, _, [] => []
  | l, m, move :: rest =>
    (if move = .step ∧ m.fetched = some .write ∧ l.active = some j then [m.memory.get m.head]
      else []) ++ writesOver net j (l.recordAll (m.move net move).2) (m.move net move).1 rest

theorem Conduct.handed {outcome : Outcome} (h : m.Conduct net effects outcome front)
    (hl : l.Valid) (ht : l.Tells m.front closes) (j : Nat) :
    Ledger.handed j l effects =
      if m.fetched = some .write ∧ l.active = some j then [m.memory.get m.head] else [] := by
  rcases h.parties with ⟨connection, result, hfetched, -, rfl⟩ |
    ⟨connection, reading, hfetched, -, rfl⟩ | ⟨hwrite, hunused⟩
  · simp [Ledger.handed, Effect.handed?, hfetched]
  · simp [Ledger.handed, Effect.handed?, hfetched]
  · rw [l.handed_of_unused hunused, if_neg]
    -- a write that uses no connection finds none in use, and the ledger tells so
    rintro ⟨hfetched, hactive⟩
    have hnone : l.active = none :=
      Ledger.active_eq_none_of_inUse? hl (ht.active.symm.trans (hwrite hfetched))
    rw [hnone] at hactive
    cases hactive

theorem Conduct.proper {outcome : Outcome} (h : m.Conduct net effects outcome front)
    (ht : l.Tells m.front closes) : l.Proper effects := by
  rcases h.parties with ⟨connection, result, -, hactive, rfl⟩ |
    ⟨connection, reading, -, hactive, rfl⟩ | ⟨-, hunused⟩
  · refine ⟨?_, trivial⟩
    rintro _ ⟨⟩
    exact ht.active.symm.trans hactive
  · refine ⟨?_, trivial⟩
    rintro _ ⟨⟩
    exact ht.active.symm.trans hactive
  · exact l.proper_of_unused hunused

/-- **What is handed to a connection** over a history is what was written while it was in
use, in order. -/
theorem handed_play (net : Network World Link) (j : Nat) (moves : List Move) (hl : l.Valid)
    (ht : l.Tells m.front closes) :
    Ledger.handed j l (m.play net moves).2 = writesOver net j l m moves := by
  induction moves generalizing m l closes with
  | nil => rfl
  | cons move rest ih =>
    have hrest := ih (hl.recordAll _) (move_tells net move hl ht)
    rw [play, Ledger.handed_append, hrest, writesOver]
    refine congrArg (· ++ _) ?_
    cases move with
    | step =>
      simp only [true_and]
      exact (step_conduct net m).handed hl ht j
    | cleanup reason =>
      rw [if_neg (by simp)]
      exact l.handed_of_unused (finish_cleanup net m reason).parties j

/-- **Only the connection in use is used**, over a whole history. -/
theorem proper_play (net : Network World Link) (moves : List Move) (hl : l.Valid)
    (ht : l.Tells m.front closes) : l.Proper (m.play net moves).2 := by
  induction moves generalizing m l closes with
  | nil => trivial
  | cons move rest ih =>
    have hrest := ih (hl.recordAll _) (move_tells net move hl ht)
    refine (l.proper_append _ _).mpr ⟨?_, hrest⟩
    cases move with
    | step => exact (step_conduct net m).proper ht
    | cleanup reason => exact l.proper_of_unused (finish_cleanup net m reason).parties

/-- **I/O is routed by the connection in use**, over every sequence of steps and runs.
Each step and each cleanup follows the rules of `Conduct` and `Cleanup`, which name the
one stream it touches.  Over a whole history, the bytes handed to a connection are the
cells at the head at the writes executed while it was in use, in order; and every
connection that is used is at that moment the one in use, and so neither superseded
nor closed. -/
theorem io_routed (net : Network World Link) (image : Image) (console : Console) (world : World)
    (settings : Settings) :
    let start : Machine World Link := load image console world settings
    (∀ calls, start.callAll net calls = start.play net (start.allMoves net calls)) ∧
    ∀ moves,
      let m := (start.play net moves).1
      let past := (start.play net moves).2
      m.Conduct net (effectsOf (m.step net).events) (m.step net).outcome
        (m.step net).machine.front ∧
      (∀ reason, m.Cleanup net reason (effectsOf (m.finish net reason).events.toList)
        (m.finish net reason).ending (m.finish net reason).machine.front) ∧
      (∀ j, Ledger.handed j .empty past = writesOver net j .empty start moves) ∧
      ∀ before e after connection, past = before ++ e :: after → e.party? = some connection →
        let l := Ledger.empty.recordAll before
        ∃ j, l.active = some j ∧ l.made[j]? = some connection ∧
          j ∉ l.superseded ∧ j ∉ l.closed := by
  intro start
  have hl : (Ledger.empty : Ledger Link).Valid := Ledger.valid_empty
  have ht : (Ledger.empty : Ledger Link).Tells start.front [] :=
    tells_load image console world settings
  refine ⟨start.callAll_eq_play net, fun moves => ?_⟩
  intro m past
  refine ⟨step_conduct net m, finish_cleanup net m, fun j => handed_play net j moves hl ht, ?_⟩
  intro before e after connection hpast hparty
  have hproper : Ledger.empty.Proper past := proper_play net moves hl ht
  rw [hpast] at hproper
  exact hproper.of_append hl hparty

/-- A machine about to connect to a peer, to add seven to the current cell, and to write
that to the peer. -/
def greeter : Machine PeerWorld Nat :=
  load (.ofBytes [Opcode.connect.code, Opcode.increment.code, 6, Opcode.write.code]) (.new [] {})
    (.ofPeers .isolated [⟨.unix, .ofCells 0 0 0 0 0 0, [], false, false⟩]) { transports := [.unix] }

/-- After three steps the peer has been handed the cell, over the connection in use. -/
theorem io_routed_greeter :
    ∃ dialled sent, (greeter.play PeerWorld.network [.step, .step, .step]).2 = [dialled, sent] ∧
      sent.party? = some ⟨.unix, "0.0.0.0:00", 0⟩ ∧
      (∃ j, (Ledger.empty.recordAll [dialled]).active = some j ∧
        j ∉ (Ledger.empty.recordAll [dialled]).closed) ∧
      Ledger.handed 0 .empty [dialled, sent] = [7] := by
  have hparties : (greeter.play PeerWorld.network [.step, .step, .step]).2.map Effect.party? =
      [none, some ⟨.unix, "0.0.0.0:00", 0⟩] := by decide +kernel
  have hwrites : writesOver PeerWorld.network 0 .empty greeter [.step, .step, .step] = [7] := by
    decide +kernel
  obtain ⟨dialled, rest, hpast, -, hrest⟩ := List.map_eq_cons_iff.mp hparties
  obtain ⟨sent, last, rfl, hparty, hlast⟩ := List.map_eq_cons_iff.mp hrest
  obtain rfl := List.map_eq_nil_iff.mp hlast
  obtain ⟨-, -, hhanded, hused⟩ := (io_routed PeerWorld.network _ _ _ _).2 [.step, .step, .step]
  obtain ⟨j, hactive, -, -, hclosed⟩ := hused [dialled] sent [] _ hpast hparty
  exact ⟨dialled, sent, hpast, hparty, ⟨j, hactive, hclosed⟩,
    hpast ▸ (hhanded 0).trans hwrites⟩

end Machine
end RingTape
