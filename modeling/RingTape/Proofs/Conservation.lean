import RingTape.Proofs.History

/-!
# Connections are conserved

A connection that was made is in one of three places: it is the one in use, it was
superseded by a later one, or a cleanup has closed it.  Who watches the effects of a
machine can keep a ledger of this.  Connections may look alike (a network may give
out equal links), so the ledger knows them by their numbers in the order in which
they were made.

The ledger is valid whatever effects are recorded (`Valid.record`): each number is in
one place, once.  That the ledger **tells** the truth (`Tells`) is a fact about the
machine: at every moment the machine holds in its slots the very connections that
the ledger has there, and has closed those that the ledger has as closed.  Steps and
cleanups keep this up (`Conduct.tells`, `Cleanup.tells`), and so do histories
(`play_tells`).
-/

namespace RingTape

variable {World Link : Type}

namespace Effect

/-- The connection that an effect has made. -/
def made? : Effect Link → Option (Connection Link)
  | .dialled outcome => outcome.reached
  | _ => none

/-- The connection that an effect has closed. -/
def closed? : Effect Link → Option (Connection Link)
  | .closed connection _ => some connection
  | _ => none

end Effect

/-- Where the connections are that were made, each known by its number. -/
structure Ledger (Link : Type) where
  /-- The connections that were made, in order. -/
  made : List (Connection Link)
  /-- The number of the connection in use, if there is one. -/
  active : Option Nat
  /-- The numbers of the superseded connections, in the order in which they became so. -/
  superseded : List Nat
  /-- The numbers of the closed connections, in the order in which they were closed. -/
  closed : List Nat

namespace Ledger

/-- The ledger before anything happened. -/
def empty : Ledger Link :=
  ⟨[], none, [], []⟩

/-- A connection is made.  It is the one in use from now on and supersedes the one in
use so far. -/
def make (l : Ledger Link) (connection : Connection Link) : Ledger Link :=
  ⟨l.made ++ [connection], some l.made.length, l.superseded ++ l.active.toList, l.closed⟩

/-- The connection in use is closed. -/
def close (l : Ledger Link) : Ledger Link :=
  ⟨l.made, none, l.superseded, l.closed ++ l.active.toList⟩

/-- The ledger after an effect. -/
def record (l : Ledger Link) : Effect Link → Ledger Link
  | .dialled outcome =>
    match outcome.reached with
    | some connection => l.make connection
    | none => l
  | .closed _ _ => l.close
  | _ => l

/-- The ledger after some effects. -/
def recordAll (l : Ledger Link) (effects : List (Effect Link)) : Ledger Link :=
  effects.foldl record l

/-- The connection in use. -/
def inUse? (l : Ledger Link) : Option (Connection Link) :=
  l.active.bind fun j => l.made[j]?

variable (l : Ledger Link)

@[simp] theorem recordAll_nil : l.recordAll [] = l := rfl

@[simp] theorem recordAll_cons (e : Effect Link) (rest : List (Effect Link)) :
    l.recordAll (e :: rest) = (l.record e).recordAll rest := rfl

@[simp] theorem recordAll_append (first second : List (Effect Link)) :
    l.recordAll (first ++ second) = (l.recordAll first).recordAll second :=
  List.foldl_append

/-- That a connection was superseded is known from the dial that did so. -/
@[simp] theorem recordAll_superseded (connections : List (Connection Link)) :
    l.recordAll (connections.map .superseded) = l := by
  induction connections with
  | nil => rfl
  | cons connection rest ih => exact ih

theorem record_reached {outcome : Dialled Link} {connection : Connection Link}
    (h : outcome.reached = some connection) :
    l.record (.dialled outcome) = l.make connection := by
  simp only [record, h]

theorem record_unreached {outcome : Dialled Link} (h : outcome.reached = none) :
    l.record (.dialled outcome) = l := by
  simp only [record, h]

theorem made_record (e : Effect Link) : (l.record e).made = l.made ++ e.made?.toList := by
  cases e with
  | dialled outcome => cases h : outcome.reached <;> simp [record, Effect.made?, make, h]
  | _ => simp [record, Effect.made?, close]

/-- The ledger has all connections that were made, in order. -/
theorem made_recordAll (effects : List (Effect Link)) :
    (l.recordAll effects).made = l.made ++ effects.filterMap Effect.made? := by
  induction effects generalizing l with
  | nil => simp
  | cons e rest ih =>
    rw [recordAll_cons, ih, made_record]
    cases h : e.made? <;> simp [h]

/-! ## Every number is in one place -/

/-- The rules of a ledger. -/
structure Valid : Prop where
  /-- Every connection is in one place, once. -/
  once : (l.superseded ++ l.active.toList ++ l.closed).Perm (List.range l.made.length)
  /-- The connection in use is the latest. -/
  latest : ∀ j, l.active = some j → j + 1 = l.made.length
  /-- Connections are superseded in the order in which they were made. -/
  superseded_ordered : l.superseded.Pairwise (· < ·)
  /-- Connections are closed in the order in which they were made. -/
  closed_ordered : l.closed.Pairwise (· < ·)

theorem valid_empty : (empty : Ledger Link).Valid where
  once := .refl _
  latest := nofun
  superseded_ordered := .nil
  closed_ordered := .nil

namespace Valid

variable {l} (hl : l.Valid)
include hl

theorem nodup : (l.superseded ++ l.active.toList ++ l.closed).Nodup :=
  hl.once.nodup_iff.mpr List.nodup_range

theorem lt_of_mem {j : Nat} (h : j ∈ l.superseded ++ l.active.toList ++ l.closed) :
    j < l.made.length :=
  List.mem_range.mp (hl.once.mem_iff.mp h)

/-- What is no longer in use was made before what is. -/
theorem lt_active {i j : Nat} (hi : i ∈ l.superseded ∨ i ∈ l.closed) (hj : l.active = some j) :
    i < j := by
  have hlatest := hl.latest j hj
  have hnodup := hl.nodup
  have hlt : i < l.made.length := hl.lt_of_mem (by
    rcases hi with hi | hi <;> simp [hi])
  have hne : i ≠ j := by
    rintro rfl
    rw [hj] at hnodup
    rcases hi with hi | hi
    · exact (List.nodup_append.mp (List.nodup_append.mp hnodup).1).2.2 i hi i (by simp) rfl
    · exact (List.nodup_append.mp hnodup).2.2 i (by simp) i hi rfl
  omega

/-- The connection in use comes last when it joins those before it. -/
theorem pairwise_append_active {numbers : List Nat} (hordered : numbers.Pairwise (· < ·))
    (hmem : ∀ i ∈ numbers, i ∈ l.superseded ∨ i ∈ l.closed) :
    (numbers ++ l.active.toList).Pairwise (· < ·) := by
  refine List.pairwise_append.mpr ⟨hordered, ?_, ?_⟩
  · cases l.active <;> simp
  · intro i hi j hj
    exact hl.lt_active (hmem i hi) (Option.mem_toList.mp hj)

theorem make (connection : Connection Link) : (l.make connection).Valid where
  once := by
    -- the new number is the largest, so it goes behind the closed ones
    have hone : (l.superseded ++ l.active.toList ++ ([l.made.length] ++ l.closed)).Perm
        (l.superseded ++ l.active.toList ++ (l.closed ++ [l.made.length])) :=
      List.perm_append_comm.append_left _
    simp only [Ledger.make, Option.toList_some, List.length_append, List.length_singleton,
      List.range_succ]
    rw [List.append_assoc]
    refine hone.trans ?_
    rw [← List.append_assoc]
    exact hl.once.append_right _
  latest := by
    rintro j hj
    cases hj
    simp [Ledger.make]
  superseded_ordered := hl.pairwise_append_active hl.superseded_ordered fun i hi => Or.inl hi
  closed_ordered := hl.closed_ordered

theorem close : l.close.Valid where
  once := by
    have hswap : (l.superseded ++ (l.closed ++ l.active.toList)).Perm
        (l.superseded ++ (l.active.toList ++ l.closed)) :=
      List.perm_append_comm.append_left _
    simp only [Ledger.close, Option.toList_none, List.append_nil]
    exact hswap.trans (by rw [← List.append_assoc]; exact hl.once)
  latest := nofun
  superseded_ordered := hl.superseded_ordered
  closed_ordered := hl.pairwise_append_active hl.closed_ordered fun i hi => Or.inr hi

theorem record (e : Effect Link) : (l.record e).Valid := by
  cases e with
  | dialled outcome =>
    cases hreached : outcome.reached with
    | some connection =>
      rw [record_reached l hreached]
      exact hl.make connection
    | none =>
      rw [record_unreached l hreached]
      exact hl
  | closed connection fault => exact hl.close
  | _ => exact hl

/-- Whatever happens, the ledger stays valid. -/
theorem recordAll (effects : List (Effect Link)) : (l.recordAll effects).Valid := by
  induction effects generalizing l with
  | nil => exact hl
  | cons e rest ih => exact ih (hl.record e)

end Valid

/-! ## The ledger tells the truth -/

/-- The ledger tells what a machine with a given front holds, and which connections it
has closed. -/
structure Tells (front : Front World Link) (closes : List (Connection Link)) : Prop where
  /-- The connection in use. -/
  active : front.active = l.inUse?
  /-- The superseded connections. -/
  superseded : front.superseded.map some = l.superseded.map fun j => l.made[j]?
  /-- The closed connections. -/
  closed : closes.map some = l.closed.map fun j => l.made[j]?

variable {l}

/-- Making another connection does not change those that are there. -/
theorem getElem?_make (hl : l.Valid) {numbers : List Nat}
    (hmem : ∀ j ∈ numbers, j ∈ l.superseded ++ l.active.toList ++ l.closed)
    (connection : Connection Link) :
    (numbers.map fun j => (l.made ++ [connection])[j]?) = numbers.map fun j => l.made[j]? := by
  refine List.map_congr_left fun j hj => ?_
  exact List.getElem?_append_left (hl.lt_of_mem (hmem j hj))

/-- The connection in use, with its number. -/
theorem map_some_inUse? (hl : l.Valid) :
    l.inUse?.toList.map some = l.active.toList.map fun j => l.made[j]? := by
  unfold inUse?
  cases hactive : l.active with
  | none => rfl
  | some j =>
    have hj : j < l.made.length := hl.lt_of_mem (by simp [hactive])
    simp [List.getElem?_eq_getElem hj]

/-- What was made is held or was closed. -/
theorem Tells.length_made {front : Front World Link} {closes : List (Connection Link)}
    (hl : l.Valid) (h : l.Tells front closes) :
    l.made.length =
      front.superseded.length + (if front.active.isSome then 1 else 0) + closes.length := by
  have honce := hl.once.length_eq
  have hsuperseded := congrArg List.length h.superseded
  have hclosed := congrArg List.length h.closed
  have hactive : l.active.toList.length = if front.active.isSome then 1 else 0 := by
    have hinUse := congrArg List.length (map_some_inUse? hl)
    rw [h.active]
    cases hcase : l.inUse? <;> simp_all
  simp only [List.length_append, List.length_range, List.length_map] at honce hsuperseded hclosed
  omega

theorem Tells.make {front : Front World Link} {closes : List (Connection Link)}
    (hl : l.Valid) (h : l.Tells front closes) (console : Console) (world : World)
    (connection : Connection Link) :
    (l.make connection).Tells
      ⟨console, world, some connection, front.superseded ++ front.active.toList⟩ closes where
  active := by simp [inUse?, Ledger.make]
  superseded := by
    simp only [Ledger.make]
    rw [getElem?_make hl fun j hj => List.mem_append_left _ hj, List.map_append, List.map_append,
      h.superseded, h.active, map_some_inUse? hl]
  closed := by
    simp only [Ledger.make]
    rw [getElem?_make hl fun j hj => List.mem_append_right _ hj, h.closed]

theorem Tells.close {front : Front World Link} {closes : List (Connection Link)}
    (hl : l.Valid) (h : l.Tells front closes) (console : Console) (world : World) :
    l.close.Tells ⟨console, world, none, front.superseded⟩
      (closes ++ front.active.toList) where
  active := rfl
  superseded := h.superseded
  closed := by
    simp only [Ledger.close]
    rw [List.map_append, List.map_append, h.closed, h.active, map_some_inUse? hl]

end Ledger

/-! ## Steps, cleanups, histories -/

namespace Machine

variable {net : Network World Link} {m : Machine World Link} {l : Ledger Link}
  {closes : List (Connection Link)} {effects : List (Effect Link)} {front : Front World Link}

/-- The connection that the step at the program counter makes, if it makes one. -/
def reaches (net : Network World Link) (m : Machine World Link) : Option (Connection Link) :=
  if m.fetched = some .connect then (m.dialling net).1.reached else none

/-- A step that makes no connection leaves all of them where they are. -/
structure Keeps (net : Network World Link) (m : Machine World Link)
    (effects : List (Effect Link)) (front : Front World Link) : Prop where
  unreached : m.reaches net = none
  active : front.active = m.active
  superseded : front.superseded = m.superseded.toList
  recorded : ∀ l : Ledger Link, l.recordAll effects = l
  made : effects.filterMap Effect.made? = []
  closed : effects.filterMap Effect.closed? = []

/-- A step that makes a connection puts it in the place of the one in use, which goes to
the superseded ones. -/
structure Makes (net : Network World Link) (m : Machine World Link)
    (connection : Connection Link) (effects : List (Effect Link))
    (front : Front World Link) : Prop where
  reached : m.reaches net = some connection
  active : front.active = some connection
  superseded : front.superseded = m.superseded.toList ++ m.active.toList
  recorded : ∀ l : Ledger Link, l.recordAll effects = l.make connection
  made : effects.filterMap Effect.made? = [connection]
  closed : effects.filterMap Effect.closed? = []

theorem reaches_of_ne (h : m.fetched ≠ some .connect) : m.reaches net = none :=
  if_neg h

theorem reaches_of_dialling {outcome : Dialled Link} {world : World}
    (h : m.fetched = some .connect) (hdial : m.dialling net = (outcome, world)) :
    m.reaches net = outcome.reached := by
  rw [reaches, if_pos h, hdial]

/-- **A step keeps or makes.** -/
theorem Conduct.keeps_or_makes {outcome : Outcome} (h : m.Conduct net effects outcome front) :
    m.Keeps net effects front ∨ ∃ connection, m.Makes net connection effects front := by
  cases h with
  | stray hfetched _ | sent hfetched _ _ | wrote hfetched _ _ | received hfetched _ _
  | unflushed hfetched _ _ | read hfetched _ _ _ | finished hfetched =>
    exact Or.inl ⟨reaches_of_ne (by simp [hfetched]), rfl, rfl, fun l => rfl, rfl, rfl⟩
  | quiet hfetched hop =>
    refine Or.inl ⟨reaches_of_ne fun h => hop ?_, rfl, rfl, fun l => rfl, rfl, rfl⟩
    rw [Option.some.inj (hfetched.symm.trans h)]
    decide
  | unreached hfetched hdial hreached hwrite =>
    refine Or.inl ⟨(reaches_of_dialling hfetched hdial).trans hreached, rfl, rfl, fun l => ?_, ?_,
      rfl⟩
    · exact l.record_unreached hreached
    · simp [Effect.made?, hreached]
  | @reached outcome world connection hfetched hdial hreached =>
    have hsuperseded (connections : List (Connection Link)) :
        (connections.map Effect.superseded).filterMap Effect.made? = [] ∧
          (connections.map Effect.superseded).filterMap Effect.closed? = [] := by
      simp [Effect.made?, Effect.closed?]
    refine Or.inr ⟨connection, (reaches_of_dialling hfetched hdial).trans hreached, rfl, rfl,
      fun l => ?_, ?_, ?_⟩
    · rw [Ledger.recordAll_cons, l.record_reached hreached, Ledger.recordAll_superseded]
    · have hmade : (Effect.dialled outcome).made? = some connection := hreached
      rw [List.filterMap_cons_some hmade, (hsuperseded _).1]
    · exact (hsuperseded _).2

/-- **What a step does with connections.**  It closes none; one that it makes takes the
place of the one in use, which goes to the superseded ones; and if it makes none, none
moves. -/
theorem Conduct.connections {outcome : Outcome} (h : m.Conduct net effects outcome front) :
    effects.filterMap Effect.made? = (m.reaches net).toList ∧
      effects.filterMap Effect.closed? = [] ∧
      front.active = (m.reaches net).or m.active ∧
      front.superseded =
        m.superseded.toList ++ if (m.reaches net).isSome then m.active.toList else [] := by
  rcases h.keeps_or_makes with hkeeps | ⟨connection, hmakes⟩
  · rw [hkeeps.unreached]
    exact ⟨hkeeps.made, hkeeps.closed, hkeeps.active,
      hkeeps.superseded.trans (List.append_nil _).symm⟩
  · rw [hmakes.reached]
    exact ⟨hmakes.made, hmakes.closed, hmakes.active, hmakes.superseded⟩

theorem Conduct.tells {outcome : Outcome} (h : m.Conduct net effects outcome front)
    (hl : l.Valid) (ht : l.Tells m.front closes) :
    (l.recordAll effects).Tells front (closes ++ effects.filterMap Effect.closed?) := by
  rcases h.keeps_or_makes with hkeeps | ⟨connection, hmakes⟩
  · rw [hkeeps.recorded, hkeeps.closed, List.append_nil]
    exact ⟨hkeeps.active.trans ht.active, hkeeps.superseded ▸ ht.superseded, ht.closed⟩
  · have hmade := ht.make hl front.console front.world connection
    rw [hmakes.recorded, hmakes.closed, List.append_nil]
    exact ⟨hmakes.active.trans hmade.active, hmakes.superseded ▸ hmade.superseded, hmade.closed⟩

/-- A cleanup hangs up, and then deals with the console only. -/
theorem Cleanup.hangs_up {reason : Halt} {ending : Ending}
    (h : m.Cleanup net reason effects ending front) :
    ∃ console rest, front = { m.hungUp net with console := console } ∧
      effects = m.farewell net ++ rest ∧ (∀ l : Ledger Link, l.recordAll rest = l) ∧
      rest.filterMap Effect.made? = [] ∧ rest.filterMap Effect.closed? = [] := by
  cases h with
  | unmarked _ _ | marked _ _ _ | flushed _ _ =>
    exact ⟨_, _, rfl, rfl, fun l => rfl, rfl, rfl⟩

theorem made_farewell : (m.farewell net).filterMap Effect.made? = [] := by
  unfold farewell
  cases m.active <;> rfl

theorem closed_farewell : (m.farewell net).filterMap Effect.closed? = m.active.toList := by
  unfold farewell
  cases m.active <;> rfl

/-- **What a cleanup does with connections.**  It closes the one in use, if there is one,
asks nothing else of the network, and leaves the superseded ones alone. -/
theorem Cleanup.connections {reason : Halt} {ending : Ending}
    (h : m.Cleanup net reason effects ending front) :
    effects.filterMap Effect.made? = [] ∧
      effects.filterMap Effect.closed? = m.active.toList ∧
      front.active = none ∧ front.superseded = m.superseded.toList ∧
      front.world =
        m.active.elim m.world fun connection => (net.close connection.link m.world).2 := by
  obtain ⟨console, rest, rfl, rfl, -, hmade, hclosed⟩ := h.hangs_up
  rw [List.filterMap_append, List.filterMap_append, hmade, hclosed, made_farewell,
    closed_farewell, List.append_nil, List.append_nil]
  exact ⟨rfl, rfl, rfl, rfl, rfl⟩

theorem Cleanup.tells {reason : Halt} {ending : Ending}
    (h : m.Cleanup net reason effects ending front)
    (hl : l.Valid) (ht : l.Tells m.front closes) :
    (l.recordAll effects).Tells front (closes ++ effects.filterMap Effect.closed?) := by
  obtain ⟨-, hclosed, hactive, hsuperseded, -⟩ := h.connections
  obtain ⟨console, rest, -, rfl, hrecorded, -, -⟩ := h.hangs_up
  rw [hclosed, Ledger.recordAll_append, hrecorded]
  rcases m.active.eq_none_or_eq_some with hnone | ⟨connection, hsome⟩
  · rw [farewell, hnone, Option.toList_none, List.map_nil, Ledger.recordAll_nil, List.append_nil]
    exact ⟨hactive.trans (hnone.symm.trans ht.active), hsuperseded ▸ ht.superseded, ht.closed⟩
  -- the ledger closes what it has as active, which by `ht` is the connection that was closed
  · have hclose := ht.close hl front.console front.world
    have hfarewell : l.recordAll (m.farewell net) = l.close := by
      rw [farewell, hsome]
      rfl
    rw [hfarewell]
    exact ⟨hactive.trans hclose.active, hsuperseded ▸ hclose.superseded, hclose.closed⟩

theorem move_tells (net : Network World Link) (move : Move) (hl : l.Valid)
    (ht : l.Tells m.front closes) :
    (l.recordAll (m.move net move).2).Tells (m.move net move).1.front
      (closes ++ (m.move net move).2.filterMap Effect.closed?) := by
  cases move with
  | step => exact (step_conduct net m).tells hl ht
  | cleanup reason => exact (finish_cleanup net m reason).tells hl ht

/-- **The ledger of a history tells the truth** at every moment. -/
theorem play_tells (net : Network World Link) (moves : List Move) (hl : l.Valid)
    (ht : l.Tells m.front closes) :
    (l.recordAll (m.play net moves).2).Tells (m.play net moves).1.front
      (closes ++ (m.play net moves).2.filterMap Effect.closed?) := by
  induction moves generalizing m l closes with
  | nil => simpa [play] using ht
  | cons move rest ih =>
    have hmove := move_tells net move hl ht
    have hrest := ih (hl.recordAll _) hmove
    simpa only [play, Ledger.recordAll_append, List.filterMap_append, List.append_assoc]
      using hrest

/-- A machine that has just been loaded has no connections. -/
theorem tells_load (image : Image) (console : Console) (world : World) (settings : Settings) :
    (Ledger.empty : Ledger Link).Tells (load image console world settings).front [] :=
  ⟨rfl, rfl, rfl⟩

/-- **Connections are conserved**, at every moment of every sequence of steps and runs.
The connections that dials have made are, by their numbers, each in one place and
once: in use, superseded in the order of making, or closed; and the machine holds and
has closed those very connections.  So nothing is lost or closed twice.  Only a dial
that makes a connection moves one to the superseded ones, namely the one in use; any
other step, a dial in vain included, moves none.  A cleanup closes the one in use and
no other. -/
theorem connections_conserved (net : Network World Link) (image : Image) (console : Console)
    (world : World) (settings : Settings) :
    let start : Machine World Link := load image console world settings
    (∀ calls, start.callAll net calls = start.play net (start.allMoves net calls)) ∧
    ∀ moves,
      let m := (start.play net moves).1
      let past := (start.play net moves).2
      let l := Ledger.empty.recordAll past
      let closes := past.filterMap Effect.closed?
      let stepped := m.move net .step
      (l.made = past.filterMap Effect.made? ∧ l.Valid ∧ l.Tells m.front closes ∧
        l.made.length =
          m.superseded.size + (if m.active.isSome then 1 else 0) + closes.length) ∧
      (stepped.2.filterMap Effect.made? = (m.reaches net).toList ∧
        stepped.2.filterMap Effect.closed? = [] ∧
        stepped.1.active = (m.reaches net).or m.active ∧
        stepped.1.superseded.toList =
          m.superseded.toList ++ if (m.reaches net).isSome then m.active.toList else []) ∧
      ∀ reason,
        let cleaned := m.move net (.cleanup reason)
        cleaned.2.filterMap Effect.made? = [] ∧
        cleaned.2.filterMap Effect.closed? = m.active.toList ∧
        cleaned.1.active = none ∧
        cleaned.1.superseded.toList = m.superseded.toList ∧
        cleaned.1.world =
          m.active.elim m.world fun connection => (net.close connection.link m.world).2 := by
  intro start
  refine ⟨start.callAll_eq_play net, fun moves => ?_⟩
  intro m past l closes stepped
  have hvalid : l.Valid := Ledger.valid_empty.recordAll past
  have htells : l.Tells m.front closes :=
    play_tells net moves Ledger.valid_empty (tells_load image console world settings)
  refine ⟨⟨?_, hvalid, htells, ?_⟩, (step_conduct net m).connections,
    fun reason => (finish_cleanup net m reason).connections⟩
  · exact Ledger.empty.made_recordAll past
  · exact htells.length_made hvalid

end Machine
end RingTape
