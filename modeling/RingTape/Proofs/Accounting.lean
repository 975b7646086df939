import Mathlib.Algebra.GroupWithZero.Nat
import RingTape.Network.Peers
import RingTape.Proofs.Departures

/-!
# The profile accounts for every step

A machine counts its steps twice: all of them in a counter that goes round when it is
full, and by instruction in a profile whose slots stay at their largest value.
`Accounts` says what both show after a past, which is the list of what the fetched cells
decoded to when their steps were executed.

A step enters itself once, before anything can stop it or fail, and nothing else writes
in the books.  So the books account for the past after every step and cleanup
(`accounts_play`), however long the past is.  A caller can also set the stop flag, use
the console or wait for the network to change, and none of it is a step
(`accounts_treat`).  As long as the counter has room, neither overflow shows, and the two
counts agree (`Accounts.total_eq`).
-/

namespace RingTape

/-- Something that a caller does with a machine, or that happens around it. -/
inductive Deed (World : Type) where
  /-- The machine steps, or it runs under a flag that may change meanwhile. -/
  | call (call : Call)
  /-- The machine runs under its own flag. -/
  | run
  /-- The stop flag is set. -/
  | setStop (raised : Bool)
  /-- The console is used or replaced, or the network changes by itself. -/
  | outside (console : Console) (world : World)

variable {World Link : Type}

/-! ## Sums of slots -/

namespace Profile

/-- The decodings of cells, in the order of their slots. -/
def decodings : List (Option Opcode) :=
  Opcode.all.map some ++ [none]

theorem toList_counts (p : Profile) : p.counts.toList = decodings.map p.get := by
  apply List.ext_getElem
  · simp [decodings, Opcode.all]
  · intro i hi _
    have hslot : i < 12 := by simpa using hi
    match i, hslot with
    | 0, _ | 1, _ | 2, _ | 3, _ | 4, _ | 5, _ | 6, _ | 7, _ | 8, _ | 9, _ | 10, _ | 11, _ => rfl

theorem count_decodings (op : Option Opcode) : decodings.count op = 1 := by
  rcases op with _ | op
  · rfl
  · cases op <;> rfl

theorem sum_count_cons (slots past : List (Option Opcode)) (op : Option Opcode) :
    (slots.map (op :: past).count).sum = (slots.map past.count).sum + slots.count op := by
  induction slots with
  | nil => rfl
  | cons slot rest ih =>
    rw [List.map_cons, List.sum_cons, ih, List.map_cons, List.sum_cons, List.count_cons,
      List.count_cons, Bool.beq_comm]
    omega

/-- Every decoded cell is counted in one slot. -/
theorem sum_count_decodings (past : List (Option Opcode)) :
    (decodings.map past.count).sum = past.length := by
  induction past with
  | nil => rfl
  | cons op rest ih => rw [sum_count_cons, ih, count_decodings, List.length_cons]

theorem toNat_foldl_saturatingAdd (counts : List UInt64) (start : UInt64) :
    (counts.foldl saturatingAdd start).toNat =
      min (start.toNat + (counts.map UInt64.toNat).sum) countMax.toNat := by
  induction counts generalizing start with
  | nil =>
    have hmax : countMax.toNat = 18446744073709551615 := rfl
    have hstart := start.toNat_lt
    simp only [List.foldl_nil, List.map_nil, List.sum_nil]
    omega
  | cons count rest ih =>
    rw [List.foldl_cons, ih, toNat_saturatingAdd, List.map_cons, List.sum_cons]
    omega

/-- The total is the sum of all slots, held at the largest count. -/
theorem toNat_total (p : Profile) : p.total.toNat =
    min (decodings.map fun op => (p.get op).toNat).sum countMax.toNat := by
  have hzero : (0 : UInt64).toNat = 0 := rfl
  rw [total, toNat_foldl_saturatingAdd, toList_counts, List.map_map, hzero, Nat.zero_add]
  rfl

theorem toNat_get_record (p : Profile) (op slot : Option Opcode) :
    ((p.record op).get slot).toNat =
      if op = slot then min ((p.get slot).toNat + 1) countMax.toNat else (p.get slot).toNat := by
  rw [record, get_recordMany]
  by_cases hslot : op = slot
  · subst hslot
    rw [if_pos rfl, if_pos rfl, toNat_saturatingAdd]
    rfl
  · rw [if_neg hslot, if_neg hslot]

end Profile

namespace Machine

/-! ## Deeds -/

section Deeds

variable (net : Network World Link) (m : Machine World Link)

/-- The machine after a deed. -/
def treat : Deed World → Machine World Link
  | .call call => (m.call net call).1
  | .run => (m.run net).machine
  | .setStop raised => { m with stop := raised }
  | .outside console world => { m with console := console, world := world }

/-- The moves that the machine makes for a deed. -/
def deedMoves : Deed World → List Move
  | .call call => m.moves net call
  | .run => m.moves net (.run fun _ => m.stop)
  | .setStop _ | .outside _ _ => []

/-- The machine after deeds that follow each other. -/
def treatAll (m : Machine World Link) : List (Deed World) → Machine World Link
  | [] => m
  | deed :: rest => (m.treat net deed).treatAll rest

/-- What the executed cells decoded to when they were fetched, in order. -/
def fetches (m : Machine World Link) : List (Deed World) → List (Option Opcode)
  | [] => []
  | deed :: rest =>
    (m.departures net (m.deedMoves net deed)).map fetched ++ (m.treat net deed).fetches rest

end Deeds

/-! ## The invariant -/

/-- **The books account for a past.** -/
structure Accounts (m : Machine World Link) (past : List (Option Opcode)) : Prop where
  steps : m.steps = UInt64.ofNat past.length
  slots : ∀ op, (m.profile.get op).toNat = min (past.count op) countMax.toNat

section Invariant

variable {m : Machine World Link} {past : List (Option Opcode)}

theorem accounts_load (image : Image) (console : Console) (world : World) (settings : Settings) :
    (load image console world settings : Machine World Link).Accounts [] := by
  refine ⟨rfl, fun op => ?_⟩
  rw [load, Profile.get_empty]
  rfl

/-- Nothing but the two counts matters. -/
theorem Accounts.of_eq {t : Machine World Link} (h : m.Accounts past) (hsteps : t.steps = m.steps)
    (hprofile : t.profile = m.profile) : t.Accounts past := by
  refine ⟨hsteps.trans h.steps, fun op => ?_⟩
  rw [hprofile, h.slots]

theorem accounts_counted (op : Option Opcode) (h : m.Accounts past) :
    (m.counted op).Accounts (past ++ [op]) := by
  refine ⟨?_, fun slot => ?_⟩
  · rw [counted, h.steps, List.length_append, List.length_singleton, UInt64.ofNat_add]
    rfl
  · rw [counted, Profile.toNat_get_record, h.slots, List.count_append, List.count_singleton]
    by_cases hslot : op = slot
    · rw [if_pos hslot, if_pos (beq_iff_eq.mpr hslot)]
      omega
    · rw [if_neg hslot, if_neg (mt beq_iff_eq.mp hslot), Nat.add_zero]

/-- **A step enters itself once**, whatever it comes to. -/
theorem accounts_step (net : Network World Link) (h : m.Accounts past) :
    (m.step net).machine.Accounts (past ++ [m.fetched]) := by
  have hbooks := books_step net m
  exact (accounts_counted m.fetched h).of_eq (congrArg Books.steps hbooks)
    (congrArg Books.profile hbooks)

theorem accounts_play (net : Network World Link) (moves : List Move) (h : m.Accounts past) :
    (m.play net moves).1.Accounts (past ++ (m.departures net moves).map fetched) := by
  induction moves generalizing m past with
  | nil =>
    rw [departures_nil, List.map_nil, List.append_nil]
    exact h
  | cons move rest ih =>
    cases move with
    | step =>
      have hrest := ih (accounts_step net h)
      rw [List.append_assoc, List.singleton_append] at hrest
      exact hrest
    | cleanup reason =>
      have hbooks := books_finish net m reason
      exact ih (h.of_eq (congrArg Books.steps hbooks) (congrArg Books.profile hbooks))

theorem accounts_treat (net : Network World Link) (deed : Deed World) (h : m.Accounts past) :
    (m.treat net deed).Accounts
      (past ++ (m.departures net (m.deedMoves net deed)).map fetched) := by
  have hplay := accounts_play net (m.deedMoves net deed) h
  cases deed with
  | call call =>
    rw [treat, call_eq_play]
    exact hplay
  | run =>
    have hrun : (m.run net).machine = (m.call net (.run fun _ => m.stop)).1 := rfl
    rw [treat, hrun, call_eq_play]
    exact hplay
  | setStop raised => exact hplay.of_eq rfl rfl
  | outside console world => exact hplay.of_eq rfl rfl

/-- **The books account for every past**, whatever was done with the machine. -/
theorem accounts_treatAll (net : Network World Link) (deeds : List (Deed World))
    (h : m.Accounts past) : (m.treatAll net deeds).Accounts (past ++ m.fetches net deeds) := by
  induction deeds generalizing m past with
  | nil =>
    rw [fetches, List.append_nil]
    exact h
  | cons deed rest ih =>
    rw [fetches, ← List.append_assoc]
    exact ih (accounts_treat net deed h)

end Invariant

/-! ## Room in the counter -/

section Room

variable {m : Machine World Link} {past : List (Option Opcode)}
variable (h : m.Accounts past) (hroom : past.length < UInt64.size)
include h hroom

theorem Accounts.toNat_steps : m.steps.toNat = past.length := by
  rw [h.steps]
  exact UInt64.toNat_ofNat_of_lt hroom

theorem Accounts.toNat_get (op : Option Opcode) : (m.profile.get op).toNat = past.count op := by
  have hmax : countMax.toNat + 1 = UInt64.size := rfl
  have hcount := List.count_le_length (a := op) (l := past)
  rw [h.slots]
  omega

/-- **The two counts agree.** -/
theorem Accounts.total_eq : m.profile.total = m.steps := by
  have hmax : countMax.toNat + 1 = UInt64.size := rfl
  have hslots : (fun op => (m.profile.get op).toNat) = past.count :=
    funext (h.toNat_get hroom)
  apply UInt64.toNat_inj.mp
  rw [Profile.toNat_total, hslots, Profile.sum_count_decodings, h.toNat_steps hroom]
  omega

end Room

/-- **The profile accounts for every step.**  A machine is loaded, and then it steps and
runs in any order and with any results, while its stop flag is set, its console is used
and the network changes.  As long as its steps can be counted at all, every slot of the
profile shows how many of the executed cells decoded to its instruction when they were
fetched, and the slots add up to the step counter.

The executed cells are those of the moves that make up a call.  A step enters itself and
nothing else, whether it goes on, halts or fails.  A run enters its steps only: a check
of the flag or of the limit that stops it adds none, and a step that ends it adds one. -/
theorem profile_accounts_for_steps (net : Network World Link) (image : Image) (console : Console)
    (world : World) (settings : Settings) (deeds : List (Deed World))
    (hroom : ((load image console world settings : Machine World Link).fetches net deeds).length <
      UInt64.size) :
    let start : Machine World Link := load image console world settings
    let last := start.treatAll net deeds
    let past := start.fetches net deeds
    (∀ op, (last.profile.count op).toNat = past.count (some op)) ∧
      last.profile.unknown.toNat = past.count none ∧
      last.steps.toNat = past.length ∧
      last.profile.total = last.steps ∧
      ∀ m : Machine World Link,
        (∀ call, m.call net call = m.play net (m.moves net call)) ∧
        (m.step net).machine.books = (m.counted m.fetched).books ∧
        ∀ flag : Nat → Bool,
          (m.runWatching net flag).machine.books = (m.after net (m.paces net flag)).books ∧
          ∀ k, m.Goes net flag 0 k → k < m.turnsLeft →
            (flag k = true ∨ (m.after net k).limitReached = true → m.paces net flag = k) ∧
            (flag k = false → (m.after net k).limitReached = false →
              ((m.after net k).step net).outcome ≠ .continued → m.paces net flag = k + 1) := by
  intro start last past
  have haccounts : last.Accounts past :=
    accounts_treatAll net deeds (accounts_load image console world settings)
  refine ⟨fun op => haccounts.toNat_get hroom (some op), haccounts.toNat_get hroom none,
    haccounts.toNat_steps hroom, haccounts.total_eq hroom, fun m => ?_⟩
  refine ⟨call_eq_play net m, books_step net m, fun flag => ⟨?_, fun k hgoes hk => ?_⟩⟩
  · rw [books_runWatching, machine_watched]
  · exact ⟨paces_of_stopped hgoes hk, paces_of_last_step hgoes hk⟩

/-- A machine that reads, and then turns its last cell, which would connect, into one that
ends the program.  Its console cannot be flushed. -/
def reviser : Machine PeerWorld Nat :=
  load
    (.ofBytes [Opcode.read.code, Opcode.backward.code, 1, Opcode.increment.code, 0,
      Opcode.connect.code])
    (.new [] { flushFault := fun _ => some .broken }) (.ofPeers .isolated []) { maxSteps := some 4 }

/-- The reading fails and a run is cancelled; then, with another console, a run comes to
its limit and a step to the end of the program. -/
def revision : List (Deed PeerWorld) :=
  [.call .step, .setStop true, .run, .setStop false, .outside (.new [] {}) (.ofPeers .isolated []),
    .run, .call .step]

/-- The reading that failed is counted once more when it succeeds, and the last cell as
what it had become. -/
theorem profile_accounts_for_steps_reviser :
    let last := reviser.treatAll PeerWorld.network revision
    reviser.fetches PeerWorld.network revision =
        [some .read, some .read, some .backward, some .increment, some .finish] ∧
      (last.profile.count .read).toNat = 2 ∧ (last.profile.count .finish).toNat = 1 ∧
      (last.profile.count .connect).toNat = 0 ∧ last.steps.toNat = 5 ∧
      last.profile.total = last.steps := by
  intro last
  have hpast : reviser.fetches PeerWorld.network revision =
      [some .read, some .read, some .backward, some .increment, some .finish] := by
    decide +kernel
  have hroom : (reviser.fetches PeerWorld.network revision).length < UInt64.size := by
    rw [hpast]
    decide
  obtain ⟨hcounts, -, hsteps, htotal, -⟩ :=
    profile_accounts_for_steps PeerWorld.network _ _ _ _ revision hroom
  have hcount (op : Opcode) : (last.profile.count op).toNat =
      [some .read, some .read, some .backward, some .increment, some .finish].count (some op) :=
    hpast ▸ hcounts op
  have hfive : last.steps.toNat = 5 := hsteps.trans (congrArg List.length hpast)
  exact ⟨hpast, hcount .read, hcount .finish, hcount .connect, hfive, htotal⟩

end Machine
end RingTape
