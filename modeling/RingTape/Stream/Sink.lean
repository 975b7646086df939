import RingTape.Fault

/-!
# Writing bytes

A sink takes bytes in calls. A call may be interrupted, may take fewer bytes than it was offered,
and finds no room once the capacity is used up. `writeAll` makes calls until everything is stored
or a call fails; interruptions and short calls only change how many calls that takes.

Single calls may also meet with a mishap of their own, after which the sink goes on as before. The
rules say for each call what befalls it, so that between them the rules give every sequence of
answers a stream can make: a sink may fail at any time with any fault, and recover.
-/

namespace RingTape

/-- What a sink does when it is offered bytes and has no room. -/
inductive WhenFull where
  /-- It refuses with a fault. -/
  | refuses
  /-- It takes nothing and reports so. -/
  | takesNothing
deriving DecidableEq, Repr

/-- What a single call may meet with. -/
inductive Mishap where
  /-- It fails, whatever room there is. -/
  | fails (fault : Fault)
  /-- It takes no more than a number of bytes. -/
  | takesAtMost (count : Nat)
deriving DecidableEq, Repr

/-- How a sink behaves. -/
structure SinkRules where
  /-- The most bytes that one call takes, if there is a bound. -/
  chunk : Option Nat := none
  /-- The number of bytes that the sink can hold, if there is a bound. -/
  capacity : Option Nat := none
  /-- What happens when that number is reached. -/
  whenFull : WhenFull := .refuses
  /-- The number of interruptions before the call that follows `i` uninterrupted ones. -/
  interruptions : Nat → Nat := fun _ => 0
  /-- The mishap, if any, of the call that follows `i` uninterrupted ones. -/
  mishap : Nat → Option Mishap := fun _ => none
  /-- The fault, if any, of the flush that follows `i` earlier ones. -/
  flushFault : Nat → Option Fault := fun _ => none

/-- A sink and what it has seen. -/
structure Sink where
  /-- How it behaves. -/
  rules : SinkRules
  /-- The bytes stored so far. -/
  stored : Array UInt8
  /-- The number of uninterrupted calls so far. -/
  calls : Nat
  /-- The number of interruptions before the next uninterrupted call. -/
  pauses : Nat
  /-- The number of flushes so far, failed ones included. -/
  flushes : Nat

/-- What a sink answers to one call. -/
inductive Acceptance where
  /-- The call was interrupted. -/
  | interrupted
  /-- The call took a number of bytes. -/
  | took (count : Nat)
  /-- The call failed. -/
  | failed (fault : Fault)
deriving DecidableEq, Repr

namespace Sink

/-- A sink that has seen nothing. -/
def ofRules (rules : SinkRules) : Sink :=
  { rules := rules, stored := #[], calls := 0, pauses := rules.interruptions 0, flushes := 0 }

/-- Whether the capacity is used up. -/
def isFull (s : Sink) : Bool :=
  match s.rules.capacity with
  | none => false
  | some capacity => capacity ≤ s.stored.size

/-- The fault that the next uninterrupted call meets with, if it does. -/
def misfortune (s : Sink) : Option Fault :=
  match s.rules.mishap s.calls with
  | some (.fails fault) => some fault
  | _ => none

/-- How many of `offered` bytes the next uninterrupted call takes if there is room. -/
def allowance (s : Sink) (offered : Nat) : Nat :=
  let bounded := match s.rules.chunk with
    | none => offered
    | some chunk => min chunk offered
  let bounded := match s.rules.mishap s.calls with
    | some (.takesAtMost count) => min count bounded
    | _ => bounded
  match s.rules.capacity with
  | none => bounded
  | some capacity => min (capacity - s.stored.size) bounded

/-- One call that offers bytes to the sink. -/
def offer (s : Sink) (bytes : List UInt8) : Acceptance × Sink :=
  if 0 < s.pauses then (.interrupted, { s with pauses := s.pauses - 1 })
  else
    let calls := s.calls + 1
    let pauses := s.rules.interruptions calls
    match s.misfortune with
    | some fault => (.failed fault, { s with calls := calls, pauses := pauses })
    | none =>
      if s.isFull then
        match s.rules.whenFull with
        | .refuses => (.failed .sinkFull, { s with calls := calls, pauses := pauses })
        | .takesNothing => (.took 0, { s with calls := calls, pauses := pauses })
      else
        let count := s.allowance bytes.length
        (.took count,
          { s with stored := s.stored ++ bytes.take count, calls := calls, pauses := pauses })

/-- An interrupted call uses up one interruption. -/
theorem pauses_lt_of_offer_interrupted {s next : Sink} {bytes : List UInt8}
    (h : s.offer bytes = (.interrupted, next)) : next.pauses < s.pauses := by
  unfold offer at h
  split at h
  · rename_i waiting
    cases h
    exact Nat.sub_lt waiting Nat.one_pos
  · dsimp only at h
    split at h
    · cases h
    · split at h
      · split at h <;> cases h
      · cases h

/-- **Writes all bytes**, going on after interruptions and short calls. A call that takes nothing
is a fault. Writing no bytes makes no call. -/
def writeAll (s : Sink) (bytes : List UInt8) : Except Fault Unit × Sink :=
  match bytes with
  | [] => (.ok (), s)
  | b :: rest =>
    match _answer : s.offer (b :: rest) with
    | (.interrupted, next) => next.writeAll (b :: rest)
    | (.failed fault, next) => (.error fault, next)
    | (.took 0, next) => (.error .shortWrite, next)
    | (.took (count + 1), next) => next.writeAll (rest.drop count)
termination_by (bytes.length, s.pauses)
decreasing_by
  · exact Prod.Lex.right _ (pauses_lt_of_offer_interrupted _answer)
  · apply Prod.Lex.left
    simp only [List.length_drop, List.length_cons]
    omega

/-- Passes on what was buffered. A flush counts whether it succeeds or not. -/
def flush (s : Sink) : Except Fault Unit × Sink :=
  let next := { s with flushes := s.flushes + 1 }
  match s.rules.flushFault s.flushes with
  | none => (.ok (), next)
  | some fault => (.error fault, next)

end Sink

end RingTape
