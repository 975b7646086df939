import RingTape.Proofs.Lockstep

/-!
# Sinks that only lack room

A call to a sink may be interrupted and may take fewer bytes than it was offered.  A sink
is *steady* if that is all: a call that is not interrupted takes at least one byte, unless
the capacity is used up.  What is stored in the end is then decided by the room alone: of
the bytes that are written, those for which there is room are stored (`fitting`), and the
writing fails exactly if these are not all (`writeAll_steady`).

So the number of bytes that a call takes at most and the calls that are interrupted do not
matter.  Sinks that agree otherwise (`Alike`) serve a machine alike (`alike_bisimulation`).
-/

namespace RingTape

/-- **Steady rules**: every call that finds room may take a byte. -/
structure SinkRules.Steady (rules : SinkRules) : Prop where
  chunk : rules.chunk ≠ some 0
  mishap : ∀ i, rules.mishap i = none ∨ ∃ count, rules.mishap i = some (.takesAtMost (count + 1))

/-- The fault of a writing that runs out of room. -/
def WhenFull.fault : WhenFull → Fault
  | refuses => .sinkFull
  | takesNothing => .shortWrite

namespace Sink

/-- Those of the bytes for which there is room. -/
def fitting (s : Sink) (bytes : List UInt8) : List UInt8 :=
  match s.rules.capacity with
  | none => bytes
  | some capacity => bytes.take (capacity - s.stored.size)

section Fitting

variable {s t : Sink} {bytes : List UInt8}

theorem fitting_congr (hcapacity : t.rules.capacity = s.rules.capacity)
    (hstored : t.stored = s.stored) : t.fitting bytes = s.fitting bytes := by
  rw [fitting, fitting, hcapacity, hstored]

theorem fitting_of_isFull (bytes : List UInt8) (h : s.isFull = true) : s.fitting bytes = [] := by
  cases hcapacity : s.rules.capacity with
  | none => simp [isFull, hcapacity] at h
  | some capacity =>
    have hspent : capacity ≤ s.stored.size := by simpa [isFull, hcapacity] using h
    simp only [fitting, hcapacity]
    rw [Nat.sub_eq_zero_of_le hspent, List.take_zero]

/-- A part of what fits can be stored first; then the rest of it fits. -/
theorem fitting_split {count : Nat} (hcapacity : t.rules.capacity = s.rules.capacity)
    (hstored : t.stored = s.stored ++ bytes.take count)
    (hcount : count ≤ (s.fitting bytes).length) :
    s.fitting bytes = bytes.take count ++ t.fitting (bytes.drop count) := by
  cases hbound : s.rules.capacity with
  | none =>
    simp only [fitting, hcapacity, hbound]
    exact (List.take_append_drop count bytes).symm
  | some capacity =>
    simp only [fitting, hcapacity, hbound, hstored, List.length_take] at hcount ⊢
    have hsize : (s.stored ++ bytes.take count).size = s.stored.size + count := by
      rw [← Array.length_toList, Array.toList_appendList, List.length_append, Array.length_toList,
        List.length_take]
      omega
    have hroom : capacity - s.stored.size = count + (capacity - (s.stored.size + count)) := by
      omega
    rw [hsize, hroom, List.take_add]

end Fitting

/-- **What one call to a steady sink does**, if there are bytes to be stored: the answer and
the bytes that are stored after it. -/
inductive Served (s : Sink) (bytes : List UInt8) (next : Sink) : Acceptance → Prop where
  /-- It is interrupted. -/
  | interrupted (hstored : next.stored = s.stored) : Served s bytes next .interrupted
  /-- It finds no room and is refused. -/
  | refused (hnone : s.fitting bytes = []) (hkind : s.rules.whenFull = .refuses)
      (hstored : next.stored = s.stored) : Served s bytes next (.failed .sinkFull)
  /-- It finds no room and takes nothing. -/
  | idle (hnone : s.fitting bytes = []) (hkind : s.rules.whenFull = .takesNothing)
      (hstored : next.stored = s.stored) : Served s bytes next (.took 0)
  /-- It stores some of the bytes that fit. -/
  | took {count : Nat} (hcount : count + 1 ≤ (s.fitting bytes).length)
      (hstored : next.stored = s.stored ++ bytes.take (count + 1)) :
      Served s bytes next (.took (count + 1))

section Steady

variable {s : Sink} (hsteady : s.rules.Steady)
include hsteady

/-- A call that finds room takes at least one of the bytes that fit, and no other ones. -/
theorem allowance_steady (hroom : s.isFull = false) {bytes : List UInt8} (hbytes : bytes ≠ []) :
    0 < s.allowance bytes.length ∧ s.allowance bytes.length ≤ (s.fitting bytes).length := by
  have hlength : 0 < bytes.length := List.length_pos_iff.mpr hbytes
  have hchunk (chunk : Nat) (h : s.rules.chunk = some chunk) : 0 < chunk := by
    apply Nat.pos_of_ne_zero
    rintro rfl
    exact hsteady.chunk h
  have hspace (capacity : Nat) (h : s.rules.capacity = some capacity) :
      s.stored.size < capacity := by
    simpa [isFull, h] using hroom
  -- each of the three bounds may be there or not, and none of them is zero
  unfold allowance fitting
  rcases hsteady.mishap s.calls with hmishap | ⟨count, hmishap⟩ <;>
    cases hbound : s.rules.chunk <;> cases hcapacity : s.rules.capacity <;>
    simp only [hmishap, List.length_take] <;> grind

/-- Every call is of one of these kinds. -/
theorem offer_served {bytes : List UInt8} (hbytes : bytes ≠ []) {answer : Acceptance}
    {next : Sink} (hoffer : s.offer bytes = (answer, next)) :
    next.rules = s.rules ∧ next.flushes = s.flushes ∧ s.Served bytes next answer := by
  have hmisfortune : s.misfortune = none := by
    rcases hsteady.mishap s.calls with hmishap | ⟨count, hmishap⟩ <;> simp [misfortune, hmishap]
  unfold offer at hoffer
  rw [hmisfortune] at hoffer
  split at hoffer
  · cases hoffer
    exact ⟨rfl, rfl, .interrupted rfl⟩
  · dsimp only at hoffer
    split at hoffer
    · rename_i hfull
      have hnone := fitting_of_isFull bytes hfull
      split at hoffer
      · rename_i hkind
        cases hoffer
        exact ⟨rfl, rfl, .refused hnone hkind rfl⟩
      · rename_i hkind
        cases hoffer
        exact ⟨rfl, rfl, .idle hnone hkind rfl⟩
    · rename_i hroom
      obtain ⟨hpos, hle⟩ := allowance_steady hsteady (Bool.eq_false_iff.mpr hroom) hbytes
      obtain ⟨count, hcount⟩ := Nat.exists_eq_succ_of_ne_zero (Nat.ne_of_gt hpos)
      rw [hcount] at hoffer hle
      cases hoffer
      exact ⟨rfl, rfl, .took hle rfl⟩

/-- **Writing to a steady sink** stores what fits, and succeeds exactly if everything does. -/
theorem writeAll_steady (bytes : List UInt8) :
    (s.writeAll bytes).1 =
        (if s.fitting bytes = bytes then .ok () else .error s.rules.whenFull.fault) ∧
      (s.writeAll bytes).2.stored.toList = s.stored.toList ++ s.fitting bytes ∧
      (s.writeAll bytes).2.rules = s.rules ∧ (s.writeAll bytes).2.flushes = s.flushes := by
  fun_induction writeAll s bytes with
  | case1 s =>
    have hnone : s.fitting [] = [] := by
      unfold fitting
      split <;> simp
    rw [hnone, if_pos rfl, List.append_nil]
    exact ⟨rfl, rfl, rfl, rfl⟩
  | case2 s b rest next hoffer ih =>
    obtain ⟨hrules, hflushes, hserved⟩ := offer_served hsteady (List.cons_ne_nil b rest) hoffer
    cases hserved with
    | interrupted hstored =>
      have hrest := ih (hrules ▸ hsteady)
      rw [hrules, hflushes, hstored, fitting_congr (congrArg _ hrules) hstored] at hrest
      exact hrest
  | case3 s b rest fault next hoffer =>
    obtain ⟨hrules, hflushes, hserved⟩ := offer_served hsteady (List.cons_ne_nil b rest) hoffer
    cases hserved with
    | refused hnone hkind hstored =>
      rw [hnone, if_neg (List.cons_ne_nil b rest).symm, hkind, List.append_nil]
      exact ⟨rfl, congrArg _ hstored, hrules, hflushes⟩
  | case4 s b rest next hoffer =>
    obtain ⟨hrules, hflushes, hserved⟩ := offer_served hsteady (List.cons_ne_nil b rest) hoffer
    cases hserved with
    | idle hnone hkind hstored =>
      rw [hnone, if_neg (List.cons_ne_nil b rest).symm, hkind, List.append_nil]
      exact ⟨rfl, congrArg _ hstored, hrules, hflushes⟩
  | case5 s b rest count next hoffer ih =>
    obtain ⟨hrules, hflushes, hserved⟩ := offer_served hsteady (List.cons_ne_nil b rest) hoffer
    cases hserved with
    | took hcount hstored =>
      have hrest := ih (hrules ▸ hsteady)
      rw [hrules, hflushes, hstored] at hrest
      obtain ⟨hresult, hlast, hkept⟩ := hrest
      have hsplit : s.fitting (b :: rest) = (b :: rest).take (count + 1) ++
          next.fitting (rest.drop count) :=
        fitting_split (congrArg _ hrules) hstored hcount
      have hall : s.fitting (b :: rest) = b :: rest ↔
          next.fitting (rest.drop count) = rest.drop count := by
        have hbytes : (b :: rest).take (count + 1) ++ rest.drop count = b :: rest :=
          List.take_append_drop (count + 1) (b :: rest)
        rw [hsplit]
        exact ⟨fun h => List.append_cancel_left (h.trans hbytes.symm), fun h => by rw [h, hbytes]⟩
      refine ⟨?_, ?_, hkept⟩
      · rw [hresult]
        simp only [hall]
      · rw [hlast, hsplit, Array.toList_appendList, List.append_assoc]

end Steady

/-- **Sinks that differ only in the calls that they need**: they have stored and flushed the
same, and have the same capacity, kind of failure and faults of flushing. -/
structure Alike (s t : Sink) : Prop where
  steady : s.rules.Steady
  steady' : t.rules.Steady
  capacity : t.rules.capacity = s.rules.capacity
  whenFull : t.rules.whenFull = s.rules.whenFull
  flushFault : t.rules.flushFault = s.rules.flushFault
  stored : t.stored = s.stored
  flushes : t.flushes = s.flushes

/-- **Such sinks give the same answers** and keep storing the same. -/
theorem alike_bisimulation : Bisimulation Alike where
  write := by
    intro s t h bytes
    obtain ⟨hresult, hstored, hrules, hflushes⟩ := writeAll_steady h.steady bytes
    obtain ⟨hresult', hstored', hrules', hflushes'⟩ := writeAll_steady h.steady' bytes
    have hfitting : t.fitting bytes = s.fitting bytes := fitting_congr h.capacity h.stored
    refine ⟨?_, ?_⟩
    · rw [hresult, hresult', hfitting, h.whenFull]
    · exact {
        steady := hrules ▸ h.steady
        steady' := hrules' ▸ h.steady'
        capacity := by rw [hrules, hrules', h.capacity]
        whenFull := by rw [hrules, hrules', h.whenFull]
        flushFault := by rw [hrules, hrules', h.flushFault]
        stored := by
          apply Array.toList_inj.mp
          rw [hstored, hstored', hfitting, h.stored]
        flushes := by rw [hflushes, hflushes', h.flushes] }
  flush := by
    intro s t h
    have hfault : t.rules.flushFault t.flushes = s.rules.flushFault s.flushes := by
      rw [h.flushFault, h.flushes]
    unfold flush
    rw [hfault]
    split
    · exact ⟨rfl, { h with flushes := congrArg (· + 1) h.flushes }⟩
    · exact ⟨rfl, { h with flushes := congrArg (· + 1) h.flushes }⟩

end Sink
end RingTape
