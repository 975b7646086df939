import Mathlib.Data.List.Forall2
import RingTape.Proofs.Readings

/-!
# Reading byte after byte

A reader makes the answers of its script and then reports the end of the stream for ever,
so there is an answer to every request (`answers`).  One reading repeats its request as
long as it is interrupted, and nothing bounds how often; but a script is finite and no
interruption comes after it, so every reading comes to an answer that says something
(`readOne_waits`).

Readings that follow each other divide the answers among them: what one has not asked for
is left for the next.  So after any number of readings the answers made so far are those
that were returned, one for each reading and in order, and the interruptions before them
(`settle_readings`).  Nothing is lost and nothing is made up.
-/

namespace RingTape

/-- What an answer says about the stream.  An interruption says nothing. -/
inductive Response.Means : Response → Reading → Prop where
  /-- The stream has ended. -/
  | ended : Means .ended (.ok none)
  /-- No byte was reported, which is the end of the stream whatever was stored. -/
  | unreported (byte : UInt8) : Means (.stored byte 0) (.ok none)
  /-- At least one byte was reported, and it is the one that was stored. -/
  | reported (byte : UInt8) (more : Nat) : Means (.stored byte (more + 1)) (.ok (some byte))
  /-- The request failed with this fault. -/
  | failed (fault : Fault) : Means (.failed fault) (.error fault)

theorem Response.Means.ne_interrupted {response : Response} {reading : Reading}
    (h : response.Means reading) : response ≠ .interrupted := by
  rintro rfl
  cases h

theorem Response.Means.reading?_eq {response : Response} {reading : Reading}
    (h : response.Means reading) : response.reading? = some reading := by
  cases h <;> rfl

/-- An answer is an interruption or says something. -/
theorem Response.interrupted_or_means (response : Response) :
    response = .interrupted ∨ ∃ reading, response.Means reading := by
  cases response with
  | ended => exact Or.inr ⟨_, .ended⟩
  | interrupted => exact Or.inl rfl
  | failed fault => exact Or.inr ⟨_, .failed fault⟩
  | stored byte count =>
    cases count with
    | zero => exact Or.inr ⟨_, .unreported byte⟩
    | succ more => exact Or.inr ⟨_, .reported byte more⟩

namespace Reader

/-- What a number of readings give, one after the other. -/
def readings (r : Reader) : Nat → List Reading
  | 0 => []
  | n + 1 => r.readOne.1 :: r.readOne.2.readings n

@[simp]
theorem length_readings (r : Reader) (n : Nat) : (r.readings n).length = n := by
  induction n generalizing r with
  | zero => rfl
  | succ n ih => rw [readings, List.length_cons, ih]

/-! ## The answers to the first requests -/

/-- The answers to a number of requests: those of the script, and then the end of the stream
for ever. -/
def answers (script : List Response) (requests : Nat) : List Response :=
  (List.range requests).map fun i => script[i]?.getD .ended

@[simp]
theorem length_answers (script : List Response) (requests : Nat) :
    (answers script requests).length = requests := by
  rw [answers, List.length_map, List.length_range]

theorem answers_cons (response : Response) (rest : List Response) (requests : Nat) :
    answers (response :: rest) (requests + 1) = response :: answers rest requests := by
  rw [answers, List.range_succ_eq_map, List.map_cons, List.map_map]
  rfl

/-- What was not asked for is left. -/
theorem answers_add (script : List Response) (j k : Nat) :
    answers script (j + k) = answers script j ++ answers (script.drop j) k := by
  rw [answers, List.range_add, List.map_append, List.map_map]
  simp only [answers, List.getElem?_drop, Function.comp_def]

/-- The only interruptions are those of the script. -/
theorem count_answers_le (script : List Response) (requests : Nat) :
    (answers script requests).count .interrupted ≤ script.count .interrupted := by
  induction script generalizing requests with
  | nil =>
    refine Nat.le_of_eq (List.count_eq_zero.mpr fun hmem => ?_)
    obtain ⟨i, -, hi⟩ := List.mem_map.mp hmem
    cases hi
  | cons response rest ih =>
    cases requests with
    | zero => exact Nat.zero_le _
    | succ requests =>
      rw [answers_cons, List.count_cons, List.count_cons]
      exact Nat.add_le_add_right (ih requests) _

/-- **One reading** waits through interruptions and ends at the first answer that says
something, which it returns. -/
theorem readOne_waits (r : Reader) : ∃ waits response,
    answers r.script (waits + 1) = List.replicate waits .interrupted ++ [response] ∧
      response.Means r.readOne.1 ∧
      r.readOne.2 = ⟨r.script.drop (waits + 1), r.requests + (waits + 1)⟩ := by
  obtain ⟨script, requests⟩ := r
  induction script generalizing requests with
  | nil => exact ⟨0, .ended, rfl, .ended, rfl⟩
  | cons response rest ih =>
    rcases response.interrupted_or_means with rfl | ⟨reading, hmeans⟩
    · obtain ⟨waits, last, hanswers, hmeans, hleft⟩ := ih (requests + 1)
      refine ⟨waits + 1, last, ?_, hmeans, ?_⟩
      · rw [answers_cons, hanswers, List.replicate_succ, List.cons_append]
      · rw [readOne_interrupted, hleft, List.drop_succ_cons, Nat.add_right_comm, Nat.add_assoc]
    · have hone := readOne_of_reading hmeans.reading?_eq rest requests
      refine ⟨0, response, ?_, hone ▸ hmeans, by rw [hone]; rfl⟩
      rw [answers_cons]
      rfl

/-! ## The answers of many readings -/

/-- The answers that are no interruptions. -/
def telling (answers : List Response) : List Response :=
  answers.filter (· ≠ .interrupted)

theorem telling_waits {response : Response} (h : response ≠ .interrupted) (waits : Nat)
    (answers : List Response) :
    telling (List.replicate waits .interrupted ++ response :: answers) =
      response :: telling answers := by
  simp [telling, h]

theorem length_eq_telling_add (answers : List Response) :
    answers.length = (telling answers).length + answers.count .interrupted := by
  induction answers with
  | nil => rfl
  | cons response answers ih =>
    rw [telling] at ih
    rw [telling, List.filter_cons, List.length_cons, List.count_cons, ih]
    by_cases hresponse : response = .interrupted
    · simp [hresponse, Nat.add_assoc]
    · simp [hresponse, Nat.add_right_comm]

/-- **The answers that readings use**: each reading is what one of them says, in order, and
the others are interruptions before those. -/
structure Settle (answers : List Response) (readings : List Reading) : Prop where
  /-- The answers that are no interruptions say what was read. -/
  meant : List.Forall₂ Response.Means (telling answers) readings
  /-- No interruption comes after the last of them. -/
  last : answers.getLast? ≠ some .interrupted

/-- One more reading in front, with the interruptions that it waits through. -/
theorem Settle.cons {response : Response} {reading : Reading} {answers : List Response}
    {readings : List Reading} (hmeans : response.Means reading) (h : Settle answers readings)
    (waits : Nat) :
    Settle (List.replicate waits .interrupted ++ response :: answers) (reading :: readings) := by
  constructor
  · rw [telling_waits hmeans.ne_interrupted]
    exact .cons hmeans h.meant
  · rw [List.getLast?_append, List.getLast?_cons]
    cases hlast : answers.getLast? with
    | none => simpa using hmeans.ne_interrupted
    | some last => simpa [hlast] using h.last

/-- **Readings that follow each other share the answers among them.** -/
theorem settle_readings (r : Reader) (n : Nat) : ∃ used,
    r.advance n = ⟨r.script.drop used, r.requests + used⟩ ∧
      Settle (answers r.script used) (r.readings n) := by
  induction n generalizing r with
  | zero => exact ⟨0, rfl, .nil, by simp [answers]⟩
  | succ n ih =>
    obtain ⟨waits, response, hanswers, hmeans, hleft⟩ := r.readOne_waits
    obtain ⟨used, hadvance, hsettle⟩ := ih r.readOne.2
    rw [hleft] at hadvance hsettle
    dsimp only at hadvance hsettle
    refine ⟨waits + 1 + used, ?_, ?_⟩
    · rw [advance, hleft, hadvance, List.drop_drop, Nat.add_assoc r.requests]
    · rw [answers_add, hanswers, List.append_assoc, readings, hleft]
      exact .cons hmeans hsettle waits

/-- **Repeated readings lose nothing and make nothing up.**  After `n` readings a reader has
made as many more requests as it has used answers of its script and of the end of the stream
that follows.  Those of them that are no interruptions say in order what the `n` readings
returned: nothing for the end of the stream and for a byte that was not reported, the byte
that was stored if any number was reported, and the fault of a failed request.  All others
are interruptions before the last of these.  There are no more of them than in the script,
and so the readings come to an end. -/
theorem repeated_readings_exact (r : Reader) (n : Nat) :
    (r.readings n).length = n ∧
    ∃ used, r.advance n = ⟨r.script.drop used, r.requests + used⟩ ∧
      Settle (answers r.script used) (r.readings n) ∧
      used = n + (answers r.script used).count .interrupted ∧
      used ≤ n + r.script.count .interrupted := by
  refine ⟨r.length_readings n, ?_⟩
  obtain ⟨used, hadvance, hsettle⟩ := settle_readings r n
  have hused : used = n + (answers r.script used).count .interrupted := by
    have hlength := length_eq_telling_add (answers r.script used)
    rwa [hsettle.meant.length_eq, length_answers, length_readings] at hlength
  have hfew := count_answers_le r.script used
  exact ⟨used, hadvance, hsettle, hused, by omega⟩

-- a byte that was stored but not reported is the end, and a stream goes on after its end
example : (ofScript [.interrupted, .stored 7 0, .failed .unavailable, .interrupted,
    .interrupted, .stored 8 2]).readings 4 =
      [.ok none, .error .unavailable, .ok (some 8), .ok none] := rfl

end Reader
end RingTape
