import RingTape.Console

/-!
# What a sink has stored

Whatever a sink does with single calls (interruptions, short calls, faults, a
capacity that is used up), writing all of some bytes has one contract: a first part
of the bytes is stored after what was stored before, the rest is not, and the
writing succeeds exactly if there is no rest (`Sink.writeAll_contract`).

Flushing and reading store nothing, and nothing that is written touches the input.
-/

namespace RingTape

/-- The number of bytes that a call took. -/
def Acceptance.taken : Acceptance → Nat
  | took count => count
  | interrupted | failed _ => 0

namespace Sink

/-- One call stores exactly the bytes it took, after all that was stored before. -/
theorem stored_offer (s : Sink) (bytes : List UInt8) :
    (s.offer bytes).2.stored.toList =
      s.stored.toList ++ bytes.take (s.offer bytes).1.taken := by
  unfold offer
  split
  · simp [Acceptance.taken]
  · dsimp only
    split
    · simp [Acceptance.taken]
    · split
      · split <;> simp [Acceptance.taken]
      · simp [Acceptance.taken]

/-- **The contract of writing.**  The stored part and the rest make up the bytes, and
the writing succeeds exactly if there is no rest. -/
theorem writeAll_contract (s : Sink) (bytes : List UInt8) :
    ∃ gained pending, gained ++ pending = bytes ∧
      (s.writeAll bytes).2.stored.toList = s.stored.toList ++ gained ∧
      ((s.writeAll bytes).1 = .ok () ↔ pending = []) := by
  fun_induction writeAll s bytes with
  | case1 s => exact ⟨[], [], rfl, (List.append_nil _).symm, by simp⟩
  | case2 s b rest next answer ih =>
    have hstored := s.stored_offer (b :: rest)
    rw [answer] at hstored
    obtain ⟨gained, pending, hsplit, hnext, hok⟩ := ih
    refine ⟨gained, pending, hsplit, ?_, hok⟩
    rw [hnext, hstored]
    simp [Acceptance.taken]
  | case3 s b rest fault next answer =>
    have hstored := s.stored_offer (b :: rest)
    rw [answer] at hstored
    exact ⟨[], b :: rest, rfl, by simpa [Acceptance.taken] using hstored, by simp⟩
  | case4 s b rest next answer =>
    have hstored := s.stored_offer (b :: rest)
    rw [answer] at hstored
    exact ⟨[], b :: rest, rfl, by simpa [Acceptance.taken] using hstored, by simp⟩
  | case5 s b rest count next answer ih =>
    have hstored := s.stored_offer (b :: rest)
    rw [answer] at hstored
    obtain ⟨gained, pending, hsplit, hnext, hok⟩ := ih
    -- what this call took comes first, and the calls after it go on where it stopped
    refine ⟨b :: rest.take count ++ gained, pending, ?_, ?_, hok⟩
    · rw [List.append_assoc, hsplit, List.cons_append, List.take_append_drop]
    · rw [hnext, hstored, List.append_assoc]
      rfl

theorem stored_flush (s : Sink) : s.flush.2.stored = s.stored := by
  unfold flush
  dsimp only
  split <;> rfl

end Sink

namespace Console

/-- Everything that was put on the console so far. -/
def written (c : Console) : List UInt8 :=
  c.output.stored.toList

/-- The contract of writing, for a console. -/
theorem write_contract {c c' : Console} {bytes : List UInt8} {result : Except Fault Unit}
    (h : c.write bytes = (result, c')) :
    c'.input = c.input ∧ ∃ gained pending, gained ++ pending = bytes ∧
      c'.written = c.written ++ gained ∧ (result = .ok () ↔ pending = []) := by
  obtain rfl : (c.write bytes).1 = result := congrArg Prod.fst h
  obtain rfl : (c.write bytes).2 = c' := congrArg Prod.snd h
  exact ⟨rfl, c.output.writeAll_contract bytes⟩

/-- A write that succeeds puts all its bytes on the console. -/
theorem written_write {c c' : Console} {bytes : List UInt8} (h : c.write bytes = (.ok (), c')) :
    c'.written = c.written ++ bytes := by
  obtain ⟨-, gained, pending, hsplit, hwritten, hok⟩ := write_contract h
  rw [hok.mp rfl, List.append_nil] at hsplit
  rw [hwritten, hsplit]

/-- Flushing puts nothing on the console and takes nothing from it. -/
theorem written_flush (c : Console) : c.flush.2.written = c.written :=
  congrArg Array.toList c.output.stored_flush

theorem input_flush (c : Console) : c.flush.2.input = c.input := rfl

theorem written_readByte (c : Console) : c.readByte.2.written = c.written := rfl

end Console
end RingTape
