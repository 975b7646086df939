import RingTape.Proofs.Conservation
import RingTape.Proofs.Lockstep

/-!
# The end of the input as a supply of zeros

Under the policy that fills the current cell with zero at the end of the input, a machine
cannot tell the end from more bytes that are zero.  Here the input of a second machine is
that of the first and enough zeros after it (`agrees_zeros`), so that the second machine
never comes to the end and may have any policy.  Both make the same steps and the same
runs, for as long as there are zeros (`end_supplies_zeros`).

A connection is read under the policy as well, so no connection may be made meanwhile:
then there never is one (`active_after_of_unreached`).
-/

namespace RingTape

namespace Reader

theorem nth_ofBytes (bytes : List UInt8) (j : Nat) : (ofBytes bytes).nth j = .ok bytes[j]? := by
  have hfinals : (ofBytes bytes).finals = bytes.map fun byte => .ok (some byte) := by
    simp [finals, ofBytes, ofScript, List.filterMap_map, Response.reading?, Function.comp_def]
  rw [nth, hfinals, List.getElem?_map]
  cases bytes[j]? <;> rfl

/-- **More bytes that are zero are as good as the end**, if the end is treated as zero. -/
theorem agrees_zeros (policy : EndPolicy) (input : List UInt8) {k zeros : Nat} (h : k ≤ zeros) :
    Agrees .zero policy k (ofBytes input) (ofBytes (input ++ List.replicate zeros 0)) := by
  intro j hj cell
  rw [nth_ofBytes, nth_ofBytes]
  by_cases hinput : j < input.length
  · rw [List.getElem?_append_left hinput, List.getElem?_eq_getElem hinput]
    rfl
  · have hzero : (input ++ List.replicate zeros 0)[j]? = some 0 := by
      rw [List.getElem?_append_right (Nat.le_of_not_lt hinput), List.getElem?_replicate,
        if_pos (by omega)]
    rw [hzero, List.getElem?_eq_none (Nat.le_of_not_lt hinput)]
    rfl

end Reader

/-- Equal sinks give the same answers. -/
theorem Sink.eq_bisimulation : Bisimulation Eq where
  write := by
    rintro s _ rfl bytes
    exact ⟨rfl, rfl⟩
  flush := by
    rintro s _ rfl
    exact ⟨rfl, rfl⟩

namespace Machine

variable {World Link : Type} (net : Network World Link) {m : Machine World Link}

/-- A machine that makes no connection has none. -/
theorem active_after_of_unreached (hstart : m.active = none) {n : Nat}
    (h : ∀ j, j < n → (m.after net j).reaches net = none) : (m.after net n).active = none := by
  induction n with
  | zero => exact hstart
  | succ n ih =>
    obtain ⟨-, -, hactive, -⟩ := (step_conduct net (m.after net n)).connections
    rw [h n (Nat.lt_succ_self n), ih fun j hj => h j (Nat.lt_succ_of_lt hj)] at hactive
    exact hactive

/-- A run takes at most as many readings as it makes steps. -/
theorem reads_run_le (flag : Nat → Bool) :
    m.reads net (m.moves net (.run flag)) ≤ m.paces net flag := by
  have hsteps : (m.departures net (m.moves net (.run flag))).length = m.paces net flag := by
    rw [departures_run, List.length_map, List.length_range]
  rw [← hsteps]
  exact List.countP_le_length

/-- **Under the zero policy, the end of the input is a supply of zeros.**  One machine has
this policy; another has any policy, and zeros after the same input.  If no step of the
first makes a connection, both make the same steps, for as many steps as there are zeros:
each comes to the same, and the machines differ in input and policy alone.  So do runs that
make no more steps than there are zeros. -/
theorem end_supplies_zeros (image : Image) (input : List UInt8) (rules : SinkRules)
    (world : World) (settings : Settings) (policy : EndPolicy) (k zeros : Nat)
    (hzeros : k ≤ zeros) :
    let m : Machine World Link := load image ⟨.ofBytes input, .ofRules rules⟩ world
      { settings with onEnd := .zero }
    let t : Machine World Link :=
      load image ⟨.ofBytes (input ++ List.replicate zeros 0), .ofRules rules⟩ world
        { settings with onEnd := policy }
    ((∀ j, j < k → (m.after net j).reaches net = none) →
      (∀ j, j < k → ((t.after net j).step net).outcome = ((m.after net j).step net).outcome) ∧
      ∀ j, j ≤ k → (m.after net j).Paired Eq policy (t.after net j)) ∧
    ∀ flag, m.paces net flag ≤ k →
      (∀ j, j < m.paces net flag → (m.after net j).reaches net = none) →
      (t.runWatching net flag).ending = (m.runWatching net flag).ending ∧
        (m.runWatching net flag).machine.Paired Eq policy (t.runWatching net flag).machine := by
  intro m t
  have hpaired : m.Paired Eq policy t := ⟨rfl, rfl⟩
  have hagree : m.InputsAgree policy k t := Reader.agrees_zeros policy input hzeros
  -- the policies may differ, because there is no connection that is read under them
  have hlinks {n : Nat} (hunreached : ∀ j, j < n → (m.after net j).reaches net = none) (j : Nat)
      (hj : j < n) : ¬ (m.after net j).active.isSome := by
    rw [active_after_of_unreached net rfl fun i hi => hunreached i (Nat.lt_trans hi hj)]
    exact Bool.false_ne_true
  refine ⟨fun hunreached => ?_, fun flag hpaces hunreached => ?_⟩
  · have hafter (j left : Nat) (hj : j + left ≤ k) := hpaired.after net Sink.eq_bisimulation
      (fun i hi hactive => absurd hactive (hlinks hunreached i (by omega))) (hagree.mono hj)
    refine ⟨fun j hj => ?_, fun j hj => (hafter j 0 hj).1⟩
    obtain ⟨hnow, hnext⟩ := hafter j 1 hj
    obtain ⟨houtcome, -, -⟩ := hnow.step net Sink.eq_bisimulation (n := 0)
      (fun hactive => absurd hactive (hlinks hunreached j hj)) (hnext.mono (by split <;> omega))
    exact houtcome
  · have hreads : m.reads net (m.moves net (.run flag)) ≤ k :=
      Nat.le_trans (reads_run_le net flag) hpaces
    have hdepartures (s : Machine World Link) (hs : s ∈ m.departures net (m.moves net (.run flag)))
        (hactive : s.active.isSome) : policy = s.settings.onEnd := by
      rw [departures_run] at hs
      obtain ⟨j, hj, rfl⟩ := List.mem_map.mp hs
      exact absurd hactive (hlinks hunreached j (List.mem_range.mp hj))
    obtain ⟨hending, hlast, -⟩ := hpaired.runWatching Sink.eq_bisimulation hdepartures
      (hagree.mono hreads)
    exact ⟨hending, hlast⟩

/-- A program that replaces its last instruction by what it reads, and then executes it. -/
def selfReader : Image :=
  .ofBytes [Opcode.backward.code, 1, Opcode.read.code, Opcode.finish.code]

/-- At the end of the input, the last instruction becomes one that does nothing.  So it does
where there is a zero to be read, also under the policy to stop at the end. -/
theorem end_supplies_zeros_selfReader :
    let settings : Settings := { maxSteps := some 3 }
    let t : Machine PeerWorld Nat :=
      load selfReader ⟨.ofBytes [0, 0, 0], .ofRules {}⟩ (.ofPeers .isolated [])
        { settings with onEnd := .halt }
    ((t.after PeerWorld.network 2).step PeerWorld.network).outcome = .continued ∧
      (t.after PeerWorld.network 3).pc = 4 ∧
      (t.runWatching PeerWorld.network fun _ => false).ending = .halted .stepLimit := by
  intro settings t
  let m : Machine PeerWorld Nat :=
    load selfReader ⟨.ofBytes [], .ofRules {}⟩ (.ofPeers .isolated []) settings
  have hunreached : ∀ j < 3, (m.after PeerWorld.network j).reaches PeerWorld.network = none := by
    decide +kernel
  have hpaces : m.paces PeerWorld.network (fun _ => false) = 3 := by decide +kernel
  have hcontinued : ((m.after PeerWorld.network 2).step PeerWorld.network).outcome =
      .continued := by decide +kernel
  have hpc : (m.after PeerWorld.network 3).pc = 4 := by decide +kernel
  have hlimit : (m.runWatching PeerWorld.network fun _ => false).ending = .halted .stepLimit := by
    decide +kernel
  obtain ⟨hsteps, hruns⟩ := end_supplies_zeros PeerWorld.network selfReader [] {}
    (.ofPeers .isolated []) settings .halt 3 3 (Nat.le_refl 3)
  obtain ⟨houtcomes, hpaired⟩ := hsteps hunreached
  obtain ⟨hending, -⟩ := hruns (fun _ => false) (Nat.le_of_eq hpaces) (hpaces ▸ hunreached)
  refine ⟨(houtcomes 2 (by decide)).trans hcontinued, ?_, hending.trans hlimit⟩
  exact (congrArg Machine.pc (hpaired 3 (Nat.le_refl 3)).rest).trans hpc

end Machine
end RingTape
