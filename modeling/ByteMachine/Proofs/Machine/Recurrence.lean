import Mathlib.Data.Fintype.BigOperators
import Mathlib.Data.Fintype.Pigeonhole
import Mathlib.Data.Fintype.Prod
import ByteMachine.Proofs.Machine.Loaded
import ByteMachine.Proofs.Machine.Place

/-!
# Whether a machine stops

Between two steps a running machine is known from its program counter and the values in its
registers: no instruction changes the memory, and nothing looks at the count of steps, at what has
been shown or at the trace. So a machine that comes back to a program counter with the same values
goes round for ever, and a machine that goes on for long enough must come back, since there are only
`stateCount` states to be in. A run of that length settles whether the machine ever stops, and a run
without a limit is one of that length.

## Main results

* `passes_of_samePlace`: a machine that comes back never stops.
* `exists_samePlace_of_passes`: a machine that goes on comes back.
* `stops_within_stateCount`: whether a loaded machine stops.
-/

namespace ByteMachine.Machine

variable {machine : Machine}

/-! ### Coming back -/

/-- Two machines of one run are in the same place if they run with the same values at the same
program counter. -/
theorem samePlace_iterate_next {i j : Nat} (runs : (next^[i] machine).status = .running)
    (runs' : (next^[j] machine).status = .running)
    (pc : (next^[i] machine).registers.pc = (next^[j] machine).registers.pc)
    (values : (next^[i] machine).registers.values = (next^[j] machine).registers.values) :
    SamePlace (next^[i] machine) (next^[j] machine) where
  ram_eq := by rw [ram_iterate_next, ram_iterate_next]
  values_eq := values
  pc_eq := pc
  status_eq := runs.trans runs'.symm

/-- A machine that comes back to the same place, still running, **never stops**: it does again what
it has done. -/
theorem passes_of_samePlace (ready : machine.Ready) {i j : Nat} (before : i < j)
    (runs : (next^[j] machine).status = .running)
    (same : SamePlace (next^[i] machine) (next^[j] machine)) (k : Nat) :
    (next^[k] machine).Passes := by
  refine passes_of_returns (fun one other => one.profile = other.profile ∧ SamePlace one other)
    (fun one other both => ⟨?_, both.2.next both.1⟩) (fun one other both passes => ?_) before
    ⟨?_, same⟩ (ready.passes_of_status runs) k
  · rw [one.profile_next, other.profile_next, both.1]
  · rw [passes_iff] at passes ⊢
    rw [← both.2.status_eq, ← namesPc_congr both.2.ram_eq both.2.pc_eq,
      ← (both.2.next both.1).status_eq]
    exact passes
  · rw [profile_iterate_next, profile_iterate_next]

/-! ### Going on -/

/-- A machine that passes as many steps as it has states has been twice in the same place, by the
pigeonhole principle. -/
theorem exists_samePlace_of_passes (runs : machine.status = .running)
    (inside : machine.ram.contains machine.registers.pc = true)
    (passes : ∀ k < machine.stateCount, (next^[k] machine).Passes) :
    ∃ i j, i < j ∧ (next^[j] machine).status = .running ∧
      SamePlace (next^[i] machine) (next^[j] machine) := by
  have visits (k : Fin (machine.stateCount + 1)) :=
    runs_iterate_next runs inside passes (Nat.le_of_lt_succ k.isLt)
  have address (k : Fin (machine.stateCount + 1)) :
      (next^[k] machine).registers.pc.toNat < machine.ram.size := by
    have within := Ram.contains_iff.mp (visits k).2
    omega
  have length (k : Nat) : ((next^[k] machine).registers.values.map UInt8.toFin).length =
      machine.registers.count := by
    rw [List.length_map]
    exact machine.count_iterate_next k
  -- The state behind `k` steps, among as many as `stateCount` says.
  let state (k : Fin (machine.stateCount + 1)) :
      Fin machine.ram.size × List.Vector (Fin UInt8.size) machine.registers.count :=
    (⟨_, address k⟩, ⟨_, length k⟩)
  have fewer : Fintype.card (Fin machine.ram.size ×
      List.Vector (Fin UInt8.size) machine.registers.count) <
        Fintype.card (Fin (machine.stateCount + 1)) := by
    rw [Fintype.card_prod, card_vector, Fintype.card_fin, Fintype.card_fin, Fintype.card_fin]
    exact Nat.lt_succ_self _
  have settle {i j : Fin (machine.stateCount + 1)} (before : i < j) (same : state i = state j) :
      ∃ i j, i < j ∧ (next^[j] machine).status = .running ∧
        SamePlace (next^[i] machine) (next^[j] machine) := by
    obtain ⟨pc, values⟩ := Prod.mk.inj same
    refine ⟨i, j, before, (visits j).1, samePlace_iterate_next (visits i).1 (visits j).1 ?_ ?_⟩
    · have within := Ram.contains_iff.mp (visits i).2
      have within' := Ram.contains_iff.mp (visits j).2
      have := Fin.mk.inj pc
      omega
    · exact List.map_injective_iff.mpr (fun _ _ => UInt8.toFin_inj.mp) (Subtype.mk.inj values)
  obtain ⟨i, j, distinct, same⟩ := Fintype.exists_ne_map_eq_of_card_lt state fewer
  rcases Fin.lt_or_lt_of_ne distinct with less | more
  · exact settle less same
  · exact settle more same.symm

theorem passes_of_stateCount (runs : machine.status = .running)
    (inside : machine.ram.contains machine.registers.pc = true)
    (passes : ∀ k < machine.stateCount, (next^[k] machine).Passes) (k : Nat) :
    (next^[k] machine).Passes := by
  obtain ⟨i, j, before, still, same⟩ := exists_samePlace_of_passes runs inside passes
  exact passes_of_samePlace (ready_of_contains runs inside) before still same k

theorem lt_stateCount_of_stops (runs : machine.status = .running)
    (inside : machine.ram.contains machine.registers.pc = true) {k : Nat} {reason : StopReason}
    (passes : ∀ i < k, (next^[i] machine).Passes) (stops : (next^[k] machine).Stops reason) :
    k < machine.stateCount := by
  by_contra long
  have all := passes_of_stateCount runs inside (fun i early => passes i (by omega)) k
  rw [Passes, stops] at all
  cases all

/-! ### Loaded images -/

/-- A loaded machine has as many states as any other machine of its sizes. -/
theorem stateCount_load (machine : Machine) (image : List UInt8) :
    (machine.load image).stateCount = machine.stateCount := by
  rw [stateCount, stateCount, ram_load, Ram.size_load, count_load]

/-- **Whether a machine stops** that has loaded an image. If it runs behind two different numbers of
steps with the same values in its registers at the same program counter, then none of its steps ever
gives a reason to stop. So if any run of it stops, then within as many steps as there are states of
program counter and registers, and a run without a limit stops there too. And if that many steps
give no reason to stop, no step and no run ever does. -/
theorem stops_within_stateCount (machine : Machine) (image : List UInt8)
    (positive : 0 < machine.ram.size) :
    let loaded := machine.load image
    let behind (steps : Nat) := loaded.session (List.replicate steps .step)
    let states := machine.ram.size * Nat.pow 256 machine.registers.count
    (∀ i j, i < j → (behind i).1.status = .running → (behind j).1.status = .running →
      (behind i).1.registers.pc = (behind j).1.registers.pc →
      (behind i).1.registers.values = (behind j).1.registers.values →
        ∀ steps, ∀ reply ∈ (behind steps).2, reply.answer = .reason none) ∧
    (∀ limit transition, loaded.runFor limit = .ok transition → transition.reason? ≠ none →
      loaded.runFor states = .ok transition ∧ loaded.run = .ok transition) ∧
    ((∀ reply ∈ (behind states).2, reply.answer = .reason none) →
      (∀ steps, ∀ reply ∈ (behind steps).2, reply.answer = .reason none) ∧
      ∀ limit, ∃ transition, loaded.runFor limit = .ok transition ∧ transition.reason? = none) := by
  intro loaded behind states
  have count : loaded.stateCount = states := machine.stateCount_load image
  have runs : loaded.status = .running := rfl
  have ready : loaded.Ready := machine.ready_load image
  have inside : loaded.ram.contains loaded.registers.pc = true := by
    refine Ram.contains_iff.mpr ⟨Int.le_refl 0, ?_⟩
    rw [machine.ram_load image, Ram.size_load]
    exact Int.natCast_pos.mpr positive
  have forever (passes : ∀ k < states, (next^[k] loaded).Passes) : ∀ k, (next^[k] loaded).Passes :=
    passes_of_stateCount runs inside (count.symm ▸ passes)
  refine ⟨?_, ?_, fun passes => ?_⟩
  · intro i j before one other pc values steps
    simp only [behind, session_replicate_step] at one other pc values
    have same := samePlace_iterate_next one other pc values
    exact forall_replies_iff.mpr fun k _ => passes_of_samePlace ready before other same k
  · intro limit transition made stopped
    rcases ready.passes_or_stops states with passes | ⟨k, within, reason, passes, stops⟩
    · rw [runFor_of_passes fun k _ => forever passes k] at made
      cases made
      exact absurd rfl stopped
    · have further : k < loaded.stateCount + 1 := by omega
      exact ⟨runFor_of_reason passes stops made stopped within,
        runFor_of_reason passes stops made stopped further⟩
  · have all := forever (forall_replies_iff.mp passes)
    exact ⟨fun steps => forall_replies_iff.mpr fun k _ => all k,
      fun limit => ⟨_, runFor_of_passes fun k _ => all k, rfl⟩⟩

/-- A machine that adds a quarter of a byte and jumps back is where it began after eight steps,
and never stops. -/
theorem exists_endless_addition :
    let machine := zeroed .resolved 2 6
    let loaded := machine.load [Mnemonic.add.opcode, 0, 1, 64, Mnemonic.jump.opcode, 0]
    let behind (steps : Nat) := loaded.session (List.replicate steps .step)
    0 < machine.ram.size ∧ (behind 8).1.registers.values = (behind 0).1.registers.values ∧
      ∀ steps, ∀ reply ∈ (behind steps).2, reply.answer = .reason none := by
  intro machine loaded behind
  refine ⟨by decide, by decide, ?_⟩
  exact (stops_within_stateCount machine _ (by decide)).1 0 8 (by decide) (by decide) (by decide)
    (by decide) (by decide)

end ByteMachine.Machine
