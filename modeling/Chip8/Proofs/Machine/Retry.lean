import Chip8.Proofs.Effect.Blocks
import Chip8.Proofs.Machine.Addresses
import Chip8.Proofs.Machine.Aftermath
import Chip8.Proofs.Machine.Locality

/-! A machine that has failed stays failed. The program counter has not moved and the bytes there are the same, so
that the same instruction is tried again, and what it had done before it failed it does again in vain. The one way
out is a store that has written over itself. -/
namespace Chip8.Machine
variable {m : Machine} {f : Fault} {i : Instruction}

/-- The next cycle executes FX55 with I no further than the second byte of the instruction itself. -/
def StoresOverItself (m : Machine) : Prop :=
  ∃ i, m.current = .ok i ∧ i.operation = .storeBlock ∧ m.core.index.toNat ≤ m.core.pc.toNat + 1

private theorem effect_pc_of_error (he : (m.effect i).2 = .error f) : (m.effect i).1.pc = m.core.pc := by
  rw [effect, Instruction.effect_rest_of_error he]

/-- An instruction that has failed does the same once more. -/
private theorem effect_retry (hm : m.core.memory.Coherent) (he : (m.effect i).2 = .error f) :
    { m with core := (m.effect i).1 }.effect i = m.effect i := by
  have hdown : { (m.effect i).1 with drawing := false } = (m.effect i).1 := by
    rw [effect, Instruction.effect_rest_of_error he]
  rw [effect, hdown]
  exact Instruction.effect_again (c := { m.core with drawing := false }) hm he

/-- An instruction that does not write over itself is still there when it has failed. -/
private theorem current_retry (hm : m.core.memory.Coherent) (hc : m.current = .ok i) (ho : ¬ m.StoresOverItself)
    (he : (m.effect i).2 = .error f) : { m with core := (m.effect i).1 }.current = .ok i := by
  have hagree : m.core.memory.AgreeOutside (· ∈ i.writes m.core) (m.effect i).1.memory := by
    refine ⟨hm, Instruction.effect_coherent hm, fun a ha => ?_⟩
    exact (Instruction.readByte_effect (c := { m.core with drawing := false }) hm ha).symm
  have hown : ∀ a ∈ Memory.span m.core.pc.toNat 2, a ∉ i.writes m.core := by
    intro a ha hw
    by_cases hs : i.operation = .storeBlock
    · rw [Instruction.writes, hs] at hw
      have hlast := Memory.mem_span_iff.mp ha
      have hfirst := Memory.mem_span_iff.mp hw
      exact ho ⟨i, hc, hs, by omega⟩
    · rw [Instruction.writes_of_ne_storeBlock hs] at hw
      cases hw
  rw [current, effect_pc_of_error he, ← hagree.fetch hown]
  exact hc

/-- The cycle after one that fails is that cycle once more, events and all. -/
theorem cycle_retry (h : m.core.Sound) (hf : m.cycle.fault? = some f) (ho : ¬ m.StoresOverItself) :
    m.cycle.machine.cycle = m.cycle := by
  rcases failure_cases h hf with ⟨hc, ht⟩ | ⟨i, hc, _, he, ht⟩
  · have hc' : { m with core.drawing := false }.current = .error f := hc
    rw [ht, cycle_of_no_fetch hc, cycle_of_no_fetch hc']
  · have hc' := current_retry h.coherent hc ho he
    have he' := congrArg Prod.snd (effect_retry h.coherent he)
    rw [ht, cycle_of_failure hc he, cycle_of_failure hc' (he'.trans he), effect_retry h.coherent he,
      effect_pc_of_error he]
    rfl

/-- The exception is real: a store that fails with I at or before the program counter has put two registers in its
own place, and they are tried next. -/
theorem current_of_stored_over (h : m.core.Sound) (hf : m.cycle.fault? = some f) (hc : m.current = .ok i)
    (ho : i.operation = .storeBlock) {high low : Fin registerCount}
    (hhigh : m.core.index.toNat + high = m.core.pc.toNat) (hlow : low = high.val + 1) :
    m.cycle.machine.current =
      .ok (.ofWord (.ofBytes (m.core.registers.get high) (m.core.registers.get low))) := by
  rcases failure_cases h hf with ⟨hn, _⟩ | ⟨i', hc', hr, he, ht⟩
  · cases hn.symm.trans hc
  cases hc.symm.trans hc'
  have hpart := (storeBlock_aftermath h ho (room_le_of_refuses hr (.inl ho))).2
  have hcoherent : (m.effect i).1.memory.Coherent := Instruction.effect_coherent h.coherent
  have hpc := pc_le_of_current h.coherent hc
  have hfirst := hpart.inside high (by rw [room]; omega)
  have hsecond := hpart.inside low (by rw [room]; omega)
  rw [hhigh] at hfirst
  rw [hlow, ← Nat.add_assoc, hhigh] at hsecond
  rw [ht, current_eq hcoherent]
  dsimp only
  rw [effect_pc_of_error he, Memory.readWord, hfirst, hsecond]
  rfl

/-- A machine that has failed fails in every further cycle, for the same reason and without any change. The same goes
for runs of any length. Only a store that can have written over itself may find another instruction in its place. -/
theorem failed_machine_stays_failed (hm : m.Reachable) (hf : m.cycle.fault? = some f)
    (ho : ¬ m.StoresOverItself) :
    m.cycle.machine.cycle.fault? = some f ∧ m.cycle.machine.cycle.machine = m.cycle.machine ∧
      ∀ n, 1 ≤ n → m.cycle.machine.run n = ⟨m.cycle.machine, some f, m.cycle.log⟩ := by
  have hcycle := cycle_retry hm.sound hf ho
  have hfault : m.cycle.machine.cycle.fault? = some f := by rw [hcycle, hf]
  refine ⟨hfault, by rw [hcycle], fun n hn => ?_⟩
  obtain ⟨k, rfl⟩ : ∃ k, n = k + 1 := ⟨n - 1, (Nat.sub_add_cancel hn).symm⟩
  rw [run_succ_of_fault hfault, hcycle, ← hf]

def overreach : Machine :=
  (Command.step 1).run ((Command.write (.byte 0xFFE 7)).run
    ((Command.loadProgram [0xAFFE, 0xF165]).run (.new { base := 0 } ⟨fun _ => 0, 0⟩)))

theorem failed_machine_stays_failed_overreach :
    overreach.Reachable ∧ overreach.cycle.fault? = some (.outOfRange 0xFFF) ∧ ¬ overreach.StoresOverItself ∧
      overreach.cycle.machine.core.registers.get 0 = 7 ∧
      overreach.cycle.machine.run 3 = ⟨overreach.cycle.machine, some (.outOfRange 0xFFF), overreach.cycle.log⟩ := by
  have hm : overreach.Reachable := .after _ (.after _ (.after _ (.new _ _)))
  have hf : overreach.cycle.fault? = some (.outOfRange 0xFFF) := by decide +kernel
  have hc : overreach.current = .ok (.ofWord 0xF165) := current_of_toOption (by decide +kernel)
  have ho : ¬ overreach.StoresOverItself := by
    rintro ⟨i, hi, hs, _⟩
    cases hc.symm.trans hi
    revert hs
    decide
  exact ⟨hm, hf, ho, by decide +kernel, (failed_machine_stays_failed hm hf ho).2.2 3 (by decide)⟩

end Chip8.Machine
