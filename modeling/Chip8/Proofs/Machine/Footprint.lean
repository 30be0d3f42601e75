import Chip8.Proofs.Effect.Frame
import Chip8.Proofs.Machine.Failure

/-! The footprint of a cycle that succeeds: what it can have changed, part by part, by the instruction
that it executed. -/
namespace Chip8

theorem Core.toNat_countDown (timer : UInt8) : (countDown timer).toNat = timer.toNat - 1 := by
  rw [countDown]
  by_cases h : timer = 0
  · rw [if_pos h, h]
    rfl
  · have hp : timer.toNat ≠ 0 := fun he => h (UInt8.toNat_inj.mp he)
    have hl := timer.toNat_lt
    rw [if_neg h, UInt8.toNat_sub]
    simp
    omega

theorem alignUp_eq (a : UInt16) : alignUp a = if a % 2 = 0 then a else a + 1 := by
  have hm : a.toNat % 2 = 0 ∨ a.toNat % 2 = 1 := Nat.mod_two_eq_zero_or_one _
  have hr : (a % 2).toNat = a.toNat % 2 := by simp
  rw [alignUp]
  rcases hm with h | h
  · have hz : a % 2 = 0 := UInt16.toNat_inj.mp (by rw [hr, h]; rfl)
    rw [if_pos hz, hz, UInt16.add_zero]
  · have ho : a % 2 = 1 := UInt16.toNat_inj.mp (by rw [hr, h]; rfl)
    rw [ho, if_neg (by decide)]

theorem toNat_jumpOffset (w : Word) (b : UInt8) : (w.nnn + b.toUInt16).toNat = w.nnn.toNat + b.toNat := by
  have hw := w.nnn_lt
  have hb := b.toNat_lt
  rw [UInt16.toNat_add, UInt8.toNat_toUInt16]
  omega

private theorem add_two_ne_add_four (pc : UInt16) : pc + 2 ≠ pc + 4 := by
  intro h
  have he := congrArg UInt16.toNat h
  rw [UInt16.toNat_add, UInt16.toNat_add] at he
  simp at he
  omega

namespace Machine
variable {m t : Machine} {i : Instruction} {after : Core} {flow : Flow}

/-- The machine `t` differs from `m` in nothing but what a cycle that executes `i` may change. -/
structure Footprint (m : Machine) (i : Instruction) (t : Machine) : Prop where
  setup : t.setup = m.setup
  memory : i.operation ≠ .storeBlock → t.core.memory = m.core.memory
  bytes : i.operation = .storeBlock →
    ∀ a, a < m.core.index.toNat ∨ m.core.index.toNat + i.word.x < a →
      t.core.memory.readByte a = m.core.memory.readByte a
  screen : i.operation ≠ .clearScreen → i.operation ≠ .draw → t.core.screen = m.core.screen
  calls : i.operation ≠ .call → i.operation ≠ .leave → t.core.calls = m.core.calls
  index : i.operation ≠ .setIndex → i.operation ≠ .addIndex → t.core.index = m.core.index
  delay : i.operation ≠ .setDelay → t.core.delay.toNat = m.core.delay.toNat - 1
  setDelay : i.operation = .setDelay →
    t.core.delay.toNat = (m.core.registers.get i.word.x).toNat - 1
  sound : i.operation ≠ .setSound → t.core.sound.toNat = m.core.sound.toNat - 1
  setSound : i.operation = .setSound →
    t.core.sound.toNat = (m.core.registers.get i.word.x).toNat - 1
  registers (r : Fin registerCount) :
    t.core.registers.get r ≠ m.core.registers.get r → i.MayChange r
  tape : t.tape = if i.operation = .random then m.tape.advance else m.tape
  drawing : t.core.drawing = true ↔ i.operation = .draw
  -- a jump can land anywhere, also behind the next instruction
  skip : i.operation.jumps = false → (t.core.pc = m.core.pc + 4 ↔ i.Skips m.core)
  next : i.operation.jumps = false → ¬ i.Skips m.core → t.core.pc = m.core.pc + 2
  jump : i.operation = .jump →
    t.core.pc = if i.word.nnn % 2 = 0 then i.word.nnn else i.word.nnn + 1
  call : i.operation = .call → t.core.pc = i.word.nnn
  jumpOffset : i.operation = .jumpOffset →
    t.core.pc.toNat = i.word.nnn.toNat + (m.core.registers.get Registers.first).toNat
  leave : i.operation = .leave → m.core.calls.frames = t.core.pc :: t.core.calls.frames

private theorem footprint_of_performs (hc : m.core.memory.Coherent)
    (h : i.Performs { m.core with drawing := false } after flow) :
    m.Footprint i
      { m with core := { after with pc := flow.target m.core.pc }.tick, tape := m.tapeAfter i } where
  setup := rfl
  memory ho := h.memory ho
  bytes _ _ ha := h.readByte_of_outside hc ha
  screen hclear hdraw := h.screen hclear hdraw
  calls hcall hleave := h.calls hcall hleave
  index hset hadd := h.index_eq hset hadd
  delay ho := by
    rw [← h.delay_eq ho]
    exact Core.toNat_countDown _
  setDelay ho := by
    rw [← h.delay_of_set ho]
    exact Core.toNat_countDown _
  sound ho := by
    rw [← h.sound_eq ho]
    exact Core.toNat_countDown _
  setSound ho := by
    rw [← h.sound_of_set ho]
    exact Core.toNat_countDown _
  registers _ hr := Classical.byContradiction fun hn => hr (h.register_eq hn)
  tape := by
    by_cases ho : i.operation = .random
    · rw [if_pos ho, tapeAfter, if_pos ho]
    · rw [if_neg ho, tapeAfter, if_neg ho]
  drawing := by
    by_cases ho : i.operation = .draw
    · exact iff_of_true (h.drawing_of_draw ho) ho
    · have hn : after.drawing = false := h.drawing_eq ho
      exact iff_of_false (fun hd => Bool.false_ne_true (hn.symm.trans hd)) ho
  skip hj := by
    rcases h.flow_of_not_jumps hj with ⟨hs, rfl⟩ | ⟨hs, rfl⟩
    · exact iff_of_true rfl hs
    · exact iff_of_false (add_two_ne_add_four _) hs
  next hj hn := by
    rcases h.flow_of_not_jumps hj with ⟨hs, _⟩ | ⟨_, rfl⟩
    · exact absurd hs hn
    · rfl
  jump ho := by
    rw [h.flow_of_jump ho, ← alignUp_eq]
    rfl
  call ho := by
    rw [h.flow_of_call ho]
    rfl
  jumpOffset ho := by
    rw [h.flow_of_jumpOffset ho]
    exact toNat_jumpOffset _ _
  leave ho := by
    rcases h.calls_cases with ⟨_, hn, _⟩ | ⟨hc, _⟩ | ⟨_, address, hf, rfl⟩
    · exact absurd ho hn
    · cases ho.symm.trans hc
    · exact hf

/-- A cycle that succeeds has executed the word at the program counter and changed nothing outside the
footprint of that word. -/
theorem successful_cycle_footprint (hm : m.Reachable) (hf : m.cycle.fault? = none) :
    ∃ w, m.core.memory.readWord m.core.pc.toNat = .ok w ∧ m.current = .ok (.ofWord w) ∧
      m.Footprint (.ofWord w) m.cycle.machine := by
  have hs := hm.sound.coherent
  obtain ⟨i, after, flow, hc, hp, he⟩ := cycle_performs hf
  obtain ⟨w, hw, rfl⟩ := current_ok hs hc
  rw [he]
  exact ⟨w, hw, hc, footprint_of_performs hs hp⟩

def overwriting : Machine :=
  (Command.step 1).run ((Command.loadProgram [0xA202, 0xF155]).run (.new {} ⟨fun _ => 0, 0⟩))

theorem successful_cycle_footprint_overwriting :
    overwriting.Reachable ∧ overwriting.cycle.fault? = none ∧
      ∃ w, overwriting.core.memory.readWord overwriting.core.pc.toNat = .ok w ∧
        overwriting.current = .ok (.ofWord w) ∧
        overwriting.Footprint (.ofWord w) overwriting.cycle.machine := by
  have hm : overwriting.Reachable := .after _ (.after _ (.new _ _))
  have hf : overwriting.cycle.fault? = none := by decide +kernel
  exact ⟨hm, hf, successful_cycle_footprint hm hf⟩

end Machine
end Chip8
