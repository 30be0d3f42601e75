import Chip8.Proofs.Machine.Footprint

/-! Addresses of code stay in range. A cycle that fetches an instruction has its program counter in memory, so
that the address after a call is small and the return that takes it off the stack goes back into range; only
from outside can the program counter be set to anything else, and then nothing is fetched. -/
namespace Chip8

def CallStack.InRange (s : CallStack) : Prop := ∀ address ∈ s.frames, 2 ≤ address.toNat ∧ address.toNat ≤ 0xFFF

/-- Addresses whose sum fits into 16 bits add up without wrapping. -/
private theorem toNat_add_of_fit {a b : UInt16} (h : a.toNat + b.toNat ≤ 0xFFFF) :
    (a + b).toNat = a.toNat + b.toNat := by
  rw [UInt16.toNat_add]
  exact Nat.mod_eq_of_lt (Nat.lt_succ_of_le h)

private theorem toNat_add_two {pc : UInt16} (h : pc.toNat ≤ 0xFFD) : (pc + 2).toNat = pc.toNat + 2 :=
  toNat_add_of_fit (Nat.le_trans (Nat.add_le_add_right h 2) (by decide))

private theorem toNat_add_four {pc : UInt16} (h : pc.toNat ≤ 0xFFD) : (pc + 4).toNat = pc.toNat + 4 :=
  toNat_add_of_fit (Nat.le_trans (Nat.add_le_add_right h 4) (by decide))

private theorem toNat_alignUp_nnn_le (w : Word) : (alignUp w.nnn).toNat ≤ w.nnn.toNat + 1 := by
  have hw := w.nnn_lt
  rw [alignUp_eq]
  split
  · exact Nat.le_succ _
  · exact Nat.le_of_eq (toNat_add_of_fit (Nat.le_trans hw (by decide)))

namespace Instruction
variable {setup : Setup} {random : UInt8} {i : Instruction} {c after : Core} {flow : Flow} {a : UInt16}

/-- The only address that an effect adds to those of the open calls is the one behind the instruction. -/
theorem mem_calls_of_effect (h : a ∈ (i.effect setup random c).1.calls.frames) :
    a = c.pc + 2 ∨ a ∈ c.calls.frames := by
  cases ho : i.operation <;> simp only [effect, perform, ho, RandomTape.run_pure] at h
  case leave =>
    unfold CallStack.pop at h
    cases hf : c.calls.frames with
    | nil =>
      simp only [hf, RandomTape.run_pure] at h
      exact .inr h
    | cons address rest =>
      simp only [hf] at h
      exact .inr (List.mem_cons_of_mem _ h)
  case call =>
    unfold CallStack.push at h
    by_cases hd : c.calls.frames.length < callDepth
    · simp only [if_pos hd] at h
      exact List.mem_cons.mp h
    · simp only [if_neg hd] at h
      exact .inr h
  case draw =>
    rw [Core.drawSprite_calls] at h
    exact .inr h
  all_goals exact .inr h

/-- From an instruction in memory the program counter never goes far beyond the end of memory. -/
theorem Performs.target_le (h : i.Performs c after flow) (hp : c.pc.toNat ≤ 0xFFD) (hc : c.calls.InRange) :
    (flow.target c.pc).toNat ≤ 0x10FE := by
  have hn := i.word.nnn_lt
  cases h with
  | leave _ hf =>
    have ha := hc _ (hf ▸ List.mem_cons_self)
    exact Nat.le_trans ha.2 (by decide)
  | jump _ =>
    have ha := toNat_alignUp_nnn_le i.word
    rw [Flow.target]
    omega
  | call _ _ =>
    rw [Flow.target]
    omega
  | jumpOffset _ =>
    have hv := (c.registers.get Registers.first).toNat_lt
    rw [Flow.target, toNat_jumpOffset]
    omega
  | skip _ =>
    rw [Flow.target, toNat_add_four hp]
    omega
  | _ =>
    rw [Flow.target, toNat_add_two hp]
    omega

end Instruction

namespace Machine
variable {m : Machine} {i : Instruction}

/-- An instruction is fetched only where both of its bytes are in memory. -/
theorem pc_le_of_current (h : m.core.memory.Coherent) (hi : m.current = .ok i) : m.core.pc.toNat ≤ 0xFFD := by
  obtain ⟨w, hw, _⟩ := current_ok h hi
  apply Nat.le_of_not_lt
  intro hlt
  have he := (readWord_error_iff h).mpr ⟨hlt, rfl⟩
  cases hw.symm.trans he

theorem cycle_calls_inRange (h : m.core.memory.Coherent) (hc : m.core.calls.InRange) :
    m.cycle.machine.core.calls.InRange := by
  refine cycle_core (·.calls.InRange) hc (fun i hi a ha => ?_) fun _ _ hc => hc
  rcases Instruction.mem_calls_of_effect ha with rfl | ha
  · have hp := pc_le_of_current h hi
    rw [toNat_add_two hp]
    omega
  · exact hc a ha

theorem Reachable.calls_inRange (h : m.Reachable) : m.core.calls.InRange := by
  refine h.invariant (·.calls.InRange) ?new ?write ?setPc ?setPixel ?cycle ?reset
  case new | reset => intros; exact nofun
  case write | setPc | setPixel => intros; assumption
  case cycle => exact fun _ hm => cycle_calls_inRange hm.sound.coherent

/-- None of the sums that make up an address in a cycle that executes `i` is too large for its 16 bits, so
that the program counter goes on without wrapping. -/
structure SumsFit (m : Machine) (i : Instruction) : Prop where
  next : m.core.pc.toNat + 2 ≤ 0xFFFF
  skip : m.core.pc.toNat + 4 ≤ 0xFFFF
  aligned : i.word.nnn.toNat + 1 ≤ 0xFFFF
  offset : i.word.nnn.toNat + (m.core.registers.get Registers.first).toNat ≤ 0xFFFF
  next_target : (Flow.next.target m.core.pc).toNat = m.core.pc.toNat + 2
  skip_target : (Flow.skip.target m.core.pc).toNat = m.core.pc.toNat + 4

theorem sumsFit (h : m.core.memory.Coherent) (hi : m.current = .ok i) : m.SumsFit i := by
  have hp := pc_le_of_current h hi
  have hn := i.word.nnn_lt
  have hv := (m.core.registers.get Registers.first).toNat_lt
  exact ⟨by omega, by omega, by omega, by omega, toNat_add_two hp, toNat_add_four hp⟩

/-- In every state that a machine can get into there are no more open calls than there is room for, and each
returns to an address behind an instruction in memory. A cycle that succeeds leaves the program counter no
farther than an indirect jump can reach, and no cycle makes an address that wraps. -/
theorem addresses_in_range (hm : m.Reachable) :
    m.core.calls.frames.length ≤ callDepth ∧
    (∀ address ∈ m.core.calls.frames, 2 ≤ address.toNat ∧ address.toNat ≤ 0xFFF) ∧
    (m.cycle.fault? = none → m.cycle.machine.core.pc.toNat ≤ 0x10FE) ∧
    ∀ i, m.current = .ok i → m.SumsFit i := by
  refine ⟨hm.sound.shallow, hm.calls_inRange, ?_, fun i => sumsFit hm.sound.coherent⟩
  intro h
  obtain ⟨i, after, flow, hi, hp, he⟩ := cycle_performs h
  rw [he]
  exact hp.target_le (pc_le_of_current hm.sound.coherent hi) hm.calls_inRange

def farJump : Machine :=
  (Command.step 2).run ((Command.loadProgram [0x2202, 0x60FF, 0xBFFF]).run (.new {} ⟨fun _ => 0, 0⟩))

theorem addresses_in_range_farJump :
    farJump.Reachable ∧ farJump.core.calls.frames.length ≤ callDepth ∧ 0x202 ∈ farJump.core.calls.frames ∧
      (∀ address ∈ farJump.core.calls.frames, 2 ≤ address.toNat ∧ address.toNat ≤ 0xFFF) ∧
      farJump.cycle.fault? = none ∧ farJump.cycle.machine.core.pc.toNat ≤ 0x10FE ∧
      farJump.current = .ok (.ofWord 0xBFFF) ∧ farJump.SumsFit (.ofWord 0xBFFF) := by
  have hm : farJump.Reachable := .after _ (.after _ (.new _ _))
  have hf : farJump.cycle.fault? = none := by decide +kernel
  have hi : farJump.current = .ok (.ofWord 0xBFFF) := current_of_toOption (by decide +kernel)
  have hopen : 0x202 ∈ farJump.core.calls.frames := by decide +kernel
  obtain ⟨hdepth, hframes, hpc, hsums⟩ := addresses_in_range hm
  exact ⟨hm, hdepth, hopen, hframes, hf, hpc hf, hi, hsums _ hi⟩

end Machine
end Chip8
