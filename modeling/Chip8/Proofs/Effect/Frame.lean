import Chip8.Proofs.Effect.Blocks
import Chip8.Proofs.Effect.Performs

/-! What an instruction that succeeds leaves as it was. Each part of the core has a short list of
operations that can reach it; a byte of memory or a register has to be in reach of the operand too. -/
namespace Chip8

def Instruction.MayChange (i : Instruction) (r : Fin registerCount) : Prop :=
  (r = i.word.x ∧ i.operation.setsRegister = true) ∨ (r ≤ i.word.x ∧ i.operation = .loadBlock) ∨
    (r = Registers.flag ∧ i.operation.setsFlag = true)

private theorem Memory.length_readUpTo_le (m : Memory) (a count : Nat) : (m.readUpTo a count).1.length ≤ count := by
  induction count generalizing a with
  | zero => exact Nat.le_refl 0
  | succ count ih =>
    rw [readUpTo]
    cases m.readByte a with
    | error f => exact Nat.zero_le _
    | ok b => exact Nat.succ_le_succ (ih (a + 1))

private theorem Registers.get_set_of_ne {r : Registers} {i j : Fin registerCount} {value : UInt8} (h : j ≠ i) :
    (r.set i value).get j = r.get j := by
  rw [get_set, if_neg (Ne.symm h)]

private theorem Registers.get_overwrite_of_length_le {r : Registers} {bytes : List UInt8} {i : Fin registerCount}
    (h : bytes.length ≤ i) : (r.overwrite bytes).get i = r.get i := by
  rw [get_overwrite, List.getD_eq_getElem?_getD, List.getElem?_eq_none h, Option.getD_none]

namespace Instruction.Performs
variable {i : Instruction} {c after : Core} {flow : Flow}

theorem memory (h : i.Performs c after flow) (ho : i.operation ≠ .storeBlock) :
    after.memory = c.memory := by
  cases h with
  | store hs => exact absurd hs ho
  | _ => rfl

theorem readByte_of_outside (h : i.Performs c after flow) (hc : c.memory.Coherent) {a : Nat}
    (ha : a < c.index.toNat ∨ c.index.toNat + i.word.x < a) :
    after.memory.readByte a = c.memory.readByte a := by
  cases h with
  | store _ =>
    refine Core.readByte_storeBlock_of_outside hc fun hmem => ?_
    have hin := Memory.mem_span_iff.mp hmem
    omega
  | _ => rfl

theorem screen (h : i.Performs c after flow) (hc : i.operation ≠ .clearScreen) (hd : i.operation ≠ .draw) :
    after.screen = c.screen := by
  cases h with
  | clear ho => exact absurd ho hc
  | draw _ _ ho => exact absurd ho hd
  | _ => rfl

theorem calls (h : i.Performs c after flow) (hc : i.operation ≠ .call) (hl : i.operation ≠ .leave) :
    after.calls = c.calls := by
  cases h with
  | call ho _ => exact absurd ho hc
  | leave ho _ => exact absurd ho hl
  | _ => rfl

theorem index_eq (h : i.Performs c after flow) (hs : i.operation ≠ .setIndex) (ha : i.operation ≠ .addIndex) :
    after.index = c.index := by
  cases h with
  | index _ ho =>
    rcases ho with ho | ho
    · exact absurd ho hs
    · exact absurd ho ha
  | _ => rfl

theorem register_eq (h : i.Performs c after flow) {r : Fin registerCount} (hr : ¬ i.MayChange r) :
    after.registers.get r = c.registers.get r := by
  cases h with
  | register _ hs _ =>
    exact Registers.get_set_of_ne fun he => hr (.inl ⟨he, hs⟩)
  | flagged _ _ hs hf =>
    have hx : r ≠ i.word.x := fun he => hr (.inl ⟨he, hs⟩)
    have hflag : r ≠ Registers.flag := fun he => hr (.inr (.inr ⟨he, hf⟩))
    exact (Registers.get_set_of_ne hflag).trans (Registers.get_set_of_ne hx)
  | draw _ _ ho =>
    exact Registers.get_set_of_ne fun he => hr (.inr (.inr ⟨he, by rw [ho]; rfl⟩))
  | load ho =>
    have hx : ¬ r ≤ i.word.x := fun hle => hr (.inr (.inl ⟨hle, ho⟩))
    have hl := Memory.length_readUpTo_le c.memory c.index.toNat (i.word.x + 1)
    exact Registers.get_overwrite_of_length_le (by omega)
  | _ => rfl

theorem delay_eq (h : i.Performs c after flow) (ho : i.operation ≠ .setDelay) : after.delay = c.delay := by
  cases h with
  | delay hs => exact absurd hs ho
  | _ => rfl

theorem sound_eq (h : i.Performs c after flow) (ho : i.operation ≠ .setSound) : after.sound = c.sound := by
  cases h with
  | sound hs => exact absurd hs ho
  | _ => rfl

theorem drawing_eq (h : i.Performs c after flow) (ho : i.operation ≠ .draw) : after.drawing = c.drawing := by
  cases h with
  | draw _ _ hs => exact absurd hs ho
  | _ => rfl

/-- The rules read backwards: only one of them applies to each of these operations. -/
theorem inversion (h : i.Performs c after flow) :
    match i.operation with
    | .setDelay => after.delay = c.registers.get i.word.x
    | .setSound => after.sound = c.registers.get i.word.x
    | .draw => after.drawing = true
    | .jump => flow = .jump (alignUp i.word.nnn)
    | .jumpOffset => flow = .jump (i.word.nnn + (c.registers.get Registers.first).toUInt16)
    | .call => after.calls.frames = (c.pc + 2) :: c.calls.frames ∧ flow = .jump i.word.nnn
    | .leave => ∃ address, c.calls.frames = address :: after.calls.frames ∧ flow = .jump address
    | _ => True := by
  cases h with
  | leave ho hf => rw [ho]; exact ⟨_, hf, rfl⟩
  | call ho _ => rw [ho]; exact ⟨rfl, rfl⟩
  | idle ho | clear ho | jump ho | jumpOffset ho | delay ho | sound ho | draw _ _ ho | store ho | load ho =>
    simp only [ho]
  | index _ ho => rcases ho with ho | ho <;> simp only [ho]
  | pass ht _ => split <;> simp_all [Operation.tests]
  | skip hs => split <;> simp_all [Skips]
  | register _ hr _ | flagged _ _ hr _ => split <;> simp_all [Operation.setsRegister]

theorem delay_of_set (h : i.Performs c after flow) (ho : i.operation = .setDelay) :
    after.delay = c.registers.get i.word.x := by
  have hi := h.inversion
  rwa [ho] at hi

theorem sound_of_set (h : i.Performs c after flow) (ho : i.operation = .setSound) :
    after.sound = c.registers.get i.word.x := by
  have hi := h.inversion
  rwa [ho] at hi

theorem drawing_of_draw (h : i.Performs c after flow) (ho : i.operation = .draw) : after.drawing = true := by
  have hi := h.inversion
  rwa [ho] at hi

theorem flow_of_jump (h : i.Performs c after flow) (ho : i.operation = .jump) :
    flow = .jump (alignUp i.word.nnn) := by
  have hi := h.inversion
  rwa [ho] at hi

theorem flow_of_jumpOffset (h : i.Performs c after flow) (ho : i.operation = .jumpOffset) :
    flow = .jump (i.word.nnn + (c.registers.get Registers.first).toUInt16) := by
  have hi := h.inversion
  rwa [ho] at hi

theorem flow_of_call (h : i.Performs c after flow) (ho : i.operation = .call) : flow = .jump i.word.nnn := by
  have hi := h.inversion
  rw [ho] at hi
  exact hi.2

/-- A call puts the address after it on the stack, a return goes to the address that it takes off. -/
theorem calls_cases (h : i.Performs c after flow) :
    (i.operation ≠ .call ∧ i.operation ≠ .leave ∧ after.calls = c.calls) ∨
    (i.operation = .call ∧ after.calls.frames = (c.pc + 2) :: c.calls.frames ∧
      flow = .jump i.word.nnn) ∨
    (i.operation = .leave ∧ ∃ address, c.calls.frames = address :: after.calls.frames ∧
      flow = .jump address) := by
  have hi := h.inversion
  by_cases hc : i.operation = .call
  · rw [hc] at hi
    exact .inr (.inl ⟨hc, hi⟩)
  · by_cases hl : i.operation = .leave
    · rw [hl] at hi
      exact .inr (.inr ⟨hl, hi⟩)
    · exact .inl ⟨hc, hl, h.calls hc hl⟩

theorem flow_of_not_jumps (h : i.Performs c after flow) (hj : i.operation.jumps = false) :
    (i.Skips c ∧ flow = .skip) ∨ (¬ i.Skips c ∧ flow = .next) := by
  cases h with
  | skip hs => exact .inl ⟨hs, rfl⟩
  | pass _ hs => exact .inr ⟨hs, rfl⟩
  | leave ho _ | jump ho | call ho _ | jumpOffset ho => rw [ho] at hj; cases hj
  | register _ hr _ | flagged _ _ hr _ => exact .inr ⟨not_skips (Operation.tests_of_setsRegister hr), rfl⟩
  | index _ ho => exact .inr ⟨not_skips (by rcases ho with ho | ho <;> rw [ho] <;> rfl), rfl⟩
  | idle ho | clear ho | delay ho | sound ho | draw _ _ ho | store ho | load ho =>
    exact .inr ⟨not_skips (by rw [ho]; rfl), rfl⟩

end Instruction.Performs
end Chip8
