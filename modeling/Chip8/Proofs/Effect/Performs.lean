import Chip8.Proofs.Effect

/-! What an instruction that succeeds does, one rule for each way to succeed. Operations that differ in
nothing but the value they compute share a rule. -/
namespace Chip8

namespace Operation

def setsRegister : Operation → Bool
  | setByte | addByte | copy | bitOr | bitAnd | bitXor | add | subtract | shiftRight | subtractFrom | shiftLeft
  | random | readDelay => true
  | _ => false

def setsFlag : Operation → Bool
  | add | subtract | shiftRight | subtractFrom | shiftLeft | draw => true
  | _ => false

def jumps : Operation → Bool
  | leave | jump | call | jumpOffset => true
  | _ => false

def tests : Operation → Bool
  | skipIfByte | skipUnlessByte | skipIfSame | skipUnlessSame => true
  | _ => false

theorem tests_of_setsRegister {o : Operation} (h : o.setsRegister = true) : o.tests = false := by
  cases o <;> simp_all [setsRegister, tests]

end Operation

namespace Instruction
variable {setup : Setup} {random : UInt8} {i : Instruction} {c after : Core} {flow : Flow}

def Skips (i : Instruction) (c : Core) : Prop :=
  match i.operation with
  | .skipIfByte => c.registers.get i.word.x = i.word.kk
  | .skipUnlessByte => c.registers.get i.word.x ≠ i.word.kk
  | .skipIfSame => c.registers.get i.word.x = c.registers.get i.word.y
  | .skipUnlessSame => c.registers.get i.word.x ≠ c.registers.get i.word.y
  | _ => False

theorem Skips.tests (h : i.Skips c) : i.operation.tests = true := by
  unfold Skips at h
  cases ho : i.operation <;> simp only [ho] at h
  all_goals rfl

theorem not_skips (h : i.operation.tests = false) : ¬ i.Skips c := by
  intro hs
  rw [hs.tests] at h
  cases h

/-- The instruction takes a core to another one and then sends the program counter on its way. -/
inductive Performs (i : Instruction) (c : Core) : Core → Flow → Prop
  | idle : i.operation = .hostCall → i.Performs c c .next
  | pass : i.operation.tests = true → ¬ i.Skips c → i.Performs c c .next
  | skip : i.Skips c → i.Performs c c .skip
  | clear : i.operation = .clearScreen → i.Performs c { c with screen := .dark } .next
  | leave {address : UInt16} {rest : List UInt16} : i.operation = .leave →
      c.calls.frames = address :: rest → i.Performs c { c with calls := ⟨rest⟩ } (.jump address)
  | jump : i.operation = .jump → i.Performs c c (.jump (alignUp i.word.nnn))
  | call : i.operation = .call → c.calls.frames.length < callDepth →
      i.Performs c { c with calls := ⟨(c.pc + 2) :: c.calls.frames⟩ } (.jump i.word.nnn)
  | jumpOffset : i.operation = .jumpOffset →
      i.Performs c c (.jump (i.word.nnn + (c.registers.get Registers.first).toUInt16))
  | register (value : UInt8) : i.operation.setsRegister = true → i.operation.setsFlag = false →
      i.Performs c (c.setRegister i.word.x value) .next
  | flagged (value : UInt8) (flag : Bool) : i.operation.setsRegister = true → i.operation.setsFlag = true →
      i.Performs c (c.setWithFlag i.word.x value flag) .next
  | index (index : UInt16) : i.operation = .setIndex ∨ i.operation = .addIndex →
      i.Performs c { c with index } .next
  | delay : i.operation = .setDelay → i.Performs c { c with delay := c.registers.get i.word.x } .next
  | sound : i.operation = .setSound → i.Performs c { c with sound := c.registers.get i.word.x } .next
  | draw (collision : Bool) (screen : Screen) : i.operation = .draw →
      i.Performs c { c.setRegister Registers.flag collision.toUInt8 with screen, drawing := true } .next
  | store : i.operation = .storeBlock →
      i.Performs c { c with
        memory := (c.memory.writeUpTo c.index.toNat (c.registers.upTo i.word.x)).1 } .next
  | load : i.operation = .loadBlock →
      i.Performs c { c with
        registers := c.registers.overwrite (c.memory.readUpTo c.index.toNat (i.word.x + 1)).1 } .next

private theorem performs_skipIf {condition : Bool} (ht : i.operation.tests = true)
    (hc : condition = true ↔ i.Skips c) : i.Performs c c (.skipIf condition) := by
  cases condition with
  | true => exact .skip (hc.mp rfl)
  | false => exact .pass ht fun hs => Bool.noConfusion (hc.mpr hs)

private theorem performs_drawSprite {x y : UInt8} {rows : Nat} (ho : i.operation = .draw)
    (h : (c.drawSprite x y rows).2 = .ok flow) : i.Performs c (c.drawSprite x y rows).1 flow := by
  rw [Core.drawSprite] at h ⊢
  cases hr : c.memory.readRange c.index.toNat rows with
  | error f => rw [hr] at h; cases h
  | ok bytes =>
    rw [hr] at h
    cases h
    exact .draw _ _ ho

private theorem performs_of_nextUnless {f? : Option Fault} (h : nextUnless f? = .ok flow) : flow = .next := by
  cases f? with
  | none => cases h; rfl
  | some f => cases h

/-- An effect that does not fail follows one of the rules. -/
theorem performs_of_effect (h : (i.effect setup random c).2 = .ok flow) :
    i.Performs c (i.effect setup random c).1 flow := by
  cases ho : i.operation <;> simp only [effect, perform, ho, RandomTape.run_pure] at h ⊢
  case hostCall => cases h; exact .idle ho
  case clearScreen => cases h; exact .clear ho
  case leave =>
    cases hf : c.calls.frames with
    | nil =>
      simp only [CallStack.pop, hf] at h
      cases h
    | cons address rest =>
      simp only [CallStack.pop, hf] at h ⊢
      cases h
      exact .leave ho hf
  case jump => cases h; exact .jump ho
  case call =>
    by_cases hd : c.calls.frames.length < callDepth
    · simp only [CallStack.push, if_pos hd] at h ⊢
      cases h
      exact .call ho hd
    · simp only [CallStack.push, if_neg hd] at h
      cases h
  case skipIfByte | skipUnlessByte | skipIfSame | skipUnlessSame =>
    cases h
    exact performs_skipIf (by rw [ho]; rfl) (by simp [Skips, ho])
  case setByte | addByte | copy | bitOr | bitAnd | bitXor | random | readDelay =>
    cases h
    exact .register _ (by rw [ho]; rfl) (by rw [ho]; rfl)
  case add | subtract | subtractFrom | shiftRight | shiftLeft =>
    cases h
    exact .flagged _ _ (by rw [ho]; rfl) (by rw [ho]; rfl)
  case setIndex => cases h; exact .index _ (.inl ho)
  case addIndex => cases h; exact .index _ (.inr ho)
  case jumpOffset => cases h; exact .jumpOffset ho
  case setDelay => cases h; exact .delay ho
  case setSound => cases h; exact .sound ho
  case draw => exact performs_drawSprite ho h
  case storeBlock =>
    cases performs_of_nextUnless h
    exact .store ho
  case loadBlock =>
    cases performs_of_nextUnless h
    exact .load ho
  all_goals cases h

end Instruction
end Chip8
