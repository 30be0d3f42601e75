import Chip8.Effect
import Chip8.Proofs.Memory.Coherence
import Chip8.Proofs.Operation.Decode
import Chip8.Proofs.Screen.Sprite

/-! What the effect of an instruction depends on and what it can reach. Three operations look at
memory, one of them changes it; two touch the open calls; a failure has one of a few causes. -/
namespace Chip8

theorem CallStack.pop_error_iff {s : CallStack} {f : Fault} :
    s.pop = .error f ↔ s.frames = [] ∧ f = .noCaller := by
  rw [pop]
  cases s.frames with
  | nil => simp [eq_comm]
  | cons address rest => simp

theorem CallStack.push_error_iff {s : CallStack} {address : UInt16} {f : Fault} :
    s.push address = .error f ↔ callDepth ≤ s.frames.length ∧ f = .callsTooDeep := by
  rw [push]
  by_cases h : s.frames.length < callDepth
  · rw [if_pos h]
    simp
    omega
  · rw [if_neg h]
    simp [Nat.le_of_not_lt h, eq_comm]

private theorem Bytes.shortage_eq_some_iff {a count : Nat} {f : Fault} : shortage a count = some f ↔
    0 < count ∧ Memory.size < a + count ∧ f = .outOfRange (max a Memory.size) := by
  rw [shortage]
  by_cases h : count = 0 ∨ a + count ≤ Memory.size
  · rw [if_pos h]
    constructor
    · intro hs
      cases hs
    · rintro ⟨hz, hl, _⟩
      omega
  · rw [if_neg h]
    constructor
    · intro hs
      exact ⟨by omega, by omega, (Option.some.inj hs).symm⟩
    · rintro ⟨_, _, rfl⟩
      rfl

private theorem Bytes.readRange_error_iff {b : Bytes} {a count : Nat} {f : Fault} : b.readRange a count = .error f ↔
    0 < count ∧ Memory.size < a + count ∧ f = .outOfRange (max a Memory.size) := by
  rw [← shortage_eq_some_iff, readRange, shortage]
  split <;> simp

private theorem nextUnless_error_iff {o : Option Fault} {f : Fault} : nextUnless o = .error f ↔ o = some f := by
  cases o <;> simp [nextUnless]

theorem Registers.length_upTo (r : Registers) (x : Fin registerCount) : (r.upTo x).length = x + 1 := by
  rw [upTo, List.length_take, Vector.length_toList]
  exact Nat.min_eq_left x.isLt

theorem Registers.getElem_upTo (r : Registers) (x : Fin registerCount) (j : Nat) (h : j < (r.upTo x).length)
    (hj : j < registerCount) : (r.upTo x)[j] = r.get ⟨j, hj⟩ := by
  simp [upTo, get]

def Operation.usesMemory : Operation → Bool
  | draw | storeBlock | loadBlock => true
  | _ => false

theorem Operation.usesMemory_iff {o : Operation} :
    o.usesMemory = true ↔ o = .draw ∨ o = .storeBlock ∨ o = .loadBlock := by
  cases o <;> simp [usesMemory]

namespace Core
variable {c : Core}

theorem storeBlock_spec (h : c.memory.Coherent) (x : Fin registerCount) :
    ∃ memory, c.storeBlock x =
        ({ c with memory }, nextUnless (Bytes.shortage c.index.toNat (x + 1))) ∧
      memory.Coherent ∧ memory.bytes = c.memory.bytes.overlay c.index.toNat (c.registers.upTo x) := by
  obtain ⟨hc, hb, hf⟩ := Memory.writeUpTo_spec (a := c.index.toNat) h (c.registers.upTo x)
  refine ⟨_, ?_, hc, hb⟩
  rw [storeBlock, hf, Registers.length_upTo]

private theorem drawSprite_memory (x y : UInt8) (rows : Nat) : (c.drawSprite x y rows).1.memory = c.memory := by
  rw [drawSprite]
  split <;> rfl

private theorem loadBlock_memory (x : Fin registerCount) : (c.loadBlock x).1.memory = c.memory := by
  simp only [loadBlock]

theorem drawSprite_calls (x y : UInt8) (rows : Nat) : (c.drawSprite x y rows).1.calls = c.calls := by
  rw [drawSprite]
  split <;> rfl

theorem drawSprite_binary (h : c.screen.Binary) (x y : UInt8) (rows : Nat) :
    (c.drawSprite x y rows).1.screen.Binary := by
  rw [drawSprite]
  split
  · exact h
  · exact Screen.Drawing.binary_rows _ _ h _

theorem loadBlock_eq (h : c.memory.Coherent) (x : Fin registerCount) :
    c.loadBlock x =
      ({ c with registers :=
          c.registers.overwrite ((c.memory.bytes.toList.drop c.index.toNat).take (x + 1)) },
        nextUnless (Bytes.shortage c.index.toNat (x + 1))) := by
  rw [loadBlock, Memory.readUpTo_eq h]

end Core

theorem RandomTape.run_pure {α : Type} (a : α) (tape : RandomTape) :
    (pure a : StateM RandomTape α).run tape = (a, tape) := rfl

/-- What everything that happens to a core preserves. -/
structure Core.Sound (c : Core) : Prop where
  coherent : c.memory.Coherent
  shallow : c.calls.frames.length ≤ callDepth
  binary : c.screen.Binary

namespace Instruction
variable {setup : Setup} {random : UInt8} {i : Instruction} {c : Core} {f : Fault}

/-- What an instruction does if `random` is the next byte on the tape. -/
def effect (setup : Setup) (random : UInt8) (i : Instruction) (c : Core) : Core × Except Fault Flow :=
  ((i.perform setup c).run ⟨fun _ => random, 0⟩).1

/-- The tape counts for CXKK alone, which takes its first byte. -/
theorem perform_eq (tape : RandomTape) : (i.perform setup c).run tape =
    (i.effect setup tape.head c, if i.operation = .random then tape.advance else tape) := by
  unfold effect perform
  cases i.operation
  case leave => cases c.calls.pop <;> rfl
  case call => cases c.calls.push (c.pc + 2) <;> rfl
  all_goals rfl

theorem effect_random (ho : i.operation = .random) :
    i.effect setup random c = (c.setRegister i.word.x (random &&& i.word.kk), .ok .next) := by
  simp only [effect, perform, ho]
  rfl

theorem effect_jump (ho : i.operation = .jump) :
    i.effect setup random c = (c, .ok (.jump (alignUp i.word.nnn))) := by
  simp only [effect, perform, ho, RandomTape.run_pure]

theorem effect_call {calls : CallStack} (ho : i.operation = .call) (hp : c.calls.push (c.pc + 2) = .ok calls) :
    i.effect setup random c = ({ c with calls }, .ok (.jump i.word.nnn)) := by
  simp only [effect, perform, ho, hp, RandomTape.run_pure]

theorem effect_add (ho : i.operation = .add) : i.effect setup random c =
    (c.setWithFlag i.word.x (c.registers.get i.word.x + c.registers.get i.word.y)
      (setup.carry (c.registers.get i.word.x) (c.registers.get i.word.y)), .ok .next) := by
  simp only [effect, perform, ho, RandomTape.run_pure]

theorem effect_readDelay (ho : i.operation = .readDelay) :
    i.effect setup random c = (c.setRegister i.word.x c.delay, .ok .next) := by
  simp only [effect, perform, ho, RandomTape.run_pure]

/-- Of the setup and of the random byte an effect sees only the carry and the bits under the mask. -/
theorem effect_congr {setup' : Setup} {random' : UInt8}
    (hadd : i.operation = .add → setup.carry (c.registers.get i.word.x) (c.registers.get i.word.y) =
      setup'.carry (c.registers.get i.word.x) (c.registers.get i.word.y))
    (hrandom : i.operation = .random → random &&& i.word.kk = random' &&& i.word.kk) :
    i.effect setup random c = i.effect setup' random' c := by
  by_cases hr : i.operation = .random
  · rw [effect_random hr, effect_random hr, hrandom hr]
  by_cases ha : i.operation = .add
  · rw [effect_add ha, effect_add ha, hadd ha]
  unfold effect perform
  cases ho : i.operation
  case add => exact absurd ho ha
  case random => exact absurd ho hr
  case leave => cases c.calls.pop <;> rfl
  case call => cases c.calls.push (c.pc + 2) <;> rfl
  all_goals rfl

/-- Apart from three operations an effect neither sees nor changes memory. -/
theorem effect_memory (hi : i.operation.usesMemory = false) (memory : Memory) :
    i.effect setup random { c with memory } =
      ({ (i.effect setup random c).1 with memory }, (i.effect setup random c).2) := by
  unfold effect perform
  cases ho : i.operation
  case leave => cases c.calls.pop <;> rfl
  case call => cases c.calls.push (c.pc + 2) <;> rfl
  case draw | storeBlock | loadBlock => simp [ho, Operation.usesMemory] at hi
  all_goals rfl

private theorem effect_keeps_memory (hi : i.operation.usesMemory = false) :
    (i.effect setup random c).1.memory = c.memory :=
  congrArg (fun r => r.1.memory) (effect_memory (c := c) hi c.memory)

theorem effect_draw (ho : i.operation = .draw) : i.effect setup random c =
    c.drawSprite (c.registers.get i.word.x) (c.registers.get i.word.y) i.word.n := by
  simp only [effect, perform, ho, RandomTape.run_pure]

theorem effect_storeBlock (ho : i.operation = .storeBlock) :
    i.effect setup random c = c.storeBlock i.word.x := by
  simp only [effect, perform, ho, RandomTape.run_pure]

theorem effect_loadBlock (ho : i.operation = .loadBlock) :
    i.effect setup random c = c.loadBlock i.word.x := by
  simp only [effect, perform, ho, RandomTape.run_pure]

theorem effect_keeps_memory_of_ne_storeBlock (ho : i.operation ≠ .storeBlock) :
    (i.effect setup random c).1.memory = c.memory := by
  cases hu : i.operation.usesMemory with
  | false => exact effect_keeps_memory hu
  | true =>
    rcases Operation.usesMemory_iff.mp hu with hd | hs | hl
    · rw [effect_draw hd, Core.drawSprite_memory]
    · exact absurd hs ho
    · rw [effect_loadBlock hl, Core.loadBlock_memory]

theorem effect_coherent (hc : c.memory.Coherent) : (i.effect setup random c).1.memory.Coherent := by
  by_cases ho : i.operation = .storeBlock
  · obtain ⟨memory, he, hm, _⟩ := Core.storeBlock_spec hc i.word.x
    rw [effect_storeBlock ho, he]
    exact hm
  · rw [effect_keeps_memory_of_ne_storeBlock ho]
    exact hc

/-- An instruction cannot be executed, and why. -/
inductive Refuses (i : Instruction) (c : Core) : Fault → Prop
  | unknown : i.operation.isUnknown → i.Refuses c (.unknownOperation i.word)
  | unimplemented : i.operation ∈ [.skipIfKey, .skipUnlessKey, .waitKey, .pointGlyph, .storeDecimal] →
      i.Refuses c (.unimplemented i)
  | noCaller : i.operation = .leave → c.calls.frames = [] → i.Refuses c .noCaller
  | callsTooDeep : i.operation = .call → c.calls.frames.length = callDepth → i.Refuses c .callsTooDeep
  | sprite : i.operation = .draw → 0 < i.word.n → Memory.size < c.index.toNat + i.word.n →
      i.Refuses c (.outOfRange (max c.index.toNat Memory.size))
  | block : i.operation = .storeBlock ∨ i.operation = .loadBlock →
      Memory.size < c.index.toNat + i.word.x + 1 →
      i.Refuses c (.outOfRange (max c.index.toNat Memory.size))

/-- Only the open calls and the index register matter to a refusal. -/
theorem Refuses.congr {d : Core} (h : i.Refuses c f) (hcalls : c.calls = d.calls)
    (hindex : c.index = d.index) : i.Refuses d f := by
  cases h with
  | unknown hu => exact .unknown hu
  | unimplemented hu => exact .unimplemented hu
  | noCaller ho he => exact .noCaller ho (hcalls ▸ he)
  | callsTooDeep ho he => exact .callsTooDeep ho (hcalls ▸ he)
  | sprite ho hn hs =>
    rw [hindex] at hs ⊢
    exact .sprite ho hn hs
  | block ho hs =>
    rw [hindex] at hs ⊢
    exact .block ho hs

theorem refuses_of_effect (hc : c.Sound) (hi : i.operation = .decode i.word)
    (h : (i.effect setup random c).2 = .error f) : i.Refuses c f := by
  cases ho : i.operation <;> simp only [effect, perform, ho, RandomTape.run_pure] at h
  case leave =>
    cases hp : c.calls.pop with
    | error g =>
      rw [hp] at h
      cases h
      obtain ⟨he, rfl⟩ := CallStack.pop_error_iff.mp hp
      exact .noCaller ho he
    | ok r => rw [hp] at h; cases h
  case call =>
    cases hp : c.calls.push (c.pc + 2) with
    | error g =>
      rw [hp] at h
      cases h
      obtain ⟨he, rfl⟩ := CallStack.push_error_iff.mp hp
      exact .callsTooDeep ho (Nat.le_antisymm hc.shallow he)
    | ok r => rw [hp] at h; cases h
  case draw =>
    rw [Core.drawSprite, Memory.readRange_eq hc.coherent] at h
    cases hr : c.memory.bytes.readRange c.index.toNat i.word.n with
    | error g =>
      rw [hr] at h
      cases h
      obtain ⟨hn, hs, rfl⟩ := Bytes.readRange_error_iff.mp hr
      exact .sprite ho hn hs
    | ok bytes => rw [hr] at h; cases h
  case storeBlock =>
    obtain ⟨memory, he, _, _⟩ := Core.storeBlock_spec hc.coherent i.word.x
    rw [he, nextUnless_error_iff] at h
    obtain ⟨_, hs, rfl⟩ := Bytes.shortage_eq_some_iff.mp h
    exact .block (.inl ho) hs
  case loadBlock =>
    rw [Core.loadBlock_eq hc.coherent, nextUnless_error_iff] at h
    obtain ⟨_, hs, rfl⟩ := Bytes.shortage_eq_some_iff.mp h
    exact .block (.inr ho) hs
  case skipIfKey | skipUnlessKey | waitKey | pointGlyph | storeDecimal =>
    cases h
    exact .unimplemented (by simp [ho])
  case unknown w =>
    cases h
    have hw := Operation.decode_eq_unknown (hi.symm.trans ho)
    subst hw
    exact .unknown (by simp [ho, Operation.isUnknown])
  all_goals cases h

theorem effect_of_refuses (hc : c.Sound) (hi : i.operation = .decode i.word)
    (h : i.Refuses c f) : (i.effect setup random c).2 = .error f := by
  cases h with
  | unknown hu =>
    cases ho : i.operation <;> simp only [ho, Operation.isUnknown] at hu <;> try contradiction
    rw [effect, perform, ho, ← Operation.decode_eq_unknown (hi.symm.trans ho)]
    rfl
  | unimplemented hu =>
    simp only [List.mem_cons, List.not_mem_nil, or_false] at hu
    rcases hu with ho | ho | ho | ho | ho <;> (rw [effect, perform, ho]; rfl)
  | noCaller ho he =>
    simp only [effect, perform, ho, CallStack.pop_error_iff.mpr ⟨he, rfl⟩]
    rfl
  | callsTooDeep ho he =>
    simp only [effect, perform, ho, CallStack.push_error_iff.mpr ⟨Nat.le_of_eq he.symm, rfl⟩]
    rfl
  | sprite ho hn hs =>
    rw [effect_draw ho]
    simp only [Core.drawSprite, Memory.readRange_eq hc.coherent, Bytes.readRange_error_iff.mpr ⟨hn, hs, rfl⟩]
  | block ho hs =>
    have hr := Bytes.shortage_eq_some_iff.mpr ⟨Nat.succ_pos i.word.x, hs, rfl⟩
    rcases ho with ho | ho
    · obtain ⟨memory, he, _, _⟩ := Core.storeBlock_spec hc.coherent i.word.x
      rw [effect_storeBlock ho]
      simp only [he, hr, nextUnless]
    · rw [effect_loadBlock ho]
      simp only [Core.loadBlock_eq hc.coherent, hr, nextUnless]

/-- Every failure comes before the first change, but for those of block transfers. -/
theorem effect_core_of_error (h : (i.effect setup random c).2 = .error f)
    (hs : i.operation ≠ .storeBlock) (hl : i.operation ≠ .loadBlock) :
    (i.effect setup random c).1 = c := by
  cases ho : i.operation <;> simp only [effect, perform, ho, RandomTape.run_pure] at h ⊢
  case leave =>
    cases hp : c.calls.pop with
    | error g => rfl
    | ok r => rw [hp] at h; cases h
  case call =>
    cases hp : c.calls.push (c.pc + 2) with
    | error g => rfl
    | ok calls => rw [hp] at h; cases h
  case draw =>
    rw [Core.drawSprite] at h ⊢
    cases hr : c.memory.readRange c.index.toNat i.word.n <;> simp_all
  case storeBlock => exact absurd ho hs
  case loadBlock => exact absurd ho hl
  all_goals cases h

theorem effect_calls (hc : c.calls.frames.length ≤ callDepth) :
    (i.effect setup random c).1.calls.frames.length ≤ callDepth := by
  unfold effect perform
  cases ho : i.operation
  case leave =>
    unfold CallStack.pop
    cases hf : c.calls.frames with
    | nil => exact hc
    | cons address rest =>
      rw [hf, List.length_cons] at hc
      exact Nat.le_of_succ_le hc
  case call =>
    unfold CallStack.push
    by_cases hf : c.calls.frames.length < callDepth
    · simp only [if_pos hf]
      exact hf
    · simp only [if_neg hf]
      exact hc
  case draw =>
    show (c.drawSprite _ _ _).1.calls.frames.length ≤ callDepth
    rw [Core.drawSprite_calls]
    exact hc
  all_goals exact hc

theorem effect_binary (hc : c.screen.Binary) : (i.effect setup random c).1.screen.Binary := by
  unfold effect perform
  cases i.operation
  case clearScreen => exact Screen.binary_dark
  case leave => cases c.calls.pop <;> exact hc
  case call => cases c.calls.push (c.pc + 2) <;> exact hc
  case draw => exact Core.drawSprite_binary hc _ _ _
  all_goals exact hc

end Instruction
end Chip8
