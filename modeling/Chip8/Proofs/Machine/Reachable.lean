import Chip8.Proofs.Effect
import Chip8.Proofs.Machine.Stages
import Chip8.Proofs.Memory.History

/-! The states that a machine can get into, whatever is done to it and in whatever order. In all of
them memory is what some history of writes leads to, hence coherent, and no more calls are open than there
is room for. -/
namespace Chip8

/-- Everything that can be done to a machine from outside. -/
inductive Command
  | loadProgram (program : List Word)
  | loadImage (image : List UInt8)
  | loadFile (path : String) (contents : Except String (List UInt8))
  | write (w : Write)
  | setPc (pc : UInt16)
  | setPixel (x y : Nat) (value : UInt8)
  | step (n : Nat)
  | reset

/-- The machine that a command leaves, also when it fails. -/
def Command.run : Command → Machine → Machine
  | loadProgram program, m => (m.loadProgram program).machine
  | loadImage image, m => (m.loadImage image).machine
  | loadFile path contents, m => (m.loadFile path contents).machine
  | write w, m => { m with core.memory := (w.run m.core.memory).1 }
  | setPc pc, m => m.setPc pc
  | setPixel x y value, m => m.setPixel x y value
  | step n, m => (m.run n).machine
  | reset, m => m.reset.machine

inductive Machine.Reachable : Machine → Prop
  | new (setup : Setup) (tape : RandomTape) : Reachable (.new setup tape)
  | after {m : Machine} (c : Command) : m.Reachable → Reachable (c.run m)

namespace Machine
variable {m : Machine}

/-- To load a program is to write it at the base address. -/
private theorem core_loadProgram (program : List Word) : (m.loadProgram program).machine.core =
    { m.core with memory := ((Write.program m.setup.base program).run m.core.memory).1 } := by
  rw [loadProgram, Write.run]
  cases (m.core.memory.load m.setup.base program).2 <;> rfl

/-- Every cycle is a step of its own. -/
theorem Reachable.cycle (h : m.Reachable) : m.cycle.machine.Reachable := by
  have hstep : (m.run 1).machine = m.cycle.machine := by
    cases hf : m.cycle.fault? with
    | some f => rw [run_succ_of_fault hf]
    | none =>
      rw [run_succ_of_ok hf]
      rfl
  rw [← hstep]
  exact .after (.step 1) h

/-- What holds of a new core and is preserved by every way to touch one holds of all reachable machines. -/
theorem Reachable.invariant (h : m.Reachable) (P : Core → Prop) (new : ∀ base, P (.new base))
    (write : ∀ c (w : Write), P c → P { c with memory := (w.run c.memory).1 })
    (setPc : ∀ c pc, P c → P { c with pc })
    (setPixel : ∀ c x y value, P c → P { c with screen := c.screen.put x y value })
    (cycle : ∀ m : Machine, m.Reachable → P m.core → P m.cycle.machine.core)
    (reset : ∀ c base, P c → P (c.reset base)) : P m.core := by
  have load {m : Machine} (hm : P m.core) (program : List Word) :
      P (m.loadProgram program).machine.core := by
    rw [core_loadProgram]
    exact write _ _ hm
  induction h with
  | new setup tape => exact new setup.base
  | after c hm ih =>
    cases c with
    | loadProgram program => exact load ih program
    | loadImage image => exact load ih _
    | loadFile path contents =>
      cases contents with
      | error reason => exact ih
      | ok image => exact load ih _
    | write w => exact write _ w ih
    | setPc pc => exact setPc _ pc ih
    | setPixel x y value => exact setPixel _ x y value ih
    | step n =>
      exact (run_preserves (fun m => m.Reachable ∧ P m.core)
        (fun m h => ⟨h.1.cycle, cycle m h.1 h.2⟩) ⟨hm, ih⟩ n).2
    | reset => exact reset _ _ ih

theorem sound_cycle (h : m.core.Sound) : m.cycle.machine.core.Sound :=
  cycle_core Core.Sound ⟨h.coherent, h.shallow, h.binary⟩
    (fun _ _ => ⟨Instruction.effect_coherent h.coherent, Instruction.effect_calls h.shallow,
      Instruction.effect_binary h.binary⟩)
    (fun _ _ hc => ⟨hc.coherent, hc.shallow, hc.binary⟩)

theorem Reachable.sound (h : m.Reachable) : m.core.Sound := by
  refine h.invariant Core.Sound ?new ?write ?setPc ?setPixel ?cycle ?reset
  case new => exact fun _ => ⟨Memory.coherent_blank, Nat.zero_le _, Screen.binary_dark⟩
  case write => exact fun _ w hc => ⟨Write.run_coherent hc.coherent w, hc.shallow, hc.binary⟩
  case setPc => exact fun _ _ hc => ⟨hc.coherent, hc.shallow, hc.binary⟩
  case setPixel => exact fun _ x y value hc => ⟨hc.coherent, hc.shallow, hc.binary.put x y value⟩
  case cycle => exact fun _ _ => sound_cycle
  case reset => exact fun _ _ hc => ⟨hc.coherent, Nat.zero_le _, Screen.binary_dark⟩

/-- An instruction writes to memory as a history of writes does. -/
private theorem effect_memory_reachable (h : m.core.memory.Reachable) (i : Instruction) :
    (m.effect i).1.memory.Reachable := by
  unfold effect
  by_cases ho : i.operation = .storeBlock
  · rw [Instruction.effect_storeBlock ho]
    exact h.writeUpTo _ _
  · rw [Instruction.effect_keeps_memory_of_ne_storeBlock ho]
    exact h

private theorem cycle_memory_reachable (h : m.core.memory.Reachable) : m.cycle.machine.core.memory.Reachable :=
  cycle_core (·.memory.Reachable) h (fun i _ => effect_memory_reachable h i) fun _ _ hc => hc

/-- The memory of a machine is always one that a history of writes leads to. -/
theorem Reachable.memory (h : m.Reachable) : m.core.memory.Reachable := by
  refine h.invariant (·.memory.Reachable) ?new ?write ?setPc ?setPixel ?cycle ?reset
  case new => exact fun _ => Memory.reachable_after []
  case write => exact fun _ w hc => hc.write w
  case cycle => exact fun _ _ => cycle_memory_reachable
  case setPc | setPixel | reset => intros; assumption

end Machine
end Chip8
