import Chip8.CallStack
import Chip8.Memory
import Chip8.Registers
import Chip8.Screen

/-! Everything that an instruction can observe or change. -/
namespace Chip8

structure Core where
  memory : Memory
  registers : Registers
  calls : CallStack
  screen : Screen
  pc : UInt16
  index : UInt16
  delay : UInt8
  sound : UInt8
  /-- A sprite was drawn in the latest cycle. -/
  drawing : Bool

namespace Core

def new (pc : UInt16) : Core where
  memory := .blank
  registers := .zero
  calls := .empty
  screen := .dark
  pc := pc
  index := 0
  delay := 0
  sound := 0
  drawing := false

/-- Back to the start, but for memory. -/
def reset (c : Core) (pc : UInt16) : Core :=
  { c with
    registers := c.registers.reset
    calls := c.calls.reset
    screen := c.screen.reset
    pc := pc
    index := 0
    delay := 0
    sound := 0
    drawing := false }

theorem reset_eq (c : Core) (pc : UInt16) : c.reset pc = { new pc with memory := c.memory } := rfl

def countDown (timer : UInt8) : UInt8 := if timer = 0 then 0 else timer - 1

def tick (c : Core) : Core := { c with delay := countDown c.delay, sound := countDown c.sound }

end Core
end Chip8
