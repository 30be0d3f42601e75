import Chip8.Core
import Chip8.RandomTape
import Chip8.Screen.Sprite
import Chip8.Setup

/-! What each instruction does to the core, and where it sends the program counter. -/
namespace Chip8

def alignUp (address : UInt16) : UInt16 := address + address % 2

inductive Flow
  | next
  | skip
  | jump (address : UInt16)
  deriving DecidableEq

def Flow.target (flow : Flow) (pc : UInt16) : UInt16 :=
  match flow with
  | next => pc + 2
  | skip => pc + 4
  | jump address => address

def Flow.skipIf (condition : Bool) : Flow := if condition then skip else next

def nextUnless : Option Fault → Except Fault Flow
  | none => .ok .next
  | some f => .error f

namespace Core

def setRegister (c : Core) (i : Fin registerCount) (value : UInt8) : Core :=
  { c with registers := c.registers.set i value }

/-- The flag is written last, so it wins when the target is VF itself. -/
def setWithFlag (c : Core) (i : Fin registerCount) (value : UInt8) (flag : Bool) : Core :=
  (c.setRegister i value).setRegister Registers.flag flag.toUInt8

/-- Draws the `rows` bytes at I with their corner at `x`, `y`, taken modulo the screen. -/
def drawSprite (c : Core) (x y : UInt8) (rows : Nat) : Core × Except Fault Flow :=
  match c.memory.readRange c.index.toNat rows with
  | .error f => (c, .error f)
  | .ok bytes =>
    let d := c.screen.draw ⟨x.toNat % Screen.width, y.toNat % Screen.height, bytes⟩
    ({ c.setRegister Registers.flag d.collision.toUInt8 with screen := d.screen, drawing := true },
      .ok .next)

/-- V0 to VX go to memory from I on. What was stored before a failure stays. -/
def storeBlock (c : Core) (x : Fin registerCount) : Core × Except Fault Flow :=
  let r := c.memory.writeUpTo c.index.toNat (c.registers.upTo x)
  ({ c with memory := r.1 }, nextUnless r.2)

/-- V0 to VX come from memory from I on. What was loaded before a failure stays. -/
def loadBlock (c : Core) (x : Fin registerCount) : Core × Except Fault Flow :=
  let r := c.memory.readUpTo c.index.toNat (x + 1)
  ({ c with registers := c.registers.overwrite r.1 }, nextUnless r.2)

end Core

/-- The core an instruction leaves behind, and how the machine goes on or why it cannot. Operands are read
before anything is written. -/
def Instruction.perform (setup : Setup) (i : Instruction) (c : Core) :
    StateM RandomTape (Core × Except Fault Flow) := do
  let w := i.word
  let vx := c.registers.get w.x
  let vy := c.registers.get w.y
  match i.operation with
  | .hostCall => return (c, .ok .next)
  | .clearScreen => return ({ c with screen := c.screen.reset }, .ok .next)
  | .leave =>
    match c.calls.pop with
    | .error f => return (c, .error f)
    | .ok (address, calls) => return ({ c with calls }, .ok (.jump address))
  | .jump => return (c, .ok (.jump (alignUp w.nnn)))
  | .call =>
    match c.calls.push (c.pc + 2) with
    | .error f => return (c, .error f)
    | .ok calls => return ({ c with calls }, .ok (.jump w.nnn))
  | .skipIfByte => return (c, .ok (.skipIf (vx == w.kk)))
  | .skipUnlessByte => return (c, .ok (.skipIf (vx != w.kk)))
  | .skipIfSame => return (c, .ok (.skipIf (vx == vy)))
  | .skipUnlessSame => return (c, .ok (.skipIf (vx != vy)))
  | .setByte => return (c.setRegister w.x w.kk, .ok .next)
  | .addByte => return (c.setRegister w.x (vx + w.kk), .ok .next)
  | .copy => return (c.setRegister w.x vy, .ok .next)
  | .bitOr => return (c.setRegister w.x (vx ||| vy), .ok .next)
  | .bitAnd => return (c.setRegister w.x (vx &&& vy), .ok .next)
  | .bitXor => return (c.setRegister w.x (vx ^^^ vy), .ok .next)
  | .add => return (c.setWithFlag w.x (vx + vy) (setup.carry vx vy), .ok .next)
  | .subtract => return (c.setWithFlag w.x (vx - vy) (vx > vy), .ok .next)
  | .subtractFrom => return (c.setWithFlag w.x (vy - vx) (vy > vx), .ok .next)
  | .shiftRight => return (c.setWithFlag w.x (vx / 2) (vx % 2 == 1), .ok .next)
  | .shiftLeft => return (c.setWithFlag w.x (vx * 2) (vx ≥ 128), .ok .next)
  | .setIndex => return ({ c with index := w.nnn }, .ok .next)
  | .jumpOffset => return (c, .ok (.jump (w.nnn + (c.registers.get Registers.first).toUInt16)))
  | .random =>
    let byte ← RandomTape.next
    return (c.setRegister w.x (byte &&& w.kk), .ok .next)
  | .draw => return c.drawSprite vx vy w.n
  | .readDelay => return (c.setRegister w.x c.delay, .ok .next)
  | .setDelay => return ({ c with delay := vx }, .ok .next)
  | .setSound => return ({ c with sound := vx }, .ok .next)
  | .addIndex => return ({ c with index := c.index + vx.toUInt16 }, .ok .next)
  | .storeBlock => return c.storeBlock w.x
  | .loadBlock => return c.loadBlock w.x
  | .skipIfKey | .skipUnlessKey | .waitKey | .pointGlyph | .storeDecimal => return (c, .error (.unimplemented i))
  | .unknown word => return (c, .error (.unknownOperation word))

end Chip8
