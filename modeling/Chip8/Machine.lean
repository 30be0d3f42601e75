import Chip8.Effect
import Chip8.Event
import Chip8.Program
import Chip8.RandomTape

/-! A machine is a core set up for one way of working, with a tape of random bytes. Every operation
answers with the machine it leaves, also when it fails, and with the events it logs. -/
namespace Chip8

structure Machine where
  setup : Setup
  core : Core
  tape : RandomTape

structure Outcome where
  machine : Machine
  fault? : Option Fault
  log : List Event

namespace Machine

def new (setup : Setup) (tape : RandomTape) : Machine := ⟨setup, .new setup.base, tape⟩

def loadProgram (m : Machine) (program : List Word) : Outcome :=
  let r := m.core.memory.load m.setup.base program
  let m := { m with core.memory := r.1 }
  match r.2 with
  | some f => ⟨m, some f, []⟩
  | none => ⟨m, none, [.loaded m.setup.base program.length]⟩

def loadImage (m : Machine) (image : List UInt8) : Outcome := m.loadProgram (Program.ofBytes image)

def loadFile (m : Machine) (path : String) (contents : Except String (List UInt8)) : Outcome :=
  match contents with
  | .error reason => ⟨m, some (.unreadable reason), []⟩
  | .ok image =>
    let loaded := m.loadImage image
    { loaded with log := .imageRead path image.length :: loaded.log }

/-- Everything but memory and the random tape starts anew. -/
def reset (m : Machine) : Outcome := ⟨{ m with core := m.core.reset m.setup.base }, none, [.reset]⟩

def setPc (m : Machine) (pc : UInt16) : Machine := { m with core.pc := pc }

def setPixel (m : Machine) (x y : Nat) (value : UInt8) : Machine :=
  { m with core.screen := m.core.screen.put x y value }

def current (m : Machine) : Except Fault Instruction := m.core.memory.fetch m.core.pc.toNat

end Machine
end Chip8
