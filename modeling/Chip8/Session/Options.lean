import Chip8.Setup

/-! What a user can ask of a session. -/
namespace Chip8

def defaultExit : UInt16 := 0x10

structure Options where
  rom : String
  base : UInt16 := defaultBase
  cyclesPerFrame : Nat := 11
  fps : Nat := 60
  maxCycles : Option Nat := none
  exitAddress : UInt16 := defaultExit
  headless : Bool := false
  legacyCarry : Bool := false
  deriving DecidableEq

def Options.setup (o : Options) : Setup := ⟨o.base, o.legacyCarry⟩

end Chip8
