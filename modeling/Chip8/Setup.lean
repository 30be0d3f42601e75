/-! What differs from machine to machine. -/
namespace Chip8

def defaultBase : UInt16 := 0x200

structure Setup where
  base : UInt16 := defaultBase
  /-- Take the carry of 8XY4 from the sum modulo 255. -/
  legacyCarry : Bool := false
  deriving DecidableEq

namespace Setup

def carry (setup : Setup) (a b : UInt8) : Bool :=
  let sum := a.toNat + b.toNat
  if setup.legacyCarry then sum % 255 > 0 else sum > 255

end Setup
end Chip8
