/-! A source of random bytes: an endless tape and how far it has been read. -/
namespace Chip8

structure RandomTape where
  bytes : Nat → UInt8
  position : Nat

namespace RandomTape

def head (t : RandomTape) : UInt8 := t.bytes t.position

def advance (t : RandomTape) : RandomTape := { t with position := t.position + 1 }

def next : StateM RandomTape UInt8 := modifyGet fun t => (t.head, t.advance)

/-- Scrambles a counter so that every output bit depends on every input bit. -/
def scramble (z : UInt64) : UInt64 :=
  let z := (z ^^^ (z >>> 30)) * 0xBF58476D1CE4E5B9
  let z := (z ^^^ (z >>> 27)) * 0x94D049BB133111EB
  z ^^^ (z >>> 31)

def ofSeed (seed : UInt64) : RandomTape where
  bytes n := (scramble (seed + (UInt64.ofNat n + 1) * 0x9E3779B97F4A7C15)).toUInt8
  position := 0

end RandomTape
end Chip8
