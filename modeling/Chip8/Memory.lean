import Chip8.Fault

/-! Memory cells hold plain bytes or whole decoded instructions. An instruction shows its high byte
at its own address and its low byte at the next, until something is written over either half. -/
namespace Chip8

inductive Cell
  | byte (value : UInt8)
  | instruction (i : Instruction)
  deriving DecidableEq, Repr

namespace Memory

/-- How many bytes there are; the last of the 4 KiB is missing. -/
abbrev size : Nat := 0xFFF

end Memory

structure Memory where
  cells : Vector Cell Memory.size
  deriving DecidableEq

namespace Memory

def blank : Memory := ⟨Vector.replicate size (.byte 0)⟩

/-- The bare cell, whatever the one before it says. -/
def cell (m : Memory) (a : Nat) : Except Fault Cell :=
  match m.cells[a]? with
  | none => .error (.outOfRange a)
  | some c => .ok c

/-- The instruction whose low half lies at `a`. -/
def reachingInto (m : Memory) : Nat → Option Instruction
  | 0 => none
  | a + 1 =>
    match m.cells[a]? with
    | some (.instruction i) => some i
    | _ => none

def readByte (m : Memory) (a : Nat) : Except Fault UInt8 :=
  match m.cells[a]? with
  | none => .error (.outOfRange a)
  | some (.instruction i) => .ok i.word.high
  | some (.byte value) =>
    match m.reachingInto a with
    | some i => .ok i.word.low
    | none => .ok value

/-- The bytes from `a` on up to the first that cannot be read, and why it cannot. -/
def readUpTo (m : Memory) (a : Nat) : Nat → List UInt8 × Option Fault
  | 0 => ([], none)
  | count + 1 =>
    match m.readByte a with
    | .error f => ([], some f)
    | .ok b =>
      let rest := m.readUpTo (a + 1) count
      (b :: rest.1, rest.2)

def readRange (m : Memory) (a count : Nat) : Except Fault (List UInt8) :=
  match m.readUpTo a count with
  | (_, some f) => .error f
  | (bytes, none) => .ok bytes

def readWord (m : Memory) (a : Nat) : Except Fault Word := do
  let high ← m.readByte a
  let low ← m.readByte (a + 1)
  return .ofBytes high low

/-- A decoded instruction is taken as it is, anything else is put together from two bytes. -/
def fetch (m : Memory) (a : Nat) : Except Fault Instruction := do
  match ← m.cell a with
  | .instruction i => return i
  | .byte _ => return .ofWord (← m.readWord a)

def put (m : Memory) (a : Nat) (c : Cell) (h : a < size) : Memory := ⟨m.cells.set a c⟩

/-- Turns an instruction at `a` back into its two bytes. -/
def split (m : Memory) (a : Nat) (h : a < size) : Memory :=
  match m.cells[a] with
  | .byte _ => m
  | .instruction i =>
    let m := m.put a (.byte i.word.high) h
    if k : a + 1 < size then
      match m.cells[a + 1] with
      | .byte _ => m.put (a + 1) (.byte i.word.low) k
      | .instruction _ => m
    else m

def splitBefore (m : Memory) : (a : Nat) → a < size → Memory
  | 0, _ => m
  | a + 1, h => m.split a (Nat.lt_of_succ_lt h)

/-- A plain byte at `a`. Instructions that share the byte are split first. -/
def setByte (m : Memory) (a : Nat) (value : UInt8) (h : a < size) : Memory :=
  ((m.splitBefore a h).split a h).put a (.byte value) h

/-- Writes the byte nearest to `value`. -/
def writeByte (m : Memory) (a : Nat) (value : Int) : Memory × Option Fault :=
  if h : a < size then (m.setByte a (.ofNat (min value.toNat 255)) h, none) else (m, some (.outOfRange a))

def writeUpTo (m : Memory) (a : Nat) : List UInt8 → Memory × Option Fault
  | [] => (m, none)
  | b :: rest =>
    if h : a < size then (m.setByte a b h).writeUpTo (a + 1) rest else (m, some (.outOfRange a))

/-- A decoded instruction at `a`. Instructions that share a byte with it are split first. -/
def setInstruction (m : Memory) (a : Nat) (i : Instruction) (h : a + 1 < size) : Memory :=
  let m := ((m.splitBefore a (Nat.lt_of_succ_lt h)).split a (Nat.lt_of_succ_lt h)).split (a + 1) h
  (m.put a (.instruction i) (Nat.lt_of_succ_lt h)).put (a + 1) (.byte i.word.low) h

def store (m : Memory) (a : Nat) (w : Word) : Memory × Option Fault :=
  if a < size then
    if h : a + 1 < size then (m.setInstruction a (.ofWord w) h, none)
    else (m, some (.outOfRange (a + 1)))
  else (m, some (.outOfRange a))

def storeAll (m : Memory) (a : Nat) : List Word → Memory × Option Fault
  | [] => (m, none)
  | w :: rest =>
    match m.store a w with
    | (m, none) => m.storeAll (a + 2) rest
    | (m, some f) => (m, some f)

/-- Stores a program word after word from `base` on, or nothing if it does not fit. -/
def load (m : Memory) (base : UInt16) (program : List Word) : Memory × Option Fault :=
  if base.toNat + 2 * program.length ≤ size then m.storeAll base.toNat program
  else (m, some (.programTooLarge base program.length))

end Memory
end Chip8
