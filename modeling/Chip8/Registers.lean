import Chip8.Text.Hex

/-! The sixteen byte registers V0 to VF. VF doubles as the flag of arithmetic and drawing. -/
namespace Chip8

abbrev registerCount : Nat := 16

structure Registers where
  values : Vector UInt8 registerCount
  deriving DecidableEq

namespace Registers

/-- Carry, no borrow, shifted-out bit and collision end up here. -/
def flag : Fin registerCount := 15

def first : Fin registerCount := 0

def zero : Registers := ⟨Vector.replicate registerCount 0⟩

def reset (r : Registers) : Registers := { r with values := Vector.replicate registerCount 0 }

def get (r : Registers) (i : Fin registerCount) : UInt8 := r.values[i]

def set (r : Registers) (i : Fin registerCount) (value : UInt8) : Registers :=
  ⟨r.values.set i value⟩

def get? (r : Registers) (index : Nat) : Option UInt8 := r.values[index]?

/-- Stores `value` modulo 256 in the register of number `index`, if there is one. -/
def set? (r : Registers) (index : Nat) (value : Int) : Option Registers :=
  if h : index < registerCount then some (r.set ⟨index, h⟩ (UInt8.ofInt value)) else none

def upTo (r : Registers) (x : Fin registerCount) : List UInt8 := r.values.toList.take (x + 1)

/-- V0, V1, … become the given bytes; the registers after them keep theirs. -/
def overwrite (r : Registers) (bytes : List UInt8) : Registers :=
  ⟨Vector.ofFn fun i => bytes.getD i (r.get i)⟩

def text (r : Registers) : String :=
  ", ".intercalate (r.values.toList.zipIdx.map fun (value, i) =>
    "0x" ++ Text.lowerHex 1 i ++ " = " ++ toString value.toNat)

theorem get_set (r : Registers) (i j : Fin registerCount) (value : UInt8) :
    (r.set i value).get j = if i = j then value else r.get j := by
  simp [get, set, Vector.getElem_set, Fin.ext_iff]

theorem set_set (r : Registers) (i : Fin registerCount) (a b : UInt8) : (r.set i a).set i b = r.set i b := by
  simp only [set, Vector.set_set]

theorem get_overwrite (r : Registers) (bytes : List UInt8) (i : Fin registerCount) :
    (r.overwrite bytes).get i = bytes.getD i (r.get i) := by
  simp [get, overwrite]

end Registers
end Chip8
