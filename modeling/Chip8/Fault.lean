import Chip8.Instruction

/-! Everything that can stop a machine or refuse a program. -/
namespace Chip8

def callDepth : Nat := 16

inductive Fault
  | outOfRange (address : Nat)
  | unknownOperation (word : Word)
  | callsTooDeep
  | noCaller
  | unimplemented (instruction : Instruction)
  | programTooLarge (base : UInt16) (words : Nat)
  | unreadable (reason : String)
  deriving DecidableEq, Repr

namespace Fault

def noSuchFile : String := "No such file or directory (os error 2)"

def message : Fault → String
  | outOfRange address => "memory access out of range at address " ++ Text.hexNumber 4 address
  | unknownOperation word => "unknown opcode: " ++ Text.hexNumber 4 word.toNat
  | callsTooDeep => "stack overflow: call depth exceeds " ++ toString callDepth
  | noCaller => "stack underflow: return with an empty call stack"
  | unimplemented i =>
    "unimplemented operation " ++ i.operation.name ++ " (" ++ Text.hexNumber 4 i.word.toNat ++ ")"
  | programTooLarge base words =>
    "program of " ++ toString words ++ " words does not fit in memory at base " ++
      Text.hexNumber 4 base.toNat
  | unreadable reason => reason

end Fault
end Chip8
