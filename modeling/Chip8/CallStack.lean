import Chip8.Fault

/-! The addresses that open calls return to. -/
namespace Chip8

/-- The innermost caller comes first. -/
structure CallStack where
  frames : List UInt16
  deriving DecidableEq

namespace CallStack

def empty : CallStack := ⟨[]⟩

def push (s : CallStack) (address : UInt16) : Except Fault CallStack :=
  if s.frames.length < callDepth then .ok ⟨address :: s.frames⟩ else .error .callsTooDeep

def pop (s : CallStack) : Except Fault (UInt16 × CallStack) :=
  match s.frames with
  | [] => .error .noCaller
  | address :: rest => .ok (address, ⟨rest⟩)

def reset (s : CallStack) : CallStack := { s with frames := [] }

def outermostFirst (s : CallStack) : List UInt16 := s.frames.reverse

end CallStack
end Chip8
