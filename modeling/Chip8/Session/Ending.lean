import Chip8.Fault

/-! How a session ends, and what it tells the user. -/
namespace Chip8

/-- A failure of the machine or of the options. That of a write to the terminal is not one of them, since output is
assumed to succeed. -/
inductive Failure
  | load (path : String) (fault : Fault)
  | noFrames
  | execution (fault : Fault)
  deriving DecidableEq

inductive Ending
  | finished
  | cycleLimit
  | failed (failure : Failure)
  deriving DecidableEq, Inhabited

def Failure.report : Failure → String
  | load path fault => caused ("failed to load " ++ path) fault
  | noFrames => "Error: --fps must be at least 1"
  | execution fault => caused "execution error" fault
where
  caused (what : String) (fault : Fault) : String :=
    "Error: " ++ what ++ "\n\nCaused by:\n    " ++ fault.message

namespace Ending

def code : Ending → Nat
  | failed _ => 1
  | _ => 0

def farewell : Ending → String
  | finished => "\nProgram finished. Exiting.\n"
  | cycleLimit => "\nCycle limit reached. Exiting.\n"
  | failed _ => ""

def report? : Ending → Option String
  | failed failure => some failure.report
  | _ => none

end Ending
end Chip8
