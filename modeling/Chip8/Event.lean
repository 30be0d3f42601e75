import Chip8.Core

/-! The log of a run. -/
namespace Chip8

inductive Level
  | error
  | warn
  | info
  | debug
  | trace
  deriving DecidableEq, Repr

namespace Level

def name : Level → String
  | error => "ERROR"
  | warn => "WARN"
  | info => "INFO"
  | debug => "DEBUG"
  | trace => "TRACE"

def detail : Level → Nat
  | error => 1
  | warn => 2
  | info => 3
  | debug => 4
  | trace => 5

end Level

inductive Event
  /-- An instruction was fetched and is about to take effect. -/
  | execute (pc : UInt16) (instruction : Instruction)
  /-- The instruction fetched at `pc` failed. -/
  | aborted (pc : UInt16) (fault : Fault)
  | imageRead (path : String) (bytes : Nat)
  | loaded (base : UInt16) (words : Nat)
  | reset
  | starting (path : String) (base : UInt16) (legacyCarry : Bool)
  /-- A session ends here, with the core as the failing cycle left it. -/
  | halted (pc index : UInt16) (registers : Registers) (calls : CallStack)
  deriving DecidableEq

namespace Event

def level : Event → Level
  | execute .. => .trace
  | aborted .. => .warn
  | imageRead .. => .debug
  | loaded .. => .debug
  | reset => .debug
  | starting .. => .info
  | halted .. => .error

def target : Event → String
  | imageRead .. => "chip8vm::parser"
  | starting .. => "chip8vm"
  | halted .. => "chip8vm"
  | _ => "chip8vm::interpreter"

def message : Event → String
  | execute .. => "execute"
  | aborted .. => "cycle aborted"
  | imageRead .. => "read program image"
  | loaded .. => "program loaded"
  | reset => "machine reset"
  | starting .. => "starting"
  | halted .. => "execution halted"

def fields : Event → List (String × String)
  | execute pc i =>
    [("pc", Text.hexNumber 4 pc.toNat), ("word", Text.hexNumber 4 i.word.toNat), ("opcode", i.operation.name)]
  | aborted pc fault => [("pc", Text.hexNumber 4 pc.toNat), ("err", fault.message)]
  | imageRead path bytes => [("path", path), ("bytes", toString bytes)]
  | loaded base words => [("base", Text.hexNumber 4 base.toNat), ("words", toString words)]
  | reset => []
  | starting path base legacyCarry =>
    [("rom", path), ("base", Text.hexNumber 4 base.toNat), ("legacy_carry", toString legacyCarry)]
  | halted pc index registers calls =>
    [("pc", Text.hexNumber 4 pc.toNat), ("i", Text.hexNumber 4 index.toNat), ("registers", registers.text),
      ("stack", "[" ++ ", ".intercalate (calls.outermostFirst.map fun a => toString a.toNat) ++ "]")]

def text (e : Event) (keep : String → Bool) : String :=
  e.fields.foldl (fun line (key, value) => if keep key then line ++ " " ++ key ++ "=" ++ value else line)
    e.message

def line (e : Event) : String := e.level.name ++ " " ++ e.target ++ ": " ++ e.text fun _ => true

end Event

/-- How much of the log is shown: events up to a level, or none at all. -/
abbrev Verbosity := Option Level

namespace Verbosity

def ofName? : String → Option Verbosity
  | "off" => some none
  | "error" => some (some .error)
  | "warn" => some (some .warn)
  | "info" => some (some .info)
  | "debug" => some (some .debug)
  | "trace" => some (some .trace)
  | _ => none

def shows (v : Verbosity) (e : Event) : Bool := v.any fun level => e.level.detail ≤ level.detail

end Verbosity
end Chip8
