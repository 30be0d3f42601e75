import Chip8.CommandLine.Address
import Chip8.Session.Options

/-! Command line arguments are read from left to right. The value of an option is judged when the
next argument that has a meaning arrives, or at the end. -/
namespace Chip8.CommandLine

inductive Slot
  | rom
  | base
  | cyclesPerFrame
  | fps
  | maxCycles
  | exitAddress
  deriving DecidableEq

inductive Switch
  | headless
  | legacyCarry
  | help
  deriving DecidableEq

inductive Detour
  | help
  | usage
  | address (fault : AddressFault)
  deriving DecidableEq

def slot? : String → Option Slot
  | "base" => some .base
  | "cycles-per-frame" => some .cyclesPerFrame
  | "fps" => some .fps
  | "max-cycles" => some .maxCycles
  | "exit-address" => some .exitAddress
  | _ => none

def switch? : String → Option Switch
  | "headless" => some .headless
  | "legacy-carry" => some .legacyCarry
  | "help" => some .help
  | _ => none

inductive Token
  | separator
  | long (name : String) (value : Option String)
  | short (letter : Char)
  | plain (text : String)
  deriving DecidableEq

/-- The name of a long option ends at the first equals sign. A lone dash is an ordinary text. -/
def Token.ofArgument (argument : String) : Token :=
  match argument.toList with
  | ['-', '-'] => .separator
  | '-' :: '-' :: rest =>
    .long (String.ofList (rest.takeWhile (· ≠ '=')))
      (match rest.dropWhile (· ≠ '=') with
        | [] => none
        | _ :: value => some (String.ofList value))
  | '-' :: letter :: _ => .short letter
  | _ => .plain argument

structure Given where
  rom : Option String := none
  base : Option UInt16 := none
  cyclesPerFrame : Option Nat := none
  fps : Option Nat := none
  maxCycles : Option Nat := none
  exitAddress : Option UInt16 := none
  headless : Bool := false
  legacyCarry : Bool := false

/-- A number of 32 bits. Zero may carry a minus sign. -/
def readCount (text : String) : Except Detour Nat :=
  match Text.readInteger 0xFFFFFFFF text.toList with
  | .ok (.ofNat n) => .ok n
  | _ => .error .usage

def readLimit (text : String) : Except Detour Nat :=
  (Text.readNatural 10 0xFFFFFFFFFFFFFFFF text.toList).mapError fun _ => .usage

/-- An option is given once; a second time its value is not even read. -/
def once {α : Type} (before : Option α) (read : Except Detour α) : Except Detour (Option α) :=
  match before with
  | some _ => .error .usage
  | none => read.map some

namespace Given

def accept (g : Given) (slot : Slot) (text : String) : Except Detour Given := do
  match slot with
  | .rom => return { g with rom := ← once g.rom (if text = "" then .error .usage else .ok text) }
  | .base => return { g with base := ← once g.base ((readAddress text).mapError .address) }
  | .cyclesPerFrame => return { g with cyclesPerFrame := ← once g.cyclesPerFrame (readCount text) }
  | .fps => return { g with fps := ← once g.fps (readCount text) }
  | .maxCycles => return { g with maxCycles := ← once g.maxCycles (readLimit text) }
  | .exitAddress => return { g with exitAddress := ← once g.exitAddress ((readAddress text).mapError .address) }

def turnOn (g : Given) : Switch → Except Detour Given
  | .headless => if g.headless then .error .usage else .ok { g with headless := true }
  | .legacyCarry => if g.legacyCarry then .error .usage else .ok { g with legacyCarry := true }
  | .help => .error .help

def options (g : Given) : Except Detour Options :=
  match g.rom with
  | none => .error .usage
  | some rom =>
    let standard : Options := { rom }
    .ok {
      rom
      base := g.base.getD standard.base
      cyclesPerFrame := g.cyclesPerFrame.getD standard.cyclesPerFrame
      fps := g.fps.getD standard.fps
      maxCycles := g.maxCycles
      exitAddress := g.exitAddress.getD standard.exitAddress
      headless := g.headless
      legacyCarry := g.legacyCarry }

end Given

structure Scan where
  given : Given := {}
  /-- A place whose value is not judged yet, or has not arrived yet. -/
  pending : Option (Slot × Option String) := none
  /-- The one argument without a name has been seen. -/
  romSeen : Bool := false
  /-- Everything from here on is an ordinary text. -/
  separated : Bool := false

namespace Scan

def settle (s : Scan) : Except Detour Scan :=
  match s.pending with
  | none => .ok s
  | some (_, none) => .error .usage
  | some (slot, some text) => do return { s with given := ← s.given.accept slot text, pending := none }

def unnamed (s : Scan) (text : String) : Except Detour Scan :=
  if s.romSeen then .error .usage
  else do return { ← s.settle with pending := some (.rom, some text), romSeen := true }

def long (s : Scan) (name : String) (value : Option String) : Except Detour Scan :=
  match slot? name, switch? name, value with
  | some slot, _, some text => do
    let s ← s.settle
    return { s with given := ← s.given.accept slot text }
  | some slot, _, none => do return { ← s.settle with pending := some (slot, none) }
  | none, some switch, none => do
    let s ← s.settle
    return { s with given := ← s.given.turnOn switch }
  | none, _, _ => .error .usage

def step (s : Scan) (argument : String) : Except Detour Scan :=
  if s.separated then s.unnamed argument
  else
    match Token.ofArgument argument with
    | .separator => .ok { s with separated := true }
    | .long name value => s.long name value
    | .short 'h' => s.settle >>= fun _ => .error .help
    | .short _ => .error .usage
    | .plain text =>
      match s.pending with
      | some (slot, none) => .ok { s with pending := some (slot, some text) }
      | _ => s.unnamed text

end Scan

def read (arguments : List String) : Except Detour Options := do
  let s ← arguments.foldlM Scan.step {}
  (← s.settle).given.options

end Chip8.CommandLine
