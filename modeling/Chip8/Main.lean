import Chip8.CommandLine.Arguments
import Chip8.CommandLine.Help
import Chip8.Session

/-! The command line: reads a program image and plays it in the terminal. -/
namespace Chip8.CommandLine

def reason : IO.Error → String
  | .noFileOrDirectory .. => Fault.noSuchFile
  | .permissionDenied _ code _ => "Permission denied (os error " ++ toString code ++ ")"
  | .inappropriateType _ code _ => "Is a directory (os error " ++ toString code ++ ")"
  | e => toString e

def readImage (path : String) : IO (Except String (List UInt8)) := do
  try return .ok (← IO.FS.readBinFile path).toList
  catch e => return .error (reason e)

def flush (verbosity : Verbosity) (s : Session) : IO Session := do
  for event in s.log.reverse do
    if verbosity.shows event then IO.eprintln event.line
  unless s.shown.isEmpty do
    IO.print s.output
    (← IO.getStdout).flush
  return { s with shown := [], log := [] }

def pace (o : Options) (start : Nat) : IO Unit := do
  let spent := (← IO.monoMsNow) - start
  IO.sleep (.ofNat (1000 / o.fps - spent))

partial def play (o : Options) (verbosity : Verbosity) (s : Session) : Option Ending → IO UInt32
  | none => do
    let start ← IO.monoMsNow
    let (s, e) := s.frame o
    let s ← flush verbosity s
    if e.isNone then pace o start
    play o verbosity s e
  | some e => do
    let _ ← flush verbosity s
    IO.print e.farewell
    if let some report := e.report? then IO.eprintln report
    return .ofNat e.code

def launch (o : Options) : IO UInt32 := do
  let verbosity := ((← IO.getEnv "RUST_LOG").bind Verbosity.ofName?).getD (some .warn)
  let seed := (← IO.getRandomBytes 8).foldl (fun n b => 256 * n + b.toUInt64) 0
  let (s, e) := Session.start o (← readImage o.rom) (.ofSeed seed)
  play o verbosity s e

end Chip8.CommandLine

def main (arguments : List String) : IO UInt32 := do
  match Chip8.CommandLine.read arguments with
  | .ok o => Chip8.CommandLine.launch o
  | .error .help =>
    IO.print Chip8.CommandLine.help
    return 0
  | .error .usage =>
    IO.eprint Chip8.CommandLine.usage
    return 2
  | .error (.address fault) =>
    IO.eprintln ("error: " ++ fault.message)
    return 2
