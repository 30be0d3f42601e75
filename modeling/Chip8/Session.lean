import Chip8.Machine.Cycle
import Chip8.Session.Ending
import Chip8.Session.Options

/-! A session runs a machine frame after frame until it reaches the exit address, uses up its
cycles or fails. -/
namespace Chip8

/-- A machine at work. The latest frame and the latest event come first. -/
structure Session where
  machine : Machine
  executed : Nat := 0
  /-- A sprite was drawn since the frame began. -/
  redraw : Bool := false
  shown : List Screen := []
  log : List Event := []

namespace Session

def start (o : Options) (contents : Except String (List UInt8)) (tape : RandomTape) :
    Session × Option Ending :=
  let loaded := (Machine.new o.setup tape).loadFile o.rom contents
  let s : Session := { machine := loaded.machine, log := loaded.log.reverse }
  match loaded.fault? with
  | some f => (s, some (.failed (.load o.rom f)))
  | none =>
    let s := { s with log := .starting o.rom o.base o.legacyCarry :: s.log }
    (s, if o.fps = 0 then some (.failed .noFrames) else none)

/-- Why no further cycle is due. The exit address counts before the limit. -/
def due (o : Options) (s : Session) : Option Ending :=
  if s.machine.core.pc = o.exitAddress then some .finished
  else if o.maxCycles.any (· ≤ s.executed) then some .cycleLimit
  else none

def cycle (s : Session) : Session × Option Ending :=
  let c := s.machine.cycle
  let s := { s with machine := c.machine, log := c.log.reverse ++ s.log }
  let core := s.machine.core
  match c.fault? with
  | some f =>
    ({ s with log := .halted core.pc core.index core.registers core.calls :: s.log },
      some (.failed (.execution f)))
  | none => ({ s with executed := s.executed + 1, redraw := s.redraw || core.drawing }, none)

def cycles (o : Options) : Nat → Session → Session × Option Ending
  | 0, s => (s, none)
  | n + 1, s =>
    match s.due o with
    | some e => (s, some e)
    | none =>
      match s.cycle with
      | (s, some e) => (s, some e)
      | (s, none) => cycles o n s

/-- A frame that is left in the middle is not shown. Output is assumed to succeed: an error of the terminal would end
the session here, and is left to the outer layer, which lets it through. -/
def frame (o : Options) (s : Session) : Session × Option Ending :=
  match cycles o o.cyclesPerFrame { s with redraw := false } with
  | (s, some e) => (s, some e)
  | (s, none) =>
    (if s.redraw && !o.headless then { s with shown := s.machine.core.screen :: s.shown } else s, none)

def play (o : Options) : Nat → Session → Session × Option Ending
  | 0, s => (s, none)
  | n + 1, s =>
    match s.frame o with
    | (s, some e) => (s, some e)
    | (s, none) => play o n s

def clear : String := "\x1b[2J\x1b[H"

def output (s : Session) : String := String.join (s.shown.reverse.map fun screen => clear ++ screen.render)

end Session
end Chip8
