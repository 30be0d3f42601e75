/-! A monochrome picture, 64 pixels wide and 32 high, with its origin at the top left. Each pixel is a byte, and
the rows lie one after the other in one array. -/
namespace Chip8

namespace Screen

abbrev width : Nat := 64

abbrev height : Nat := 32

abbrev size : Nat := width * height

end Screen

structure Screen where
  pixels : Vector UInt8 Screen.size
  deriving DecidableEq

namespace Screen

def dark : Screen := ⟨Vector.replicate size 0⟩

def reset (s : Screen) : Screen := { s with pixels := Vector.replicate size 0 }

def offset (x y : Nat) : Nat := y * width + x

theorem offset_lt {x y : Nat} (hx : x < width) (hy : y < height) : offset x y < size := by
  simp only [offset, width, height, size] at *
  omega

/-- The place of a pixel in the array. What is off the screen has none, even if its offset lies in the array. -/
def index? (x y : Nat) : Option (Fin size) :=
  if h : x < width ∧ y < height then some ⟨offset x y, offset_lt h.1 h.2⟩ else none

def pixel (s : Screen) (x y : Nat) : UInt8 :=
  match index? x y with
  | some i => s.pixels.get i
  | none => 0

/-- Only the low bit of a value counts, and none at all off the screen. -/
def put (s : Screen) (x y : Nat) (value : UInt8) : Screen :=
  match index? x y with
  | some i => { s with pixels := s.pixels.set i (value &&& 1) }
  | none => s

def get (s : Screen) (x y : Nat) : Bool := s.pixel x y == 1

def flip (s : Screen) (x y : Nat) : Screen := s.put x y (if s.get x y then 0 else 1)

def chunks {α : Type} (n : Nat) : Nat → List α → List (List α)
  | 0, _ => []
  | count + 1, l => l.take n :: chunks n count (l.drop n)

/-- As many pieces of `n` elements as there are; a shorter rest is left out. -/
def chunksExact {α : Type} (n : Nat) (l : List α) : List (List α) := chunks n (l.length / n) l

def rows (s : Screen) : List (List UInt8) := chunksExact width s.pixels.toList

def shade (pixel : UInt8) : Char := if pixel = 0 then '░' else '█'

def render (s : Screen) : String := String.ofList (s.rows.flatMap fun row => row.map shade ++ ['\n'])

end Screen
end Chip8
