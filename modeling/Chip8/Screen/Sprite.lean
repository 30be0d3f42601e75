import Chip8.Screen

/-! Sprites are eight pixels wide and flip the screen where their bits are set. -/
namespace Chip8

/-- Rows from the top down, with the corner of the first at `x`, `y`. -/
structure Sprite where
  x : Nat
  y : Nat
  rows : List UInt8

namespace Sprite

def bits (row : UInt8) : List Bool := (List.range 8).map fun k => row.toNat.testBit (7 - k)

end Sprite

namespace Screen

/-- A screen being drawn on, and whether a lit pixel has gone dark so far. -/
structure Drawing where
  screen : Screen
  collision : Bool

def Drawing.flip (d : Drawing) (x y : Nat) : Drawing :=
  ⟨d.screen.flip x y, d.collision || d.screen.get x y⟩

def Drawing.row (y : Nat) (x : Nat) (d : Drawing) : List Bool → Drawing
  | [] => d
  | bit :: rest => Drawing.row y (x + 1) (if bit then d.flip x y else d) rest

def Drawing.rows (x : Nat) (y : Nat) (d : Drawing) : List UInt8 → Drawing
  | [] => d
  | row :: rest => Drawing.rows x (y + 1) (Drawing.row y x d (Sprite.bits row)) rest

def draw (s : Screen) (sprite : Sprite) : Drawing :=
  Drawing.rows sprite.x sprite.y ⟨s, false⟩ sprite.rows

end Screen
end Chip8
