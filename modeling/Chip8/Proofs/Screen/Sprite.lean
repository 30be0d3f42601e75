import Chip8.Proofs.Screen.Pixels
import Chip8.Screen.Sprite

/-! What drawing a sprite does to a screen. Every set bit flips the pixel that it falls on, no pixel is
flipped twice, and bits that fall off the screen are lost. -/
namespace Chip8

namespace Screen
variable {s : Screen} {x y px py : Nat}

theorem get_flip (hx : px < width) (hy : py < height) :
    (s.flip x y).get px py = (s.get px py ^^ decide (px = x ∧ py = y)) := by
  rw [flip]
  by_cases hin : x < width ∧ y < height
  · rw [get, pixel_put _ hin.1 hin.2]
    by_cases h : px = x ∧ py = y
    · obtain ⟨rfl, rfl⟩ := h
      rw [if_pos ⟨rfl, rfl⟩]
      cases s.get px py <;> simp
    · simp [h, get]
  · rw [put_of_outside _ hin]
    have h : ¬ (px = x ∧ py = y) := fun h => hin ⟨h.1 ▸ hx, h.2 ▸ hy⟩
    simp [h]

namespace Drawing
variable {d d' d'' : Drawing} {mark mark' : Nat → Nat → Bool}

/-- From one drawing to the other the marked pixels of the screen have flipped, and no others. A collision
is a marked pixel that was lit. -/
structure Flips (d d' : Drawing) (mark : Nat → Nat → Bool) : Prop where
  pixel {px py : Nat} : px < width → py < height →
    d'.screen.get px py = (d.screen.get px py ^^ mark px py)
  collision : d'.collision = true ↔ d.collision = true ∨
    ∃ px < width, ∃ py < height, d.screen.get px py = true ∧ mark px py = true

private theorem flips_nothing (d : Drawing) : d.Flips d fun _ _ => false := ⟨by simp, by simp⟩

private theorem flips_point (d : Drawing) (x y : Nat) :
    d.Flips (d.flip x y) fun px py => decide (px = x ∧ py = y) where
  pixel hx hy := get_flip hx hy
  collision := by
    simp only [flip, Bool.or_eq_true, decide_eq_true_eq]
    refine or_congr_right ⟨fun h => ?_, ?_⟩
    · have hin : x < width ∧ y < height := by
        apply Decidable.of_not_not
        intro hout
        rw [get_of_outside hout] at h
        cases h
      exact ⟨x, hin.1, y, hin.2, h, rfl, rfl⟩
    · rintro ⟨_, _, _, _, h, rfl, rfl⟩
      exact h

/-- Pixels that are marked twice would flip back, and a collision could be of the sprite with itself. -/
theorem Flips.trans (h : d.Flips d' mark) (h' : d'.Flips d'' mark')
    (once : ∀ px py, mark px py = true → mark' px py = false) :
    d.Flips d'' fun px py => mark px py || mark' px py where
  pixel {px py} hx hy := by
    have hpx := once px py
    rw [h'.pixel hx hy, h.pixel hx hy]
    cases hm : mark px py <;> simp_all
  collision := by
    rw [h'.collision, h.collision, or_assoc]
    refine or_congr_right ⟨?_, ?_⟩
    · rintro (⟨px, hx, py, hy, hlit, hmark⟩ | ⟨px, hx, py, hy, hlit, hmark⟩)
      · exact ⟨px, hx, py, hy, hlit, by simp [hmark]⟩
      · have hpx := once px py
        rw [h.pixel hx hy] at hlit
        refine ⟨px, hx, py, hy, ?_, by simp [hmark]⟩
        cases hm : mark px py <;> simp_all
    · rintro ⟨px, hx, py, hy, hlit, hmark⟩
      rcases Bool.or_eq_true_iff.mp hmark with hm | hm
      · exact .inl ⟨px, hx, py, hy, hlit, hm⟩
      · refine .inr ⟨px, hx, py, hy, ?_, hm⟩
        have hpx := once px py
        rw [h.pixel hx hy]
        cases hm' : mark px py <;> simp_all

private theorem binary_row (x y : Nat) (h : d.screen.Binary) (bits : List Bool) : (row y x d bits).screen.Binary := by
  induction bits generalizing x d with
  | nil => exact h
  | cons bit rest ih =>
    refine ih (x + 1) ?_
    cases bit with
    | true => exact h.put x y _
    | false => exact h

theorem binary_rows (x y : Nat) (h : d.screen.Binary) (rows : List UInt8) :
    (Drawing.rows x y d rows).screen.Binary := by
  induction rows generalizing y d with
  | nil => exact h
  | cons row rest ih => exact ih (y + 1) (binary_row x y h (Sprite.bits row))

def rowMark (x y : Nat) (bits : List Bool) (px py : Nat) : Bool :=
  py == y && (decide (x ≤ px) && bits.getD (px - x) false)

private theorem rowMark_cons (bit : Bool) (rest : List Bool) : rowMark x y (bit :: rest) =
    fun px py => (bit && decide (px = x ∧ py = y)) || rowMark (x + 1) y rest px py := by
  funext px py
  rw [rowMark, rowMark]
  rcases Nat.lt_trichotomy px x with h | rfl | h
  · simp [Nat.not_le_of_lt h, Nat.ne_of_lt h, Nat.not_le_of_lt (Nat.lt_succ_of_lt h)]
  · rw [decide_eq_false (Nat.not_succ_le_self px), Bool.false_and, Bool.and_false, Bool.or_false]
    simp [Bool.and_comm, Bool.beq_eq_decide_eq]
  · have hs : px - x = px - (x + 1) + 1 := by omega
    rw [hs, List.getD_cons_succ]
    simp [Nat.le_of_lt h, Nat.ne_of_gt h, Nat.succ_le_of_lt h]

private theorem flips_row (x y : Nat) (d : Drawing) (bits : List Bool) :
    d.Flips (row y x d bits) (rowMark x y bits) := by
  induction bits generalizing x d with
  | nil =>
    have hnone : rowMark x y [] = fun _ _ => false := by
      funext px py
      simp [rowMark]
    rw [row, hnone]
    exact flips_nothing d
  | cons bit rest ih =>
    have hbit : d.Flips (if bit then d.flip x y else d) fun px py => bit && decide (px = x ∧ py = y) := by
      cases bit with
      | true => exact flips_point d x y
      | false => exact flips_nothing d
    rw [row, rowMark_cons]
    refine hbit.trans (ih (x + 1) _) ?_
    intro px py h
    have hpx : px = x := by simp_all
    rw [rowMark, hpx, decide_eq_false (Nat.not_succ_le_self x), Bool.false_and, Bool.and_false]

end Drawing
end Screen

namespace Sprite
variable {px py : Nat}

/-- The bit of a sprite that falls on a pixel, wherever the edges of the screen are. -/
def bit (s : Sprite) (px py : Nat) : Bool :=
  decide (s.x ≤ px ∧ px < s.x + 8 ∧ s.y ≤ py) && (s.rows.getD (py - s.y) 0).toNat.testBit (7 - (px - s.x))

private theorem getD_bits (row : UInt8) (k : Nat) :
    (bits row).getD k false = (decide (k < 8) && row.toNat.testBit (7 - k)) := by
  rw [bits, List.getD_eq_getElem?_getD, List.getElem?_map]
  by_cases h : k < 8
  · simp [h]
  · simp [h]

private theorem bit_nil (x y : Nat) : (⟨x, y, []⟩ : Sprite).bit = fun _ _ => false := by
  funext px py
  simp [bit]

private theorem bit_cons (x y : Nat) (row : UInt8) (rest : List UInt8) : (⟨x, y, row :: rest⟩ : Sprite).bit =
    fun px py => Screen.Drawing.rowMark x y (bits row) px py || (⟨x, y + 1, rest⟩ : Sprite).bit px py := by
  funext px py
  simp only [bit, Screen.Drawing.rowMark, getD_bits]
  rcases Nat.lt_trichotomy py y with h | rfl | h
  · simp [Nat.not_le_of_lt h, Nat.ne_of_lt h, Nat.not_le_of_lt (Nat.lt_succ_of_lt h)]
  · have hcolumn : (x ≤ px ∧ px - x < 8) = (x ≤ px ∧ px < x + 8) := by
      rw [eq_iff_iff]
      omega
    have hbelow : ¬ (x ≤ px ∧ px < x + 8 ∧ py + 1 ≤ py) := fun h => Nat.not_succ_le_self py h.2.2
    rw [decide_eq_false hbelow, Bool.false_and, Bool.or_false]
    simp only [← Bool.and_assoc, ← Bool.decide_and, hcolumn]
    simp
  · have hs : py - y = py - (y + 1) + 1 := by omega
    rw [hs, List.getD_cons_succ]
    simp [Nat.le_of_lt h, Nat.ne_of_gt h, Nat.succ_le_of_lt h]

end Sprite

namespace Screen

theorem Drawing.flips_rows (x y : Nat) (d : Drawing) (rows : List UInt8) :
    d.Flips (Drawing.rows x y d rows) (⟨x, y, rows⟩ : Sprite).bit := by
  induction rows generalizing y d with
  | nil =>
    rw [Drawing.rows, Sprite.bit_nil]
    exact flips_nothing d
  | cons row rest ih =>
    rw [Drawing.rows, Sprite.bit_cons]
    refine (flips_row x y d _).trans (ih (y + 1) _) ?_
    intro px py h
    have hpy : py = y := by
      rw [rowMark, Bool.and_eq_true, beq_iff_eq] at h
      exact h.1
    have hbelow : ¬ (x ≤ px ∧ px < x + 8 ∧ y + 1 ≤ py) := fun h => Nat.not_succ_le_self y (hpy ▸ h.2.2)
    rw [Sprite.bit, decide_eq_false hbelow, Bool.false_and]

/-- Drawing flips the pixels that bits of the sprite fall on, and collides with the lit ones among them. -/
theorem flips_draw (s : Screen) (sprite : Sprite) :
    (⟨s, false⟩ : Drawing).Flips (s.draw sprite) sprite.bit :=
  Drawing.flips_rows sprite.x sprite.y ⟨s, false⟩ sprite.rows

end Screen
end Chip8
