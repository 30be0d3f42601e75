import Mathlib.Data.List.Flatten
import Mathlib.Data.List.Induction
import Chip8.Proofs.Screen.Pixels

/-! What a screen shows. A pixel is known from what was last put there, wherever else the screen was touched, and
the text frame tells each pixel of the screen from the others. -/
namespace Chip8

/-- What can be done to a screen from outside. -/
inductive Touch
  | put (x y : Nat) (value : UInt8)
  | reset
  deriving DecidableEq

namespace Touch
variable {x y px py : Nat} {value : UInt8} {history : List Touch}

def run : Touch → Screen → Screen
  | put x y value, s => s.put x y value
  | reset, s => s.reset

def at? (x y : Nat) : Touch → Option UInt8
  | put px py value => if px = x ∧ py = y then some value else none
  | reset => none

/-- The value last put at a place since the last reset, if there is one. -/
def last? (x y : Nat) (history : List Touch) : Option UInt8 :=
  (history.reverse.takeWhile (· ≠ reset)).findSome? (at? x y)

private theorem last?_reset : last? x y (history ++ [reset]) = none := by
  simp [last?]

private theorem last?_put : last? x y (history ++ [put px py value]) =
    if px = x ∧ py = y then some value else last? x y history := by
  rw [last?, List.reverse_append, List.reverse_singleton, List.singleton_append,
    List.takeWhile_cons_of_pos (by simp), List.findSome?_cons, at?]
  by_cases h : px = x ∧ py = y
  · rw [if_pos h, if_pos h]
  · rw [if_neg h, if_neg h]
    rfl

end Touch

namespace Screen
variable {s t : Screen} {x y : Nat}

def after (history : List Touch) : Screen := history.foldl (fun s touch => touch.run s) dark

theorem after_concat (history : List Touch) (touch : Touch) :
    after (history ++ [touch]) = touch.run (after history) := by
  rw [after, List.foldl_append]
  rfl

/-- A pixel holds the low bit of the value last put there. -/
theorem pixel_after (history : List Touch) (hx : x < width) (hy : y < height) :
    (after history).pixel x y = (Touch.last? x y history).getD 0 &&& 1 := by
  induction history using List.reverseRecOn with
  | nil => simp [after, pixel_dark, Touch.last?]
  | append_singleton history touch ih =>
    rw [after_concat]
    cases touch with
    | reset =>
      rw [Touch.last?_reset]
      exact pixel_dark x y
    | put px py value =>
      rw [Touch.last?_put, Touch.run]
      by_cases hin : px < width ∧ py < height
      · rw [pixel_put value hin.1 hin.2, ih]
        by_cases h : x = px ∧ y = py
        · rw [if_pos h, if_pos ⟨h.1.symm, h.2.symm⟩]
          rfl
        · rw [if_neg h, if_neg fun h' => h ⟨h'.1.symm, h'.2.symm⟩]
      · rw [put_of_outside value hin, ih, if_neg]
        rintro ⟨rfl, rfl⟩
        exact hin ⟨hx, hy⟩

theorem binary_after (history : List Touch) : (after history).Binary := by
  induction history using List.reverseRecOn with
  | nil => exact binary_dark
  | append_singleton history touch ih =>
    rw [after_concat]
    cases touch with
    | reset => exact binary_dark
    | put px py value => exact ih.put px py value

/-! The text frame walks through the array piece by piece, not by coordinates. -/

private theorem chunks_eq {α : Type} (n count : Nat) (l : List α) :
    chunks n count l = (List.range count).map fun k => (l.drop (k * n)).take n := by
  induction count generalizing l with
  | zero => rfl
  | succ count ih =>
    have hlater (k : Nat) : n + k * n = (k + 1) * n := by rw [Nat.succ_mul, Nat.add_comm]
    rw [chunks, ih, List.range_succ_eq_map, List.map_cons, List.map_map, Nat.zero_mul, List.drop_zero]
    simp only [List.drop_drop, hlater, Function.comp_def]

def row (s : Screen) (y : Nat) : List UInt8 := (List.range width).map fun x => s.pixel x y

private theorem take_drop_pixels (s : Screen) (hy : y < height) :
    (s.pixels.toList.drop (y * width)).take width = s.row y := by
  have hsize : (y + 1) * width ≤ size := Nat.mul_le_mul_right width hy
  rw [Nat.succ_mul] at hsize
  apply List.ext_getElem
  · rw [List.length_take, List.length_drop, Vector.length_toList, row, List.length_map, List.length_range]
    omega
  · intro x hx hx'
    have hw : x < width := by simpa [row] using hx'
    simp only [row, List.getElem_take, List.getElem_drop, Vector.getElem_toList, List.getElem_map,
      List.getElem_range, pixel_of_index? (index?_of_inside ⟨hw, hy⟩)]
    rfl

theorem rows_eq (s : Screen) : s.rows = (List.range height).map s.row := by
  have hcount : s.pixels.toList.length / width = height := by
    rw [Vector.length_toList]
    rfl
  rw [rows, chunksExact, hcount, chunks_eq]
  exact List.map_congr_left fun y hy => s.take_drop_pixels (List.mem_range.mp hy)

def line (s : Screen) (y : Nat) : List Char := (s.row y).map shade

/-- The text frame is made of the lines from the top down. -/
theorem toList_render (s : Screen) : s.render.toList = (List.range height).flatMap fun y => s.line y ++ ['\n'] := by
  rw [render, String.toList_ofList, rows_eq, List.flatMap_map]
  rfl

private theorem length_line (s : Screen) (y : Nat) : (s.line y).length = width := by
  rw [line, row, List.length_map, List.length_map, List.length_range]

/-- The lines come back from the text frame, since they are all of one length. -/
theorem line_eq_of_render_eq (h : s.render = t.render) (hy : y < height) : s.line y = t.line y := by
  have hlines : (List.range height).map (fun y => s.line y ++ ['\n']) =
      (List.range height).map fun y => t.line y ++ ['\n'] := by
    apply List.eq_iff_flatten_eq.mpr
    constructor
    · rw [← List.flatMap_def, ← List.flatMap_def, ← toList_render, ← toList_render, h]
    · simp only [List.map_map, Function.comp_def, List.length_append, length_line]
  have hline := List.map_inj_left.mp hlines y (List.mem_range.mpr hy)
  exact List.append_cancel_right hline

private theorem Binary.shade_eq (hs : s.Binary) (x y : Nat) :
    shade (s.pixel x y) = if s.pixel x y = 1 then '█' else '░' := by
  rcases hs.pixel x y with h | h <;> rw [h] <;> rfl

private theorem Binary.shade_inj (hs : s.Binary) (ht : t.Binary) (h : shade (s.pixel x y) = shade (t.pixel x y)) :
    s.pixel x y = t.pixel x y := by
  rcases hs.pixel x y with hp | hp <;> rcases ht.pixel x y with hq | hq <;> rw [hp, hq] at h ⊢ <;> cases h

private theorem Binary.line_eq (hs : s.Binary) (y : Nat) :
    s.line y = (List.range width).map fun x => if s.pixel x y = 1 then '█' else '░' := by
  simp only [line, row, List.map_map, Function.comp_def, hs.shade_eq]

theorem Binary.render_eq_iff (hs : s.Binary) (ht : t.Binary) :
    s.render = t.render ↔ ∀ x y, s.pixel x y = t.pixel x y := by
  constructor
  · intro h x y
    by_cases hin : x < width ∧ y < height
    · have hline := line_eq_of_render_eq h hin.2
      rw [line, line, row, row, List.map_map, List.map_map] at hline
      exact hs.shade_inj ht (List.map_inj_left.mp hline x (List.mem_range.mpr hin.1))
    · rw [pixel_of_outside hin, pixel_of_outside hin]
  · intro h
    rw [ext_pixel fun x y _ _ => h x y]

/-- Whatever was put on a new screen, a pixel holds the low bit of the value last put there since the last reset,
nothing off the screen counts, and the array holds nothing but 0 and 1. The text frame is a line of 64 characters
for each of the 32 rows, and two screens have the same one only if they agree in every pixel. -/
theorem screen_shows_latest (history other : List Touch) :
    (∀ x y, ((after history).pixel x y).toNat =
      if x < width ∧ y < height then ((Touch.last? x y history).getD 0).toNat % 2 else 0) ∧
    (∀ x y value, ¬ (x < width ∧ y < height) → after (history ++ [.put x y value]) = after history) ∧
    (∀ i : Fin size, (after history).pixels.get i = 0 ∨ (after history).pixels.get i = 1) ∧
    (after history).render.toList = (List.range height).flatMap (fun y =>
      (List.range width).map (fun x => if (after history).pixel x y = 1 then '█' else '░') ++ ['\n']) ∧
    ((after history).render = (after other).render ↔
      ∀ x y, (after history).pixel x y = (after other).pixel x y) := by
  have hbinary := binary_after history
  refine ⟨fun x y => ?_, fun x y value hout => ?_, hbinary, ?_, hbinary.render_eq_iff (binary_after other)⟩
  · split
    · next hin =>
      rw [pixel_after history hin.1 hin.2, UInt8.toNat_and]
      exact Nat.and_one_is_mod _
    · next hout =>
      rw [pixel_of_outside hout]
      rfl
  · rw [after_concat]
    exact put_of_outside value hout
  · rw [toList_render]
    simp only [hbinary.line_eq]

end Screen
end Chip8
