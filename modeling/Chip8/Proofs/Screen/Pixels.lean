import Chip8.Screen

/-! Pixels and their places in the array. On the screen every pixel has a place of its own, so a write changes
the one that it names and no other, and each byte of the array is 0 or 1. -/
namespace Chip8.Screen
variable {s t : Screen} {x y px py : Nat} {i : Fin size}

theorem index?_of_inside (h : x < width ∧ y < height) : index? x y = some ⟨offset x y, offset_lt h.1 h.2⟩ :=
  dif_pos h

theorem index?_of_outside (h : ¬ (x < width ∧ y < height)) : index? x y = none := dif_neg h

theorem inside_of_index? (h : index? x y = some i) : x < width ∧ y < height := by
  apply Decidable.of_not_not
  intro hout
  rw [index?_of_outside hout] at h
  cases h

/-- The rows do not overlap. -/
private theorem offset_inj (hx : x < width) (hpx : px < width) (h : offset px py = offset x y) : px = x ∧ py = y := by
  simp only [offset, width] at *
  omega

theorem index?_inj (h : index? x y = some i) (h' : index? px py = some i) : px = x ∧ py = y := by
  have hin := inside_of_index? h
  have hin' := inside_of_index? h'
  rw [index?_of_inside hin] at h
  rw [index?_of_inside hin'] at h'
  exact offset_inj hin.1 hin'.1 (congrArg Fin.val (Option.some.inj (h'.trans h.symm)))

/-- Every byte of the array is the pixel of some place. -/
theorem index?_surjective (i : Fin size) : ∃ x y, index? x y = some i := by
  have hsize : i.val < width * height := i.isLt
  have hx : i.val % width < width := Nat.mod_lt _ (by decide)
  have hy : i.val / width < height := Nat.div_lt_of_lt_mul hsize
  refine ⟨i % width, i / width, ?_⟩
  rw [index?_of_inside ⟨hx, hy⟩]
  simp only [offset, Nat.div_add_mod']

theorem pixel_of_index? (h : index? x y = some i) : s.pixel x y = s.pixels.get i := by
  rw [pixel, h]

theorem pixel_of_outside (h : ¬ (x < width ∧ y < height)) : s.pixel x y = 0 := by
  rw [pixel, index?_of_outside h]

/-- A screen is known by its pixels. -/
theorem ext_pixel (h : ∀ px py, px < width → py < height → s.pixel px py = t.pixel px py) : s = t := by
  obtain ⟨pixels⟩ := s
  obtain ⟨pixels'⟩ := t
  congr 1
  apply Vector.ext
  intro i hi
  obtain ⟨x, y, hplace⟩ := index?_surjective ⟨i, hi⟩
  have hin := inside_of_index? hplace
  have hpixel := h x y hin.1 hin.2
  rw [pixel_of_index? hplace, pixel_of_index? hplace] at hpixel
  exact hpixel

theorem put_of_outside (value : UInt8) (h : ¬ (x < width ∧ y < height)) : s.put x y value = s := by
  rw [put, index?_of_outside h]

theorem pixel_put (value : UInt8) (hx : x < width) (hy : y < height) (px py : Nat) :
    (s.put x y value).pixel px py = if px = x ∧ py = y then value &&& 1 else s.pixel px py := by
  have hi := index?_of_inside ⟨hx, hy⟩
  rw [put, hi]
  by_cases h : px = x ∧ py = y
  · obtain ⟨rfl, rfl⟩ := h
    rw [if_pos ⟨rfl, rfl⟩, pixel_of_index? hi]
    exact Vector.getElem_set_self _
  · rw [if_neg h]
    cases hp : index? px py with
    | none => rw [pixel, pixel, hp]
    | some j =>
      rw [pixel_of_index? hp, pixel_of_index? hp]
      refine Vector.getElem_set_ne (offset_lt hx hy) j.isLt fun hij => h ?_
      exact index?_inj hi (hp.trans (congrArg some (Fin.ext hij.symm)))

theorem pixel_dark (x y : Nat) : dark.pixel x y = 0 := by
  rw [pixel, dark]
  split
  · exact Vector.getElem_replicate _
  · rfl

/-- The array holds nothing but 0 and 1. -/
def Binary (s : Screen) : Prop := ∀ i : Fin size, s.pixels.get i = 0 ∨ s.pixels.get i = 1

theorem binary_dark : dark.Binary := fun _ => .inl (Vector.getElem_replicate _)

private theorem low_bit (value : UInt8) : value &&& 1 = 0 ∨ value &&& 1 = 1 := by
  simp only [← UInt8.toNat_inj, UInt8.toNat_and]
  exact Nat.mod_two_eq_zero_or_one value.toNat |>.imp (by simp) (by simp)

theorem Binary.put (h : s.Binary) (x y : Nat) (value : UInt8) : (s.put x y value).Binary := by
  rw [Screen.put]
  split
  · next i hi =>
    intro j
    by_cases hij : i.val = j.val
    · obtain rfl := Fin.ext hij
      have hself : (s.pixels.set i (value &&& 1)).get i = value &&& 1 := Vector.getElem_set_self _
      rw [hself]
      exact low_bit value
    · have hother : (s.pixels.set i (value &&& 1)).get j = s.pixels.get j := Vector.getElem_set_ne _ _ hij
      rw [hother]
      exact h j
  · exact h

theorem Binary.pixel (h : s.Binary) (x y : Nat) : s.pixel x y = 0 ∨ s.pixel x y = 1 := by
  rw [Screen.pixel]
  split
  · exact h _
  · exact .inl rfl

theorem get_of_outside (h : ¬ (px < width ∧ py < height)) : s.get px py = false := by
  rw [get, pixel_of_outside h]
  rfl

theorem Binary.ext_get (hs : s.Binary) (ht : t.Binary)
    (h : ∀ px py, px < width → py < height → s.get px py = t.get px py) : s = t := by
  apply ext_pixel
  intro px py hx hy
  have hget := h px py hx hy
  rw [get, get] at hget
  rcases hs.pixel px py with h0 | h1 <;> rcases ht.pixel px py with h0' | h1' <;> simp_all

end Chip8.Screen
