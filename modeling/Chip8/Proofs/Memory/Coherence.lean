import Chip8.Proofs.Memory.Bytes

/-! Coherent cells: every stored instruction is the decode of its word, and the cell after it holds
the word's low byte. Under this invariant a cell tells its own byte, and splitting an instruction
changes no byte. -/
namespace Chip8

def Cell.leading : Cell → UInt8
  | byte value => value
  | instruction i => i.word.high

def Cell.plain (c : Cell) : Cell := .byte c.leading

namespace Memory
variable {m : Memory} {a k : Nat}

def bytes (m : Memory) : Bytes := m.cells.map Cell.leading

def Coherent (m : Memory) : Prop :=
  ∀ a i, m.cells[a]? = some (.instruction i) →
    i = .ofWord i.word ∧ m.cells[a + 1]? = some (.byte i.word.low)

theorem coherent_blank : blank.Coherent := by
  intro a i hi
  have hs := (Vector.getElem?_eq_some_iff.mp hi).1
  simp [blank, hs] at hi

theorem bytes_blank : blank.bytes = Bytes.zero := by
  apply Vector.ext
  intro k hk
  simp [bytes, blank, Bytes.zero, Cell.leading]

private theorem getElem?_bytes : m.bytes[k]? = m.cells[k]?.map Cell.leading := by
  simp [bytes]

private theorem cells_put (c : Cell) (h : a < size) :
    (m.put a c h).cells[k]? = if a = k then some c else m.cells[k]? := by
  simp only [put, Vector.getElem?_set]

private theorem put_self (h : a < size) : m.put a m.cells[a] h = m := by
  simp only [put, Vector.set_getElem_self]

/-! Splitting. -/

/-- Of the two bytes a split writes, the second is there already. -/
private theorem split_eq (hm : m.Coherent) (h : a < size) : m.split a h = m.put a m.cells[a].plain h := by
  rw [split]
  split
  · next value hc =>
    rw [hc, Cell.plain, Cell.leading, ← hc, put_self]
  · next i hc =>
    obtain ⟨_, hn⟩ := hm a i (by rw [Vector.getElem?_eq_getElem h, hc])
    have hk : a + 1 < size := (Vector.getElem?_eq_some_iff.mp hn).1
    have hl : (m.put a (.byte i.word.high) h).cells[a + 1] = .byte i.word.low := by
      have hp : (m.put a (.byte i.word.high) h).cells[a + 1]? = some (.byte i.word.low) := by
        rw [cells_put, if_neg (by omega), hn]
      exact (Vector.getElem?_eq_some_iff.mp hp).2
    simp only [hc, Cell.plain, Cell.leading, dif_pos hk, hl]
    rw [← hl, put_self]

private theorem coherent_split (hm : m.Coherent) (h : a < size) : (m.split a h).Coherent := by
  rw [split_eq hm]
  intro k i hk
  rw [cells_put] at hk
  split at hk
  · cases hk
  · obtain ⟨hd, hn⟩ := hm k i hk
    refine ⟨hd, ?_⟩
    rw [cells_put]
    split
    · next he =>
      have hl : m.cells[a] = .byte i.word.low := by
        subst he
        exact (Vector.getElem?_eq_some_iff.mp hn).2
      rw [hl]
      rfl
    · exact hn

private theorem cells_split (hm : m.Coherent) (h : a < size) :
    (m.split a h).cells[k]? = if a = k then m.cells[k]?.map .plain else m.cells[k]? := by
  rw [split_eq hm, cells_put]
  split
  · next he => subst he; rw [Vector.getElem?_eq_getElem h]; rfl
  · rfl

private theorem coherent_splitBefore (hm : m.Coherent) (h : a < size) : (m.splitBefore a h).Coherent := by
  cases a with
  | zero => exact hm
  | succ a => exact coherent_split hm _

private theorem cells_splitBefore (hm : m.Coherent) (h : a < size) :
    (m.splitBefore a h).cells[k]? = if k + 1 = a then m.cells[k]?.map .plain else m.cells[k]? := by
  cases a with
  | zero => rfl
  | succ a =>
    rw [splitBefore, cells_split hm]
    simp only [Nat.add_right_cancel_iff, eq_comm]

/-! Writing. -/

theorem cells_setByte (hm : m.Coherent) (value : UInt8) (h : a < size) :
    (m.setByte a value h).cells[k]? =
      if a = k then some (.byte value)
      else if k + 1 = a then m.cells[k]?.map .plain else m.cells[k]? := by
  rw [setByte, cells_put, cells_split (coherent_splitBefore hm h), cells_splitBefore hm]
  by_cases hk : a = k
  · rw [if_pos hk, if_pos hk]
  · rw [if_neg hk, if_neg hk, if_neg hk]

theorem cells_setInstruction (hm : m.Coherent) (i : Instruction) (h : a + 1 < size) :
    (m.setInstruction a i h).cells[k]? =
      if a = k then some (.instruction i)
      else if a + 1 = k then some (.byte i.word.low)
      else if k + 1 = a then m.cells[k]?.map .plain else m.cells[k]? := by
  have ha : a < size := Nat.lt_of_succ_lt h
  have hb := coherent_splitBefore hm ha
  simp only [setInstruction, cells_put]
  rw [cells_split (coherent_split hb ha), cells_split hb, cells_splitBefore hm]
  by_cases hk : a = k
  · have hn : ¬ a + 1 = k := by omega
    rw [if_neg hn, if_pos hk, if_pos hk]
  · by_cases hn : a + 1 = k
    · rw [if_pos hn, if_neg hk, if_pos hn]
    · rw [if_neg hn, if_neg hk, if_neg hn, if_neg hk, if_neg hk, if_neg hn]

/-- A split cell holds a byte. -/
theorem not_plain {c : Option Cell} {i : Instruction} :
    c.map Cell.plain ≠ some (.instruction i) := by
  cases c <;> simp [Cell.plain]

theorem coherent_setByte (hm : m.Coherent) (value : UInt8) (h : a < size) :
    (m.setByte a value h).Coherent := by
  intro k i hk
  rw [cells_setByte hm] at hk ⊢
  split at hk
  · cases hk
  · next hak =>
    split at hk
    · exact absurd hk not_plain
    · next hka =>
      obtain ⟨hd, hn⟩ := hm k i hk
      have hne : ¬ a = k + 1 := by omega
      refine ⟨hd, ?_⟩
      rw [if_neg hne, hn]
      split
      · rfl
      · rfl

theorem coherent_setInstruction (hm : m.Coherent) (w : Word) (h : a + 1 < size) :
    (m.setInstruction a (.ofWord w) h).Coherent := by
  intro k i hk
  rw [cells_setInstruction hm] at hk ⊢
  split at hk
  · next hak =>
    cases hk
    subst hak
    refine ⟨rfl, ?_⟩
    rw [if_neg (by omega), if_pos rfl]
  · next hak =>
    split at hk
    · cases hk
    · next hak' =>
      split at hk
      · exact absurd hk not_plain
      · next hka =>
        obtain ⟨hd, hn⟩ := hm k i hk
        refine ⟨hd, ?_⟩
        rw [if_neg (by omega), if_neg (by omega), hn]
        split
        · rfl
        · rfl

/-- Splitting changes no byte. -/
private theorem leading_plain {p : Prop} [Decidable p] (c : Option Cell) :
    (if p then c.map Cell.plain else c).map Cell.leading = c.map Cell.leading := by
  split
  · cases c <;> rfl
  · rfl

theorem bytes_setByte (hm : m.Coherent) (value : UInt8) (h : a < size) :
    (m.setByte a value h).bytes = m.bytes.overlay a [value] := by
  apply Vector.ext
  intro k hk
  apply Option.some.inj
  rw [← Vector.getElem?_eq_getElem, getElem?_bytes, cells_setByte hm]
  by_cases hak : a = k
  · subst hak
    rw [if_pos rfl, Bytes.getElem_overlay_of_inside _ hk (Nat.le_refl a) (by simp)]
    simp [Cell.leading]
  · rw [if_neg hak, Bytes.getElem_overlay_of_outside _ hk (by simp; omega),
      ← Vector.getElem?_eq_getElem, getElem?_bytes, leading_plain]

theorem bytes_setInstruction (hm : m.Coherent) (i : Instruction) (h : a + 1 < size) :
    (m.setInstruction a i h).bytes = m.bytes.overlay a [i.word.high, i.word.low] := by
  apply Vector.ext
  intro k hk
  apply Option.some.inj
  rw [← Vector.getElem?_eq_getElem, getElem?_bytes, cells_setInstruction hm]
  by_cases hak : a = k
  · subst hak
    rw [if_pos rfl, Bytes.getElem_overlay_of_inside _ hk (Nat.le_refl a) (by simp)]
    simp [Cell.leading]
  · by_cases hn : a + 1 = k
    · subst hn
      rw [if_neg hak, if_pos rfl, Bytes.getElem_overlay_of_inside _ hk (by omega) (by simp)]
      simp [Cell.leading]
    · rw [if_neg hak, if_neg hn, Bytes.getElem_overlay_of_outside _ hk (by simp; omega),
        ← Vector.getElem?_eq_getElem, getElem?_bytes, leading_plain]

/-- Past the first address that cannot be written there is nothing to write. -/
theorem writeUpTo_spec (hm : m.Coherent) (data : List UInt8) :
    (m.writeUpTo a data).1.Coherent ∧ (m.writeUpTo a data).1.bytes = m.bytes.overlay a data ∧
      (m.writeUpTo a data).2 = Bytes.shortage a data.length := by
  induction data generalizing m a with
  | nil => exact ⟨hm, Bytes.overlay_nil.symm, Bytes.shortage_zero.symm⟩
  | cons b rest ih =>
    rw [writeUpTo]
    split
    · next h =>
      obtain ⟨hc, hb, hf⟩ := ih (a := a + 1) (coherent_setByte hm b h)
      refine ⟨hc, ?_, ?_⟩
      · rw [hb, bytes_setByte hm, ← Bytes.overlay_cons]
      · rw [hf, List.length_cons, Bytes.shortage_succ _ h]
    · next h =>
      have hs : size ≤ a := Nat.le_of_not_lt h
      exact ⟨hm, (Bytes.overlay_of_size_le _ hs).symm, (Bytes.shortage_of_size_le _ hs).symm⟩

/-! Writing again. -/

private theorem ext_cells {n : Memory} (h : ∀ k : Nat, m.cells[k]? = n.cells[k]?) : m = n := by
  have hcells : m.cells = n.cells := by
    apply Vector.ext
    intro k hk
    apply Option.some.inj
    rw [← Vector.getElem?_eq_getElem, ← Vector.getElem?_eq_getElem, h]
  exact congrArg Memory.mk hcells

/-- A plain byte that no instruction reaches into is overwritten by itself in vain. -/
private theorem setByte_self (hm : m.Coherent) {value : UInt8} (h : a < size) (hc : m.cells[a]? = some (.byte value))
    (hbefore : ∀ k, k + 1 = a → ∃ u, m.cells[k]? = some (.byte u)) : m.setByte a value h = m := by
  apply ext_cells
  intro k
  rw [cells_setByte hm]
  split
  · next he => rw [← he, hc]
  · split
    · next hk =>
      obtain ⟨u, hu⟩ := hbefore k hk
      rw [hu]
      rfl
    · rfl

/-- Plain bytes stay that lie before what is written. -/
private theorem cells_writeUpTo_of_lt (hm : m.Coherent) (data : List UInt8) {value : UInt8} (hk : k < a)
    (hc : m.cells[k]? = some (.byte value)) : (m.writeUpTo a data).1.cells[k]? = some (.byte value) := by
  induction data generalizing m a with
  | nil => exact hc
  | cons b rest ih =>
    rw [writeUpTo]
    split
    · next h =>
      refine ih (coherent_setByte hm b h) (Nat.lt_succ_of_lt hk) ?_
      rw [cells_setByte hm, if_neg (Nat.ne_of_gt hk), hc]
      split <;> rfl
    · exact hc

/-- What has been written is plain, so that to write it again changes no cell. -/
theorem writeUpTo_again (hm : m.Coherent) (data : List UInt8) :
    (m.writeUpTo a data).1.writeUpTo a data = m.writeUpTo a data := by
  induction data generalizing m a with
  | nil => rfl
  | cons b rest ih =>
    by_cases h : a < size
    · have hb := coherent_setByte hm b h
      have hfirst : (m.setByte a b h).cells[a]? = some (.byte b) := by rw [cells_setByte hm, if_pos rfl]
      have hself : ((m.setByte a b h).writeUpTo (a + 1) rest).1.setByte a b h =
          ((m.setByte a b h).writeUpTo (a + 1) rest).1 := by
        refine setByte_self (writeUpTo_spec hb rest).1 h
          (cells_writeUpTo_of_lt hb rest (Nat.lt_succ_self a) hfirst) fun k hk => ?_
        -- the cell before was split when the first byte was written
        refine ⟨m.cells[k].leading, cells_writeUpTo_of_lt hb rest (by omega) ?_⟩
        rw [cells_setByte hm, if_neg (by omega), if_pos hk, Vector.getElem?_eq_getElem (by omega)]
        rfl
      simp only [writeUpTo, dif_pos h, hself, ih hb]
    · simp only [writeUpTo, dif_neg h]

/-! Reading. -/

private theorem reachingInto_some {i : Instruction} (h : m.reachingInto a = some i) :
    ∃ k, a = k + 1 ∧ m.cells[k]? = some (.instruction i) := by
  cases a with
  | zero => cases h
  | succ k =>
    refine ⟨k, rfl, ?_⟩
    simp only [reachingInto] at h
    split at h
    · next hc => rw [hc, Option.some.inj h]
    · cases h

theorem readByte_eq (hm : m.Coherent) (a : Nat) : m.readByte a = m.bytes.read a := by
  rw [readByte, Bytes.read]
  by_cases h : a < size
  · rw [dif_pos h, Vector.getElem?_eq_getElem h]
    have hb : m.bytes[a] = m.cells[a].leading := by simp [bytes]
    rw [hb]
    cases hc : m.cells[a] with
    | instruction i => rfl
    | byte value =>
      cases hr : m.reachingInto a with
      | none => rfl
      | some i =>
        obtain ⟨k, rfl, hk⟩ := reachingInto_some hr
        have hn := (hm k i hk).2
        rw [Vector.getElem?_eq_getElem h, hc] at hn
        simp [Cell.byte.inj (Option.some.inj hn), Cell.leading]
  · rw [dif_neg h, Vector.getElem?_eq_none (Nat.le_of_not_lt h)]

theorem readWord_eq (hm : m.Coherent) (a : Nat) : m.readWord a = m.bytes.readWord a := by
  rw [readWord, readByte_eq hm, readByte_eq hm, Bytes.readWord]
  by_cases h : a < size
  · by_cases hn : a + 1 < size
    · simp [Bytes.read, h, hn, bind, Except.bind, pure, Except.pure]
    · have hs : max a size = a + 1 := by omega
      simp [Bytes.read, h, hn, hs, bind, Except.bind]
  · have hs : max a size = a := by omega
    have hn : ¬ a + 1 < size := by omega
    simp [Bytes.read, h, hn, hs, bind, Except.bind]

/-- A decode that was kept is the one that its two bytes give. -/
theorem fetch_eq (hm : m.Coherent) (a : Nat) : m.fetch a = m.bytes.fetch a := by
  rw [fetch, cell, Bytes.fetch, readWord_eq hm]
  by_cases h : a < size
  · rw [Vector.getElem?_eq_getElem h]
    cases hc : m.cells[a] with
    | byte value =>
      cases m.bytes.readWord a <;> rfl
    | instruction i =>
      obtain ⟨hd, hn⟩ := hm a i (by rw [Vector.getElem?_eq_getElem h, hc])
      obtain ⟨hs, hl⟩ := Vector.getElem?_eq_some_iff.mp hn
      have hw : m.bytes.readWord a = .ok i.word := by
        rw [Bytes.readWord, dif_pos hs]
        simp [bytes, hc, hl, Cell.leading, Word.ofBytes_high_low]
      rw [hw]
      exact congrArg Except.ok hd
  · rw [Vector.getElem?_eq_none (Nat.le_of_not_lt h), Bytes.readWord, dif_neg (by omega),
      Nat.max_eq_left (Nat.le_of_not_lt h)]
    rfl

theorem readUpTo_eq (hm : m.Coherent) (a count : Nat) :
    m.readUpTo a count = ((m.bytes.toList.drop a).take count, Bytes.shortage a count) := by
  induction count generalizing a with
  | zero => rw [readUpTo, List.take_zero, Bytes.shortage_zero]
  | succ count ih =>
    rw [readUpTo, readByte_eq hm, Bytes.read]
    by_cases h : a < size
    · rw [dif_pos h, Bytes.take_drop_eq_cons _ h, Bytes.shortage_succ _ h, ih]
    · have hs : size ≤ a := Nat.le_of_not_lt h
      rw [dif_neg h, Bytes.shortage_of_size_le _ hs, List.drop_eq_nil_of_le (by simpa using hs)]
      rfl

theorem readRange_eq (hm : m.Coherent) (a count : Nat) :
    m.readRange a count = m.bytes.readRange a count := by
  rw [readRange, readUpTo_eq hm, Bytes.readRange, Bytes.shortage]
  by_cases h : count = 0 ∨ a + count ≤ size
  · simp only [if_pos h]
  · simp only [if_neg h]

end Memory
end Chip8
