import Chip8.Proofs.Memory.Coherence

/-! Memories that need not agree everywhere. What is read from two of them is the same if all bytes that the
read takes are known to be, and what is written to both is the same from then on. Which bytes are kept decoded
makes no difference to either. -/
namespace Chip8.Memory
variable {hidden : Nat → Prop} {m n : Memory} {a k count : Nat}

def span (a count : Nat) : List Nat := (List.range' a count).filter (· < size)

theorem mem_span_iff : k ∈ span a count ↔ a ≤ k ∧ k < a + count ∧ k < size := by
  simp [span, and_assoc]

/-- Bytes outside of what is written stay. -/
theorem readByte_writeUpTo (hm : m.Coherent) {data : List UInt8} (hk : k ∉ span a data.length) :
    (m.writeUpTo a data).1.readByte k = m.readByte k := by
  obtain ⟨hc, hb, _⟩ := writeUpTo_spec (a := a) hm data
  rw [readByte_eq hc, readByte_eq hm, hb]
  by_cases hs : k < size
  · rw [mem_span_iff] at hk
    exact Bytes.read_overlay_of_outside data (by omega)
  · rw [Bytes.read, Bytes.read, dif_neg hs, dif_neg hs]

theorem readByte_writeUpTo_of_mem (hm : m.Coherent) {data : List UInt8} (hk : k ∈ span a data.length)
    (h : k - a < data.length) : (m.writeUpTo a data).1.readByte k = .ok data[k - a] := by
  obtain ⟨hc, hb, _⟩ := writeUpTo_spec (a := a) hm data
  obtain ⟨ha, _, hs⟩ := mem_span_iff.mp hk
  rw [readByte_eq hc, hb, Bytes.read_overlay_of_inside data hs ha h]

/-- Coherent memories that show the same byte at every address that is not hidden. -/
structure AgreeOutside (hidden : Nat → Prop) (m n : Memory) : Prop where
  left : m.Coherent
  right : n.Coherent
  readByte : ∀ a, ¬ hidden a → m.readByte a = n.readByte a

namespace AgreeOutside

theorem mono (h : m.AgreeOutside hidden n) {more : Nat → Prop} (hmore : ∀ a, hidden a → more a) :
    m.AgreeOutside more n :=
  ⟨h.left, h.right, fun a ha => h.readByte a (mt (hmore a) ha)⟩

theorem getElem (h : m.AgreeOutside hidden n) (ha : ¬ hidden a) (hs : a < size) : m.bytes[a] = n.bytes[a] := by
  have hr := h.readByte a ha
  rw [readByte_eq h.left, readByte_eq h.right, Bytes.read, Bytes.read, dif_pos hs, dif_pos hs] at hr
  exact Except.ok.inj hr

/-- The bytes of a range as far as memory goes. -/
private theorem window (h : m.AgreeOutside hidden n) (hr : ∀ k ∈ span a count, ¬ hidden k) :
    (m.bytes.toList.drop a).take count = (n.bytes.toList.drop a).take count := by
  apply List.ext_getElem?
  intro j
  rw [Bytes.getElem?_take_drop, Bytes.getElem?_take_drop]
  by_cases hj : j < count
  · rw [if_pos hj, if_pos hj]
    by_cases hs : a + j < size
    · have hk := hr (a + j) (mem_span_iff.mpr ⟨Nat.le_add_right a j, Nat.add_lt_add_left hj a, hs⟩)
      rw [Vector.getElem?_eq_getElem hs, Vector.getElem?_eq_getElem hs, h.getElem hk hs]
    · rw [Vector.getElem?_eq_none (Nat.le_of_not_lt hs), Vector.getElem?_eq_none (Nat.le_of_not_lt hs)]
  · rw [if_neg hj, if_neg hj]

theorem readUpTo (h : m.AgreeOutside hidden n) (hr : ∀ k ∈ span a count, ¬ hidden k) :
    m.readUpTo a count = n.readUpTo a count := by
  rw [readUpTo_eq h.left, readUpTo_eq h.right, h.window hr]

theorem readRange (h : m.AgreeOutside hidden n) (hr : ∀ k ∈ span a count, ¬ hidden k) :
    m.readRange a count = n.readRange a count := by
  rw [Memory.readRange, Memory.readRange, h.readUpTo hr]

theorem fetch (h : m.AgreeOutside hidden n) (hr : ∀ k ∈ span a 2, ¬ hidden k) : m.fetch a = n.fetch a := by
  rw [fetch_eq h.left, fetch_eq h.right, Bytes.fetch, Bytes.fetch, Bytes.readWord, Bytes.readWord]
  by_cases hs : a + 1 < size
  · have hhigh := hr a (mem_span_iff.mpr ⟨Nat.le_refl a, by omega, by omega⟩)
    have hlow := hr (a + 1) (mem_span_iff.mpr ⟨Nat.le_succ a, by omega, hs⟩)
    rw [dif_pos hs, dif_pos hs, h.getElem hhigh (Nat.lt_of_succ_lt hs), h.getElem hlow hs]
  · rw [dif_neg hs, dif_neg hs]

/-- A byte that is written to both memories is hidden no longer. -/
theorem writeUpTo (h : m.AgreeOutside hidden n) (data : List UInt8) :
    (m.writeUpTo a data).2 = (n.writeUpTo a data).2 ∧
      (m.writeUpTo a data).1.AgreeOutside (fun k => hidden k ∧ k ∉ span a data.length)
        (n.writeUpTo a data).1 := by
  obtain ⟨hcm, _, hfm⟩ := writeUpTo_spec (a := a) h.left data
  obtain ⟨hcn, _, hfn⟩ := writeUpTo_spec (a := a) h.right data
  refine ⟨hfm.trans hfn.symm, hcm, hcn, ?_⟩
  intro k hk
  by_cases hs : k ∈ span a data.length
  · have hin : k - a < data.length := by
      obtain ⟨ha, hl, _⟩ := mem_span_iff.mp hs
      omega
    rw [readByte_writeUpTo_of_mem h.left hs hin, readByte_writeUpTo_of_mem h.right hs hin]
  · rw [readByte_writeUpTo h.left hs, readByte_writeUpTo h.right hs]
    exact h.readByte k fun hh => hk ⟨hh, hs⟩

end AgreeOutside
end Chip8.Memory
