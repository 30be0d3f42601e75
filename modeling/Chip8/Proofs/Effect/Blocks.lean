import Chip8.Proofs.Effect
import Chip8.Proofs.Memory.Agreement

/-! Block transfers byte by byte. FX55 and FX65 move one byte for each register as far as memory goes, however
the bytes are kept there, and touch nothing else. What has been moved once is moved again in vain. -/
namespace Chip8

namespace Registers
variable {r s : Registers}

theorem ext_get (h : ∀ i, r.get i = s.get i) : r = s := by
  have hvalues : r.values = s.values := Vector.ext fun k hk => h ⟨k, hk⟩
  exact congrArg Registers.mk hvalues

private theorem overwrite_overwrite (bytes : List UInt8) : (r.overwrite bytes).overwrite bytes = r.overwrite bytes := by
  apply ext_get
  intro i
  simp only [get_overwrite, List.getD_eq_getElem?_getD]
  cases bytes[i.val]? <;> rfl

end Registers

namespace Core
variable {c : Core} {x j : Fin registerCount} {a : Nat}

theorem readByte_storeBlock (h : c.memory.Coherent) (hj : j ≤ x) (hs : c.index.toNat + j < Memory.size) :
    (c.storeBlock x).1.memory.readByte (c.index.toNat + j) = .ok (c.registers.get j) := by
  have hlength := Registers.length_upTo c.registers x
  have hmem : c.index.toNat + j ∈ Memory.span c.index.toNat (c.registers.upTo x).length :=
    Memory.mem_span_iff.mpr ⟨Nat.le_add_right _ _, by omega, hs⟩
  rw [storeBlock, Memory.readByte_writeUpTo_of_mem h hmem (by omega),
    Registers.getElem_upTo _ _ _ (by omega) (by omega)]
  simp only [Nat.add_sub_cancel_left]

theorem readByte_storeBlock_of_outside (h : c.memory.Coherent) (ha : a ∉ Memory.span c.index.toNat (x + 1)) :
    (c.storeBlock x).1.memory.readByte a = c.memory.readByte a :=
  Memory.readByte_writeUpTo h (by rwa [Registers.length_upTo])

theorem get_loadBlock (h : c.memory.Coherent) (hj : j ≤ x) (hs : c.index.toNat + j < Memory.size) :
    c.memory.readByte (c.index.toNat + j) = .ok ((c.loadBlock x).1.registers.get j) := by
  rw [Memory.readByte_eq h, Bytes.read, dif_pos hs, loadBlock_eq h, Registers.get_overwrite,
    List.getD_eq_getElem?_getD, Bytes.getElem?_take_drop, if_pos (by omega), Vector.getElem?_eq_getElem hs,
    Option.getD_some]

theorem get_loadBlock_of_outside (h : c.memory.Coherent) (hj : x < j ∨ Memory.size ≤ c.index.toNat + j) :
    (c.loadBlock x).1.registers.get j = c.registers.get j := by
  have hnone : ((c.memory.bytes.toList.drop c.index.toNat).take (x + 1))[j.val]? = none := by
    rw [Bytes.getElem?_take_drop]
    split
    · exact Vector.getElem?_eq_none (by omega)
    · rfl
  rw [loadBlock_eq h, Registers.get_overwrite, List.getD_eq_getElem?_getD, hnone, Option.getD_none]

/-- With room for all registers nothing keeps a transfer from going on. -/
theorem blocks_of_fit (h : c.memory.Coherent) (hfit : c.index.toNat + x < Memory.size) :
    (c.storeBlock x).2 = .ok .next ∧ (c.loadBlock x).2 = .ok .next := by
  have hnone : Bytes.shortage c.index.toNat (x + 1) = none := if_pos (.inr hfit)
  obtain ⟨_, hstore, _, _⟩ := storeBlock_spec h x
  rw [hstore, loadBlock_eq h, hnone]
  exact ⟨rfl, rfl⟩

private theorem storeBlock_again (h : c.memory.Coherent) (x : Fin registerCount) :
    (c.storeBlock x).1.storeBlock x = c.storeBlock x := by
  simp only [storeBlock, Memory.writeUpTo_again h]

private theorem loadBlock_again (x : Fin registerCount) : (c.loadBlock x).1.loadBlock x = c.loadBlock x := by
  simp only [loadBlock, Registers.overwrite_overwrite]

end Core

namespace Instruction
variable {setup : Setup} {random : UInt8} {i : Instruction} {c : Core} {f : Fault}

/-- A failure has changed nothing but memory or registers. -/
theorem effect_rest_of_error (h : (i.effect setup random c).2 = .error f) :
    (i.effect setup random c).1 = { c with
      memory := (i.effect setup random c).1.memory
      registers := (i.effect setup random c).1.registers } := by
  by_cases hs : i.operation = .storeBlock
  · rw [effect_storeBlock hs]
    rfl
  · by_cases hl : i.operation = .loadBlock
    · rw [effect_loadBlock hl]
      rfl
    · rw [effect_core_of_error h hs hl]

/-- An instruction that fails has done all that it will ever do. -/
theorem effect_again (hc : c.memory.Coherent) (h : (i.effect setup random c).2 = .error f) :
    i.effect setup random (i.effect setup random c).1 = i.effect setup random c := by
  by_cases hs : i.operation = .storeBlock
  · simp only [effect_storeBlock hs, Core.storeBlock_again hc]
  · by_cases hl : i.operation = .loadBlock
    · simp only [effect_loadBlock hl, Core.loadBlock_again]
    · rw [effect_core_of_error h hs hl]

end Instruction
end Chip8
