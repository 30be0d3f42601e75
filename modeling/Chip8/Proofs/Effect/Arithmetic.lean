import Chip8.Proofs.Effect

/-! Arithmetic on registers is arithmetic on whole numbers. What an operation comes to is computed without any
bound, and only the registers that it is written to cut it down to bytes, VX first and VF after it. -/
namespace Chip8

/-- The number for VX and the one for VF, if there is one. -/
structure Computation where
  value : Int
  flag? : Option Int

def Computation.numbers (computed : Computation) : List Int := computed.value :: computed.flag?.toList

def Setup.compute? (setup : Setup) (a b k : Int) : Operation → Option Computation
  | .addByte => some ⟨a + k, none⟩
  | .add => some ⟨a + b, some (decide (if setup.legacyCarry then (a + b) % 255 > 0 else a + b > 255)).toNat⟩
  | .subtract => some ⟨a - b, some (decide (a > b)).toNat⟩
  | .subtractFrom => some ⟨b - a, some (decide (b > a)).toNat⟩
  | .shiftRight => some ⟨a / 2, some (a % 2)⟩
  | .shiftLeft => some ⟨2 * a, some (a / 128)⟩
  | _ => none

/-- Writes what was computed, the flag last. A register keeps a number modulo 256. -/
def Registers.record (r : Registers) (x : Fin registerCount) (computed : Computation) : Registers :=
  match computed.flag? with
  | none => r.set x (.ofInt computed.value)
  | some flag => (r.set x (.ofInt computed.value)).set Registers.flag (.ofInt flag)

def Instruction.compute? (i : Instruction) (setup : Setup) (c : Core) : Option Computation :=
  setup.compute? (c.registers.get i.word.x).toNat (c.registers.get i.word.y).toNat i.word.kk.toNat i.operation

theorem toNat_decide (p : Prop) [Decidable p] : (decide p).toNat = if p then 1 else 0 := by
  by_cases h : p <;> simp [h]

theorem toNat_ofInt (n : Int) : (UInt8.ofInt n).toNat = (n % 256).toNat := by
  have h : (n % 256).toNat < 256 := by omega
  exact UInt8.toNat_ofNat_of_lt h

section Bytes
variable {a : UInt8} {n : Int}

private theorem eq_ofInt (h : (a.toNat : Int) = n % 256) : a = .ofInt n := by
  apply UInt8.toNat_inj.mp
  rw [toNat_ofInt, ← h]
  rfl

private theorem add_eq_ofInt (a b : UInt8) : a + b = .ofInt (a.toNat + b.toNat) :=
  eq_ofInt (by rw [UInt8.toNat_add]; rfl)

private theorem sub_eq_ofInt (a b : UInt8) : a - b = .ofInt (a.toNat - b.toNat) := by
  have ha := a.toNat_lt
  have hb := b.toNat_lt
  exact eq_ofInt (by rw [UInt8.toNat_sub]; omega)

private theorem half_eq_ofInt (a : UInt8) : a / 2 = .ofInt (a.toNat / 2) := by
  have ha := a.toNat_lt
  exact eq_ofInt (by rw [UInt8.toNat_div]; simp; omega)

private theorem double_eq_ofInt (a : UInt8) : a * 2 = .ofInt (2 * a.toNat) := by
  have ha := a.toNat_lt
  exact eq_ofInt (by rw [UInt8.toNat_mul]; simp; omega)

private theorem bit_eq_ofInt {p : Bool} {q : Prop} [Decidable q] (h : p = true ↔ q) :
    p.toUInt8 = .ofInt (decide q).toNat := by
  rw [Bool.eq_iff_iff.mpr (h.trans decide_eq_true_iff.symm)]
  cases decide q <;> rfl

private theorem low_bit_eq_ofInt (a : UInt8) : (a % 2 == 1).toUInt8 = .ofInt (a.toNat % 2) := by
  have hbit : (a.toNat % 2 : Int) = (decide (a.toNat % 2 = 1)).toNat := by
    rw [toNat_decide]
    split <;> omega
  rw [hbit]
  exact bit_eq_ofInt (by rw [beq_iff_eq, ← UInt8.toNat_inj]; simp)

private theorem high_bit_eq_ofInt (a : UInt8) : (decide (a ≥ 128)).toUInt8 = .ofInt (a.toNat / 128) := by
  have ha := a.toNat_lt
  have hbit : (a.toNat / 128 : Int) = (decide (128 ≤ a.toNat)).toNat := by
    rw [toNat_decide]
    split <;> omega
  rw [hbit]
  exact bit_eq_ofInt (by rw [decide_eq_true_iff, ge_iff_le, UInt8.le_iff_toNat_le]; simp)

private theorem carry_eq_ofInt (setup : Setup) (a b : UInt8) : (setup.carry a b).toUInt8 =
    .ofInt (decide (if setup.legacyCarry then (a.toNat + b.toNat : Int) % 255 > 0 else
      (a.toNat + b.toNat : Int) > 255)).toNat := by
  apply bit_eq_ofInt
  rw [Setup.carry]
  cases setup.legacyCarry <;> simp <;> omega

private theorem larger_eq_ofInt (a b : UInt8) :
    (decide (a > b)).toUInt8 = .ofInt (decide ((a.toNat : Int) > b.toNat)).toNat :=
  bit_eq_ofInt (by rw [decide_eq_true_iff, gt_iff_lt, UInt8.lt_iff_toNat_lt]; omega)

end Bytes

namespace Registers
variable {r : Registers} {x : Fin registerCount} {value flag : Int}

theorem get_flag_record : (r.record x ⟨value, some flag⟩).get Registers.flag = .ofInt flag := by
  rw [record, get_set, if_pos rfl]

theorem get_record {flag? : Option Int} (h : flag? = none ∨ x ≠ Registers.flag) :
    (r.record x ⟨value, flag?⟩).get x = .ofInt value := by
  cases flag? with
  | none => rw [record, get_set, if_pos rfl]
  | some flag =>
    have hx : Registers.flag ≠ x := (h.resolve_left nofun).symm
    rw [record, get_set, if_neg hx, get_set, if_pos rfl]

end Registers

namespace Instruction
variable {setup : Setup} {random : UInt8} {i : Instruction} {c : Core} {computed : Computation}

theorem compute?_of_operation {o : Operation} (h : i.operation = o) : i.compute? setup c =
    setup.compute? (c.registers.get i.word.x).toNat (c.registers.get i.word.y).toNat i.word.kk.toNat o := by
  rw [compute?, h]

/-- The operations that compute numbers, and no others. -/
theorem isSome_compute?_iff : (i.compute? setup c).isSome ↔
    i.operation ∈ [.addByte, .add, .subtract, .subtractFrom, .shiftRight, .shiftLeft] := by
  rw [compute?]
  cases i.operation <;> simp [Setup.compute?]

/-- An arithmetic instruction does nothing but write the numbers that it computes. -/
theorem effect_of_compute (h : i.compute? setup c = some computed) : i.effect setup random c =
    ({ c with registers := c.registers.record i.word.x computed }, .ok .next) := by
  rw [compute?] at h
  cases ho : i.operation <;> simp only [ho, Setup.compute?] at h <;> cases h <;>
    simp only [effect, perform, ho, RandomTape.run_pure, Core.setWithFlag, Core.setRegister,
      Registers.record]
  case addByte => rw [add_eq_ofInt]
  case add => rw [add_eq_ofInt, carry_eq_ofInt]
  case subtract => rw [sub_eq_ofInt, larger_eq_ofInt]
  case subtractFrom => rw [sub_eq_ofInt, larger_eq_ofInt]
  case shiftRight => rw [half_eq_ofInt, low_bit_eq_ofInt]
  case shiftLeft => rw [double_eq_ofInt, high_bit_eq_ofInt]

end Instruction
end Chip8
