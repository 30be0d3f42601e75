/-! Instruction words, two bytes with the high one first, and the operand fields cut out of them. -/
namespace Chip8

abbrev Word := UInt16

namespace Word

def high (w : Word) : UInt8 := (w / 256).toUInt8

def low (w : Word) : UInt8 := w.toUInt8

def ofBytes (high low : UInt8) : Word := high.toUInt16 * 256 + low.toUInt16

def nnn (w : Word) : UInt16 := w % 4096

def n (w : Word) : Nat := w.toNat % 16

def x (w : Word) : Fin 16 := ⟨w.toNat / 256 % 16, Nat.mod_lt _ (by decide)⟩

def y (w : Word) : Fin 16 := ⟨w.toNat / 16 % 16, Nat.mod_lt _ (by decide)⟩

def kk (w : Word) : UInt8 := w.low

def digits (w : Word) : List Nat :=
  [w.toNat / 4096, w.toNat / 256 % 16, w.toNat / 16 % 16, w.toNat % 16]

theorem toNat_ofBytes (high low : UInt8) : (ofBytes high low).toNat = 256 * high.toNat + low.toNat := by
  have h := high.toNat_lt
  have l := low.toNat_lt
  simp [ofBytes]
  omega

theorem toNat_high (w : Word) : w.high.toNat = w.toNat / 256 := by
  have h := UInt16.toNat_lt w
  simp [high]
  omega

theorem toNat_low (w : Word) : w.low.toNat = w.toNat % 256 := by simp [low]

theorem nnn_lt (w : Word) : w.nnn.toNat < 4096 := by
  simp [nnn]
  omega

theorem n_lt (w : Word) : w.n < 16 := Nat.mod_lt _ (by decide)

theorem high_ofBytes (high low : UInt8) : (ofBytes high low).high = high := by
  have l := low.toNat_lt
  apply UInt8.toNat_inj.mp
  rw [toNat_high, toNat_ofBytes]
  omega

theorem low_ofBytes (high low : UInt8) : (ofBytes high low).low = low := by
  have l := low.toNat_lt
  apply UInt8.toNat_inj.mp
  rw [toNat_low, toNat_ofBytes]
  omega

theorem ofBytes_high_low (w : Word) : ofBytes w.high w.low = w := by
  apply UInt16.toNat_inj.mp
  rw [toNat_ofBytes, toNat_high, toNat_low]
  omega

end Word
end Chip8
