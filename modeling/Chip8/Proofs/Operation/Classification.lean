import Chip8.Proofs.Operation.Decode

/-! The instruction set without its tree: which operation four digits ask for, row by row. The search in the
tree comes to the same, one subtree after the other, and the digits that are operands have no say in it. -/
namespace Chip8

namespace Operation

/-- The operation that a word of these digits asks for, if any does. An earlier row goes before a later one. -/
def ofDigits? : Nat → Nat → Nat → Nat → Option Operation
  | 0x0, 0x0, 0xE, 0x0 => some clearScreen
  | 0x0, 0x0, 0xE, 0xE => some leave
  | 0x0, 0x0, 0xE, _ => none
  | 0x0, _, _, _ => some hostCall
  | 0x1, _, _, _ => some jump
  | 0x2, _, _, _ => some call
  | 0x3, _, _, _ => some skipIfByte
  | 0x4, _, _, _ => some skipUnlessByte
  | 0x5, _, _, _ => some skipIfSame
  | 0x6, _, _, _ => some setByte
  | 0x7, _, _, _ => some addByte
  | 0x8, _, _, 0x0 => some copy
  | 0x8, _, _, 0x1 => some bitOr
  | 0x8, _, _, 0x2 => some bitAnd
  | 0x8, _, _, 0x3 => some bitXor
  | 0x8, _, _, 0x4 => some add
  | 0x8, _, _, 0x5 => some subtract
  | 0x8, _, _, 0x6 => some shiftRight
  | 0x8, _, _, 0x7 => some subtractFrom
  | 0x8, _, _, 0xE => some shiftLeft
  | 0x9, _, _, _ => some skipUnlessSame
  | 0xA, _, _, _ => some setIndex
  | 0xB, _, _, _ => some jumpOffset
  | 0xC, _, _, _ => some random
  | 0xD, _, _, _ => some draw
  | 0xE, _, 0x9, _ => some skipIfKey
  | 0xE, _, 0xA, _ => some skipUnlessKey
  | 0xF, _, 0x0, 0x7 => some readDelay
  | 0xF, _, 0x0, 0xA => some waitKey
  | 0xF, _, 0x1, 0x5 => some setDelay
  | 0xF, _, 0x1, 0x8 => some setSound
  | 0xF, _, 0x1, 0xE => some addIndex
  | 0xF, _, 0x2, _ => some pointGlyph
  | 0xF, _, 0x3, _ => some storeDecimal
  | 0xF, _, 0x5, _ => some storeBlock
  | 0xF, _, 0x6, _ => some loadBlock
  | _, _, _, _ => none

end Operation

namespace Pattern
open Operation
variable (b c d : Nat) (rest : List Nat)

@[simp] theorem search_leaf (operation : Operation) (digits : List Nat) :
    (leaf operation).search digits = some operation := by
  cases digits <;> rfl

@[simp] theorem search_branch_nil (other : Option Pattern) :
    (branch [] other).search (d :: rest) = other.bind fun p => p.search rest := by
  cases other <;> rfl

@[simp] theorem search_branch_cons (k : Nat) (p : Pattern) (exact : List (Nat × Pattern)) (other : Option Pattern) :
    (branch ((k, p) :: exact) other).search (d :: rest) =
      if d = k then p.search rest else (branch exact other).search (d :: rest) := by
  rw [search]
  by_cases h : d = k
  · rw [List.lookup_cons, beq_iff_eq.mpr h, if_pos h]
    rfl
  · rw [List.lookup_cons, beq_eq_false_iff_ne.mpr h, if_neg h, search]

private theorem search_arithmetic : arithmetic.search [d] = ofDigits? 0x8 b c d := by
  unfold ofDigits?
  split <;> simp_all [arithmetic, oneOf]

private theorem search_keys : keys.search [c, d] = ofDigits? 0xE b c d := by
  unfold ofDigits?
  split <;> simp_all [keys, oneOf]

private theorem search_timersAndBlocks : timersAndBlocks.search [c, d] = ofDigits? 0xF b c d := by
  unfold ofDigits?
  split <;> simp_all [timersAndBlocks, oneOf]

-- the words 00E- stay on their exact branch, the row before the ones for the host
private theorem search_zero : instructionSet.search [0x0, b, c, d] = ofDigits? 0x0 b c d := by
  unfold ofDigits?
  split <;> simp_all [instructionSet, screenAndReturn, oneOf, skip]

private theorem search_eq (a b c d : Nat) : instructionSet.search [a, b, c, d] = ofDigits? a b c d := by
  match a with
  | 0x0 => exact search_zero b c d
  | 0x8 => exact search_arithmetic b c d
  | 0xE => exact search_keys b c d
  | 0xF => exact search_timersAndBlocks b c d
  | 0x1 | 0x2 | 0x3 | 0x4 | 0x5 | 0x6 | 0x7 | 0x9 | 0xA | 0xB | 0xC | 0xD | _ + 0x10 => rfl
end Pattern

namespace Operation
variable {a b c d a' b' c' d' : Nat} {operation : Operation}

/-- The places, counted from the left, at which any digit at all leaves a word with the operation. -/
def freePlaces : Operation → List Nat
  | hostCall | jump | call | skipIfByte | skipUnlessByte | skipIfSame | setByte | addByte | skipUnlessSame
  | setIndex | jumpOffset | random | draw => [1, 2, 3]
  | copy | bitOr | bitAnd | bitXor | add | subtract | shiftRight | subtractFrom | shiftLeft => [1, 2]
  | skipIfKey | skipUnlessKey | pointGlyph | storeDecimal | storeBlock | loadBlock => [1, 3]
  | readDelay | waitKey | setDelay | setSound | addIndex => [1]
  | clearScreen | leave | unknown _ => []

theorem ofDigits?_eq_hostCall_iff : ofDigits? a b c d = some hostCall ↔ a = 0x0 ∧ (b = 0x0 → c ≠ 0xE) := by
  unfold ofDigits?
  split <;> simp_all

theorem ofDigits?_congr (h : ofDigits? a b c d = some operation)
    (agree : ∀ k < 4, k ∉ operation.freePlaces → [a', b', c', d'][k]? = [a, b, c, d][k]?)
    (outside : operation = hostCall → [a', b', c'] ≠ [0x0, 0x0, 0xE]) : ofDigits? a' b' c' d' = some operation := by
  have h0 : 0 ∉ operation.freePlaces → a' = a := fun hk => by simpa using agree 0 (by decide) hk
  by_cases host : operation = hostCall
  · subst host
    obtain ⟨rfl, -⟩ := ofDigits?_eq_hostCall_iff.mp h
    have ha : a' = 0x0 := h0 (by decide)
    refine ofDigits?_eq_hostCall_iff.mpr ⟨ha, fun hb hc => outside rfl ?_⟩
    rw [ha, hb, hc]
  · have h1 : 1 ∉ operation.freePlaces → b' = b := fun hk => by simpa using agree 1 (by decide) hk
    have h2 : 2 ∉ operation.freePlaces → c' = c := fun hk => by simpa using agree 2 (by decide) hk
    have h3 : 3 ∉ operation.freePlaces → d' = d := fun hk => by simpa using agree 3 (by decide) hk
    clear agree outside
    unfold ofDigits? at h
    -- every other row asks for each digit by itself or not at all, so the row that held still does
    split at h <;> cases h <;> simp [freePlaces] at host h0 h1 h2 h3 <;> subst_vars <;> rfl

theorem decode_eq (w : Word) : decode w = (ofDigits? (w.toNat / 0x1000) (w.toNat / 0x100 % 0x10)
    (w.toNat / 0x10 % 0x10) (w.toNat % 0x10)).getD (.unknown w) := by
  rw [decode, Word.digits, Pattern.search_eq]

/-- A word asks for what its digits stand for in the rows above. A word in no row is unknown, and the unknown
operation carries that word. Any other digits can stand at the free places, except that a call of the host must
not become one of the words 00E-. -/
theorem decode_classified (w : Word) :
    decode w = (ofDigits? (w.toNat / 0x1000) (w.toNat / 0x100 % 0x10) (w.toNat / 0x10 % 0x10)
      (w.toNat % 0x10)).getD (.unknown w) ∧
    (∀ v, decode w = .unknown v → v = w) ∧
    ∀ v : Word, (decode w).isUnknown = false →
      (∀ k < 4, k ∉ (decode w).freePlaces → v.digits[k]? = w.digits[k]?) →
      (decode w = .hostCall → v.digits.take 3 ≠ [0x0, 0x0, 0xE]) → decode v = decode w := by
  refine ⟨decode_eq w, fun v => decode_eq_unknown, fun v known agree outside => ?_⟩
  cases ho : ofDigits? (w.toNat / 0x1000) (w.toNat / 0x100 % 0x10) (w.toNat / 0x10 % 0x10) (w.toNat % 0x10) with
  | none =>
    rw [decode_eq, ho] at known
    cases known
  | some o =>
    have hw : decode w = o := by rw [decode_eq, ho, Option.getD_some]
    rw [hw] at agree outside ⊢
    rw [decode_eq, ofDigits?_congr ho agree outside, Option.getD_some]

example : decode 0x00E3 = .unknown 0x00E3 ∧ decode 0x00F3 = .hostCall := by decide

end Operation
end Chip8
