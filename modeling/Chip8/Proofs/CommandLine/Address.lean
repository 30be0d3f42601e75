import Mathlib.Data.List.TakeWhile
import Chip8.CommandLine.Address
import Chip8.Proofs.Text.Numeral

/-! Which texts are addresses. A mark in front decides the base; behind it stands a numeral of that base within
16 bits, and any other text is refused for the first of three reasons that applies. -/
namespace Chip8.CommandLine
open Text

def Marked (text : List Char) : Prop := ['0', 'x'] <+: text ∨ ['0', 'X'] <+: text

instance (text : List Char) : Decidable (Marked text) := inferInstanceAs (Decidable (_ ∨ _))

def radixOf (text : List Char) : Nat := if Marked text then 16 else 10

def unmarked (text : List Char) : List Char := if Marked text then text.drop 2 else text

def digitsOf (text : List Char) : List Char := unsigned (unmarked text)

/-- The text is a mark and a sign, as far as it has them, and then one digit or more, which spell `n`. -/
structure Spells (text : List Char) (n : Nat) : Prop where
  nonempty : digitsOf text ≠ []
  digits : ∀ c ∈ digitsOf text, isDigit (radixOf text) c
  number : numberOf (radixOf text) (digitsOf text) = n

/-- Why a text that is no address is refused. -/
def complaint (text : List Char) : String :=
  if unmarked text = [] then "cannot parse integer from empty string"
  else if 0xFFFF < numberOf (radixOf text) ((digitsOf text).takeWhile (isDigit (radixOf text))) then
    "number too large to fit in target type"
  else "invalid digit found in string"

private theorem radixOf_le (text : List Char) : radixOf text ≤ 16 := by
  rw [radixOf]
  split <;> decide

/-- The mark decides the base, and what stands behind it is read as a numeral of this base. -/
private theorem readAddress_eq_readNatural (s : String) : readAddress s =
    ((readNatural (radixOf s.toList) 0xFFFF (unmarked s.toList)).map UInt16.ofNat).mapError (AddressFault.mk s) := by
  by_cases hmarked : Marked s.toList
  · rw [radixOf, if_pos hmarked, unmarked, if_pos hmarked, readAddress]
    obtain ⟨rest, hrest⟩ | ⟨rest, hrest⟩ := hmarked
    all_goals
      rw [← hrest]
      simp only [List.cons_append, List.nil_append, List.drop_succ_cons, List.drop_zero]
      cases readNatural 16 0xFFFF rest <;> rfl
  · have hlower : ∀ rest, s.toList = '0' :: 'x' :: rest → False := fun rest h => hmarked (.inl ⟨rest, h.symm⟩)
    have hupper : ∀ rest, s.toList = '0' :: 'X' :: rest → False := fun rest h => hmarked (.inr ⟨rest, h.symm⟩)
    rw [radixOf, if_neg hmarked, unmarked, if_neg hmarked, readAddress]
    -- with no mark in front, only the last way to read is open
    simp only
    cases readNatural 10 0xFFFF s.toList <;> rfl

theorem readAddress_eq (s : String) : readAddress s =
    let number := numberOf (radixOf s.toList) ((digitsOf s.toList).takeWhile (isDigit (radixOf s.toList)))
    if unmarked s.toList = [] then .error ⟨s, .empty⟩
    else if 0xFFFF < number then .error ⟨s, .tooLarge⟩
    else if (digitsOf s.toList).all (isDigit (radixOf s.toList)) then .ok (.ofNat number)
    else .error ⟨s, .invalidDigit⟩ := by
  rw [readAddress_eq_readNatural, readNatural_eq (radixOf_le s.toList), ← digitsOf]
  dsimp only
  split_ifs <;> rfl

theorem readAddress_ok_iff (s : String) (v : UInt16) : readAddress s = .ok v ↔ Spells s.toList v.toNat := by
  rw [readAddress_eq]
  generalize s.toList = text
  constructor
  · intro h
    dsimp only at h
    split_ifs at h with hempty hlarge hdigits
    cases h
    rw [List.all_eq_true] at hdigits
    rw [List.takeWhile_eq_self_iff.mpr hdigits] at hlarge ⊢
    refine ⟨fun hnil => hempty (unsigned_eq_nil_iff.mp hnil), hdigits, ?_⟩
    exact (UInt16.toNat_ofNat_of_lt (Nat.lt_succ_of_le (Nat.not_lt.mp hlarge))).symm
  · rintro ⟨hnil, hdigits, hnumber⟩
    have hempty : unmarked text ≠ [] := fun h => hnil (unsigned_eq_nil_iff.mpr h)
    have hlarge : ¬ 0xFFFF < v.toNat := Nat.not_lt.mpr (Nat.le_of_lt_succ v.toNat_lt)
    dsimp only
    rw [List.takeWhile_eq_self_iff.mpr hdigits, hnumber, if_neg hempty, if_neg hlarge,
      if_pos (List.all_eq_true.mpr hdigits), UInt16.ofNat_toNat]

theorem readAddress_error {s : String} {f : AddressFault} (h : readAddress s = .error f) :
    ∃ reason, f = ⟨s, reason⟩ ∧ reason.message = complaint s.toList := by
  rw [readAddress_eq] at h
  dsimp only at h
  split_ifs at h with hempty hlarge hdigits
  all_goals cases h
  · exact ⟨_, rfl, by rw [complaint, if_pos hempty]; rfl⟩
  · exact ⟨_, rfl, by rw [complaint, if_neg hempty, if_pos hlarge]; rfl⟩
  · exact ⟨_, rfl, by rw [complaint, if_neg hempty, if_neg hlarge]; rfl⟩

/-- A text is read as the number that it spells, if it spells one of 16 bits. Any other text is refused with a
fault that names it, for the reason that it has no digits at all, that the digits in front spell a number too
large, or else that something is no digit. -/
theorem readAddress_exact (s : String) :
    (∀ v : UInt16, readAddress s = .ok v ↔ Spells s.toList v.toNat) ∧
    ∀ f, readAddress s = .error f ↔
      (∀ v : UInt16, ¬ Spells s.toList v.toNat) ∧ f.text = s ∧ f.reason.message = complaint s.toList := by
  refine ⟨readAddress_ok_iff s, fun f => ⟨fun h => ?_, ?_⟩⟩
  · obtain ⟨reason, rfl, hreason⟩ := readAddress_error h
    refine ⟨fun v hv => ?_, rfl, hreason⟩
    rw [(readAddress_ok_iff s v).mpr hv] at h
    cases h
  · rintro ⟨hnone, rfl, hreason⟩
    cases hread : readAddress f.text with
    | ok v => exact absurd ((readAddress_ok_iff _ v).mp hread) (hnone v)
    | error g =>
      obtain ⟨reason, rfl, hg⟩ := readAddress_error hread
      rw [NumeralFault.message_injective (hg.trans hreason.symm)]

/-- The number is too large before the last character is found to be no digit. -/
example : readAddress "0X+10000g" = .error ⟨"0X+10000g", .tooLarge⟩ := by decide

/-- A sign is a sign in front of something only. -/
example : readAddress "0x+" = .error ⟨"0x+", .invalidDigit⟩ := by decide

end Chip8.CommandLine
