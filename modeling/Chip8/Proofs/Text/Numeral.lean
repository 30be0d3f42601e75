import Mathlib.Data.Nat.Digits.Defs
import Mathlib.Tactic.IntervalCases
import Mathlib.Tactic.Ring
import Chip8.Text.Numeral

/-! Numerals in positional notation. The reader takes one character after the other and gives up at the first
that it cannot take; what it answers is known from the digits that the text begins with. -/
namespace Chip8.Text
variable {radix limit value : Nat} {c : Char} {text : List Char}

theorem NumeralFault.message_injective {a b : NumeralFault} (h : a.message = b.message) : a = b := by
  cases a <;> cases b <;> simp [NumeralFault.message] at h ⊢

def hexAlphabet : List Char := (List.range 16).map Nat.digitChar

/-- What a digit counts, in either case. What is no digit at all counts 16. -/
def digitValue (c : Char) : Nat := hexAlphabet.idxOf c.toLower

def isDigit (radix : Nat) (c : Char) : Bool := digitValue c < radix

def numberOf (radix : Nat) (digits : List Char) : Nat := Nat.ofDigits radix (digits.map digitValue).reverse

private theorem numberOf_nil : numberOf radix [] = 0 := rfl

private theorem numberOf_cons (c : Char) (digits : List Char) :
    numberOf radix (c :: digits) = digitValue c * radix ^ digits.length + numberOf radix digits := by
  rw [numberOf, List.map_cons, List.reverse_cons, Nat.ofDigits_append, Nat.ofDigits_singleton,
    List.length_reverse, List.length_map, numberOf]
  ring

private theorem toNat_toLower (c : Char) :
    c.toLower.toNat = if 65 ≤ c.toNat ∧ c.toNat ≤ 90 then c.toNat + 32 else c.toNat := by
  have hcapital : c.val ≥ 'A'.val ∧ c.val ≤ 'Z'.val ↔ 65 ≤ c.toNat ∧ c.toNat ≤ 90 := Iff.rfl
  delta Char.toLower
  by_cases h : 65 ≤ c.toNat ∧ c.toNat ≤ 90
  · rw [dif_pos (hcapital.mpr h), if_pos h]
    change (c.val + 32).toNat = c.toNat + 32
    rw [UInt32.toNat_add, Char.toNat_val]
    simp
    omega
  · rw [dif_neg (mt hcapital.mp h), if_neg h]

private theorem mem_hexAlphabet_iff : c ∈ hexAlphabet ↔
    (48 ≤ c.toNat ∧ c.toNat ≤ 57) ∨ (97 ≤ c.toNat ∧ c.toNat ≤ 102) := by
  have hm : c ∈ hexAlphabet ↔ ∃ d < 16, d.digitChar = c := by simp [hexAlphabet]
  rw [hm]
  constructor
  · rintro ⟨d, hd, rfl⟩
    interval_cases d <;> decide
  · rintro (⟨hl, hu⟩ | ⟨hl, hu⟩)
    · refine ⟨c.toNat - 48, by omega, Char.toNat_inj.mp ?_⟩
      rw [Nat.toNat_digitChar_of_lt_ten (by omega)]
      omega
    · obtain ⟨d, hd⟩ : ∃ d, c.toNat = 97 + d := ⟨c.toNat - 97, by omega⟩
      have hle : d ≤ 5 := by omega
      refine ⟨d + 10, by omega, Char.toNat_inj.mp ?_⟩
      rw [hd]
      interval_cases d <;> rfl

/-- Digits that follow each other count on. -/
private theorem digitValue_of_range (first : Char) (count offset : Nat)
    (h : ∀ k < count, digitValue (Char.ofNat (first.toNat + k)) = k + offset)
    (hc : first.toNat ≤ c.toNat ∧ c.toNat < first.toNat + count) :
    digitValue c = c.toNat - first.toNat + offset := by
  have hk := h (c.toNat - first.toNat) (by omega)
  rwa [Nat.add_sub_cancel' hc.1, Char.ofNat_toNat] at hk

private theorem digitValue_eq (c : Char) : digitValue c =
    if '0' ≤ c ∧ c ≤ '9' then c.toNat - '0'.toNat
    else if 'a' ≤ c ∧ c ≤ 'f' then c.toNat - 'a'.toNat + 10
    else if 'A' ≤ c ∧ c ≤ 'F' then c.toNat - 'A'.toNat + 10
    else 16 := by
  split
  · next h => exact digitValue_of_range '0' 10 0 (by decide) ⟨h.1, Nat.lt_succ_of_le h.2⟩
  split
  · next h => exact digitValue_of_range 'a' 6 10 (by decide) ⟨h.1, Nat.lt_succ_of_le h.2⟩
  split
  · next h => exact digitValue_of_range 'A' 6 10 (by decide) ⟨h.1, Nat.lt_succ_of_le h.2⟩
  · next hdecimal hlower hupper =>
    refine List.idxOf_eq_length fun hmem => ?_
    rw [mem_hexAlphabet_iff, toNat_toLower] at hmem
    change ¬ (48 ≤ c.toNat ∧ c.toNat ≤ 57) at hdecimal
    change ¬ (97 ≤ c.toNat ∧ c.toNat ≤ 102) at hlower
    change ¬ (65 ≤ c.toNat ∧ c.toNat ≤ 70) at hupper
    split at hmem <;> omega

/-- The reader knows the digits of every base up to 16. -/
private theorem digit?_eq (h : radix ≤ 16) (c : Char) :
    digit? radix c = if isDigit radix c then some (digitValue c) else none := by
  rw [digit?, isDigit, digitValue_eq]
  split_ifs <;> simp_all <;> omega

/-- A digit that comes next moves all digits before it up by one place. -/
private theorem number_shift (value : Nat) (c : Char) (digits : List Char) :
    value * radix ^ (c :: digits).length + numberOf radix (c :: digits) =
      (radix * value + digitValue c) * radix ^ digits.length + numberOf radix digits := by
  rw [numberOf_cons, List.length_cons, pow_succ]
  ring

/-- Further digits do not make a value smaller. -/
private theorem le_number (hradix : 0 < radix) (value : Nat) (digits : List Char) :
    value ≤ value * radix ^ digits.length + numberOf radix digits :=
  Nat.le_add_right_of_le (Nat.le_mul_of_pos_right value (Nat.pow_pos hradix))

/-- From a value within the limit the reader goes on through the digits that the text begins with. It fails on
the way if they carry the value past the limit, and behind them if anything is left. -/
theorem readDigits_eq (hradix : radix ≤ 16) (hvalue : value ≤ limit) (text : List Char) :
    readDigits radix limit value text =
      let run := text.takeWhile (isDigit radix)
      let total := value * radix ^ run.length + numberOf radix run
      if limit < total then .error .tooLarge
      else if text.all (isDigit radix) then .ok total
      else .error .invalidDigit := by
  induction text generalizing value with
  | nil => simp [readDigits, numberOf_nil, Nat.not_lt.mpr hvalue]
  | cons c rest ih =>
    rw [readDigits, digit?_eq hradix]
    cases hc : isDigit radix c with
    | false => simp [hc, numberOf_nil, Nat.not_lt.mpr hvalue]
    | true =>
      simp only [List.takeWhile_cons_of_pos hc, number_shift, List.all_cons, hc, Bool.true_and, if_true]
      by_cases hle : radix * value + digitValue c ≤ limit
      · rw [if_pos hle, ih hle]
      · -- what is past the limit here is past it in the end
        have hpos : 0 < radix := Nat.zero_lt_of_lt (of_decide_eq_true hc)
        have hpast := Nat.lt_of_lt_of_le (Nat.lt_of_not_le hle) (le_number hpos _ (rest.takeWhile (isDigit radix)))
        rw [if_neg hle, if_pos hpast]

/-- A text without its sign. A plus sign that nothing follows is none. -/
def unsigned (text : List Char) : List Char :=
  if 1 < text.length ∧ text.head? = some '+' then text.tail else text

theorem unsigned_eq_nil_iff {text : List Char} : unsigned text = [] ↔ text = [] := by
  rw [unsigned]
  split
  · next h =>
    obtain ⟨hlong, _⟩ := h
    have hne : text ≠ [] := List.ne_nil_of_length_pos (Nat.zero_lt_of_lt hlong)
    have htail : text.tail ≠ [] := List.ne_nil_of_length_pos (by rw [List.length_tail]; omega)
    exact iff_of_false htail hne
  · rfl

private theorem readNatural_of_ne_nil (h : text ≠ []) :
    readNatural radix limit text = readDigits radix limit 0 (unsigned text) := by
  match text with
  | [c] => simp [readNatural, unsigned]
  | c :: d :: rest =>
    by_cases hplus : c = '+'
    · simp [readNatural, unsigned, hplus]
    · simp [readNatural, unsigned, hplus]

/-- What a numeral comes to: the number that its digits spell, if there are digits only and the number is
within the limit. -/
theorem readNatural_eq (hradix : radix ≤ 16) (text : List Char) : readNatural radix limit text =
    let number := numberOf radix ((unsigned text).takeWhile (isDigit radix))
    if text = [] then .error .empty
    else if limit < number then .error .tooLarge
    else if (unsigned text).all (isDigit radix) then .ok number
    else .error .invalidDigit := by
  by_cases h : text = []
  · rw [h]
    rfl
  · rw [readNatural_of_ne_nil h, readDigits_eq hradix (Nat.zero_le limit)]
    simp [h]

end Chip8.Text
