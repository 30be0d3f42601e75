/-! Numerals of a bounded type: an optional sign, then digits read from left to right. -/
namespace Chip8.Text

inductive NumeralFault
  | empty
  | invalidDigit
  | tooLarge
  deriving DecidableEq, Repr

def NumeralFault.message : NumeralFault → String
  | .empty => "cannot parse integer from empty string"
  | .invalidDigit => "invalid digit found in string"
  | .tooLarge => "number too large to fit in target type"

def digit? (radix : Nat) (c : Char) : Option Nat :=
  let value :=
    if '0' ≤ c ∧ c ≤ '9' then c.toNat - '0'.toNat
    else if 'a' ≤ c ∧ c ≤ 'f' then c.toNat - 'a'.toNat + 10
    else if 'A' ≤ c ∧ c ≤ 'F' then c.toNat - 'A'.toNat + 10
    else radix
  if value < radix then some value else none

/-- Appends digits to `value`. The first character that is no digit, or that carries the
value past `limit`, decides the fault. -/
def readDigits (radix limit value : Nat) : List Char → Except NumeralFault Nat
  | [] => .ok value
  | c :: rest =>
    match digit? radix c with
    | none => .error .invalidDigit
    | some d =>
      if radix * value + d ≤ limit then readDigits radix limit (radix * value + d) rest
      else .error .tooLarge

/-- A plus sign counts as a sign only in front of something. -/
def readNatural (radix limit : Nat) : List Char → Except NumeralFault Nat
  | [] => .error .empty
  | '+' :: c :: rest => readDigits radix limit 0 (c :: rest)
  | text => readDigits radix limit 0 text

def readInteger (limit : Nat) : List Char → Except NumeralFault Int
  | '-' :: c :: rest => (readDigits 10 limit 0 (c :: rest)).map fun n => -(n : Int)
  | text => (readNatural 10 limit text).map Int.ofNat

end Chip8.Text
