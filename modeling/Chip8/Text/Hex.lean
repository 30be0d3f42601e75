/-! Numbers in base 16. -/
namespace Chip8.Text

def hexDigits (width n : Nat) : List Char :=
  let digits := Nat.toDigits 16 n
  List.replicate (width - digits.length) '0' ++ digits

def lowerHex (width n : Nat) : String :=
  String.ofList (hexDigits width n)

/-- A number as messages and listings show it: marked, upper-case, at least `width` digits. -/
def hexNumber (width n : Nat) : String :=
  "0x" ++ String.ofList ((hexDigits width n).map Char.toUpper)

end Chip8.Text
