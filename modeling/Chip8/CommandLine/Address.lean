import Chip8.Text.Numeral
import Chip8.Text.Quoted

/-! Addresses as a user types them: hexadecimal behind 0x or 0X, otherwise decimal. -/
namespace Chip8.CommandLine

structure AddressFault where
  text : String
  reason : Text.NumeralFault
  deriving DecidableEq

def AddressFault.message (f : AddressFault) : String :=
  "invalid address " ++ Text.quoted f.text ++ ": " ++ f.reason.message

def readAddress (text : String) : Except AddressFault UInt16 :=
  let value :=
    match text.toList with
    | '0' :: 'x' :: rest => Text.readNatural 16 0xFFFF rest
    | '0' :: 'X' :: rest => Text.readNatural 16 0xFFFF rest
    | digits => Text.readNatural 10 0xFFFF digits
  match value with
  | .ok v => .ok (.ofNat v)
  | .error reason => .error ⟨text, reason⟩

end Chip8.CommandLine
