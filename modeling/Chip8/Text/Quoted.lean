import Chip8.Text.Hex
import Chip8.Text.Unprintable

/-! Quoted text: what a message shows of a value that a user typed. -/
namespace Chip8.Text

/-- Quotes and backslashes are escaped, and so is every character that cannot be seen. -/
def escapeChar (c : Char) : List Char :=
  match c with
  | '\x00' => ['\\', '0']
  | '\t' => ['\\', 't']
  | '\n' => ['\\', 'n']
  | '\r' => ['\\', 'r']
  | '"' => ['\\', '"']
  | '\\' => ['\\', '\\']
  | c =>
    if isUnprintable c then
      ['\\', 'u', '\x7b'] ++ hexDigits 1 c.toNat ++ ['\x7d']
    else [c]

def quoted (s : String) : String :=
  String.ofList ('"' :: s.toList.flatMap escapeChar ++ ['"'])

end Chip8.Text
