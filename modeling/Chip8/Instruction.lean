import Chip8.Operation.Pattern
import Chip8.Text.Hex

/-! An instruction is a word together with the operation it decodes to. -/
namespace Chip8

structure Instruction where
  word : Word
  operation : Operation
  deriving DecidableEq, Repr

namespace Instruction

def ofWord (w : Word) : Instruction := ⟨w, .decode w⟩

def text (i : Instruction) : String :=
  "Opcode: " ++ i.operation.name ++
  ", Instruction: " ++ Text.hexNumber 4 i.word.toNat ++
  ", NNN: " ++ Text.hexNumber 3 i.word.nnn.toNat ++
  ", N: " ++ Text.hexNumber 1 i.word.n ++
  ", X: " ++ Text.hexNumber 1 i.word.x ++
  ", Y: " ++ Text.hexNumber 1 i.word.y ++
  ", KK: " ++ Text.hexNumber 2 i.word.kk.toNat

end Instruction
end Chip8
