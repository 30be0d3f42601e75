import Chip8.Word

/-! The operations an instruction word can ask for, operands left out. -/
namespace Chip8

inductive Operation
  /-- 0NNN: call a routine of the host, which has none. -/
  | hostCall
  /-- 00E0: darken the screen. -/
  | clearScreen
  /-- 00EE: go back to the innermost caller. -/
  | leave
  /-- 1NNN: go to NNN. -/
  | jump
  /-- 2NNN: go to NNN, remembering where to come back. -/
  | call
  /-- 3XKK: skip the next instruction if VX is KK. -/
  | skipIfByte
  /-- 4XKK: skip the next instruction if VX is not KK. -/
  | skipUnlessByte
  /-- 5XY0: skip the next instruction if VX and VY are equal. -/
  | skipIfSame
  /-- 6XKK: VX becomes KK. -/
  | setByte
  /-- 7XKK: KK is added to VX, without a flag. -/
  | addByte
  /-- 8XY0: VX becomes VY. -/
  | copy
  /-- 8XY1: VX becomes VX or VY, bit by bit. -/
  | bitOr
  /-- 8XY2: VX becomes VX and VY, bit by bit. -/
  | bitAnd
  /-- 8XY3: VX becomes VX xor VY, bit by bit. -/
  | bitXor
  /-- 8XY4: VY is added to VX, VF tells of a carry. -/
  | add
  /-- 8XY5: VY is taken from VX, VF tells whether VX was the larger. -/
  | subtract
  /-- 8XY6: VX is halved, VF is the bit that drops out. -/
  | shiftRight
  /-- 8XY7: VX becomes VY less VX, VF tells whether VY was the larger. -/
  | subtractFrom
  /-- 8XYE: VX is doubled, VF is the bit that drops out. -/
  | shiftLeft
  /-- 9XY0: skip the next instruction if VX and VY differ. -/
  | skipUnlessSame
  /-- ANNN: I becomes NNN. -/
  | setIndex
  /-- BNNN: go to NNN plus V0. -/
  | jumpOffset
  /-- CXKK: VX becomes a random byte under the mask KK. -/
  | random
  /-- DXYN: draw the N rows at I with their corner at VX, VY. -/
  | draw
  /-- EX9E: skip the next instruction if key VX is down. -/
  | skipIfKey
  /-- EXA1: skip the next instruction if key VX is up. -/
  | skipUnlessKey
  /-- FX07: VX becomes the delay timer. -/
  | readDelay
  /-- FX0A: wait for a key and put it into VX. -/
  | waitKey
  /-- FX15: the delay timer becomes VX. -/
  | setDelay
  /-- FX18: the sound timer becomes VX. -/
  | setSound
  /-- FX1E: VX is added to I. -/
  | addIndex
  /-- FX29: I becomes the address of the glyph for VX. -/
  | pointGlyph
  /-- FX33: the decimal digits of VX go to I, I+1 and I+2. -/
  | storeDecimal
  /-- FX55: V0 to VX go to memory from I on. -/
  | storeBlock
  /-- FX65: V0 to VX come from memory from I on. -/
  | loadBlock
  /-- A word that asks for nothing known. -/
  | unknown (word : Word)
  deriving DecidableEq, Repr

namespace Operation

def name : Operation → String
  | hostCall => "SysCall"
  | clearScreen => "ClearScreen"
  | leave => "ReturnFromSubroutine"
  | jump => "Jump"
  | call => "Call"
  | skipIfByte => "SkipIfEqualByte"
  | skipUnlessByte => "SkipIfNotEqualByte"
  | skipIfSame => "SkipIfRegistersEqual"
  | setByte => "SetRegisterToValue"
  | addByte => "AddToRegister"
  | copy => "SetRegisterToRegisterValue"
  | bitOr => "RegistersBitwiseOr"
  | bitAnd => "RegistersBitwiseAnd"
  | bitXor => "RegistersBitwiseXor"
  | add => "RegistersSumWithCarry"
  | subtract => "SubtractRegisterFromRegisterValue"
  | shiftRight => "ShiftRegisterBitsRight"
  | subtractFrom => "SubtractRegisterValueFromRegister"
  | shiftLeft => "ShiftRegisterBitsLeft"
  | skipUnlessSame => "SkipIfRegistersNotEqual"
  | setIndex => "SetIndexRegisterToValue"
  | jumpOffset => "JumpByValue"
  | random => "SetRegisterToRandAndValue"
  | draw => "DrawSprite"
  | skipIfKey => "SkipIfKeyPressed"
  | skipUnlessKey => "SkipIfKeyNotPressed"
  | readDelay => "SetRegisterToDelayTimerValue"
  | waitKey => "WaitForKeyPress"
  | setDelay => "SetDelayTimerToRegisterValue"
  | setSound => "SetSoundTimerToRegisterValue"
  | addIndex => "AddRegisterToIndexRegister"
  | pointGlyph => "SetIndexRegisterToSpriteForRegister"
  | storeDecimal => "StoreBinaryCodedDecimalAtIndexRegisterValue"
  | storeBlock => "DumpRegistersToMemoryAtIndexRegister"
  | loadBlock => "LoadMemoryToRegistersAtIndexRegister"
  | unknown word => "Unknown(" ++ toString word.toNat ++ ")"

def isUnknown : Operation → Bool
  | unknown _ => true
  | _ => false

end Operation
end Chip8
