import Chip8.Operation

/-! Operations are recognised digit by digit, most significant first, in a tree of patterns. -/
namespace Chip8

/-- A branch tries its exact digits before it lets any other digit through. -/
inductive Pattern
  | leaf (operation : Operation)
  | branch (exact : List (Nat × Pattern)) (other : Option Pattern)

namespace Pattern

/-- Follows the digits down to a leaf. A digit once matched exactly is never reconsidered. -/
def search : Pattern → List Nat → Option Operation
  | leaf operation, _ => some operation
  | branch .., [] => none
  | branch exact other, d :: rest =>
    match exact.lookup d <|> other with
    | none => none
    | some pattern => pattern.search rest

def skip (pattern : Pattern) : Pattern := branch [] (some pattern)

def oneOf (exact : List (Nat × Pattern)) : Pattern := branch exact none

def screenAndReturn : Pattern :=
  oneOf [(0x0, leaf .clearScreen), (0xE, leaf .leave)]

def arithmetic : Pattern :=
  oneOf [(0x0, leaf .copy), (0x1, leaf .bitOr), (0x2, leaf .bitAnd), (0x3, leaf .bitXor), (0x4, leaf .add),
    (0x5, leaf .subtract), (0x6, leaf .shiftRight), (0x7, leaf .subtractFrom), (0xE, leaf .shiftLeft)]

def keys : Pattern :=
  oneOf [(0x9, leaf .skipIfKey), (0xA, leaf .skipUnlessKey)]

def timersAndBlocks : Pattern :=
  oneOf [(0x0, oneOf [(0x7, leaf .readDelay), (0xA, leaf .waitKey)]),
    (0x1, oneOf [(0x5, leaf .setDelay), (0x8, leaf .setSound), (0xE, leaf .addIndex)]),
    (0x2, leaf .pointGlyph), (0x3, leaf .storeDecimal), (0x5, leaf .storeBlock), (0x6, leaf .loadBlock)]

def instructionSet : Pattern :=
  oneOf [(0x0, branch [(0x0, branch [(0xE, screenAndReturn)] (some (skip (leaf .hostCall))))]
      (some (leaf .hostCall))),
    (0x1, leaf .jump), (0x2, leaf .call), (0x3, leaf .skipIfByte), (0x4, leaf .skipUnlessByte),
    (0x5, leaf .skipIfSame), (0x6, leaf .setByte), (0x7, leaf .addByte), (0x8, skip (skip arithmetic)),
    (0x9, leaf .skipUnlessSame), (0xA, leaf .setIndex), (0xB, leaf .jumpOffset), (0xC, leaf .random),
    (0xD, leaf .draw), (0xE, skip keys), (0xF, skip timersAndBlocks)]

end Pattern

/-- A word that no pattern matches is unknown, whatever its digits. -/
def Operation.decode (w : Word) : Operation :=
  (Pattern.instructionSet.search w.digits).getD (.unknown w)

end Chip8
