import Chip8.Word

/-! Program images: words as a flat run of bytes. -/
namespace Chip8.Program
variable {image : List UInt8}

/-- Pairs bytes into words, high byte first. A last byte without a partner is dropped. -/
def ofBytes : List UInt8 → List Word
  | high :: low :: rest => Word.ofBytes high low :: ofBytes rest
  | _ => []

def toBytes (program : List Word) : List UInt8 :=
  program.flatMap fun w => [w.high, w.low]

private theorem toBytes_cons (w : Word) (rest : List Word) : toBytes (w :: rest) = w.high :: w.low :: toBytes rest :=
  rfl

/-- A program comes back from its bytes, also with a byte too many behind them. -/
theorem ofBytes_toBytes_append (program : List Word) {tail : List UInt8} (h : tail.length ≤ 1) :
    ofBytes (toBytes program ++ tail) = program := by
  induction program with
  | nil =>
    match tail, h with
    | [], _ => rfl
    | [_], _ => rfl
  | cons w rest ih =>
    rw [toBytes_cons, List.cons_append, List.cons_append, ofBytes, Word.ofBytes_high_low, ih]

theorem length_ofBytes : (image : List UInt8) → (ofBytes image).length = image.length / 2
  | [] => rfl
  | [_] => by simp [ofBytes]
  | _ :: _ :: rest => by
    rw [ofBytes, List.length_cons, length_ofBytes rest, List.length_cons, List.length_cons]
    omega

/-- The bytes of the words in an image are all of its bytes but for one without a partner. -/
theorem toBytes_ofBytes : (image : List UInt8) → toBytes (ofBytes image) = image.take (2 * (image.length / 2))
  | [] => rfl
  | [_] => by simp [ofBytes, toBytes]
  | high :: low :: rest => by
    have hlength : 2 * ((high :: low :: rest).length / 2) = 2 * (rest.length / 2) + 2 := by
      rw [List.length_cons, List.length_cons]
      omega
    rw [hlength, ofBytes, toBytes_cons, Word.high_ofBytes, Word.low_ofBytes, toBytes_ofBytes rest]
    rfl

theorem getElem_ofBytes {i : Nat} (h : i < (ofBytes image).length) (hi : 2 * i + 1 < image.length) :
    (ofBytes image)[i] = .ofBytes image[2 * i] image[2 * i + 1] := by
  induction i generalizing image with
  | zero =>
    match image, h, hi with
    | _ :: _ :: _, _, _ => rfl
  | succ i ih =>
    match image, h, hi with
    | high :: low :: rest, h, hi =>
      have hrest : 2 * i + 1 < rest.length := by
        rw [List.length_cons, List.length_cons] at hi
        omega
      exact ih (Nat.lt_of_succ_lt_succ h) hrest

end Chip8.Program
