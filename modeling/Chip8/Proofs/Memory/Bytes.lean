import Chip8.Memory
import Chip8.Program

/-! Memory as a bare row of bytes, with nothing decoded. Every read and every write has its plain
meaning here, faults included, and cells are measured against it. -/
namespace Chip8

abbrev Bytes := Vector UInt8 Memory.size

namespace Bytes
variable {b : Bytes} {a k : Nat}

def zero : Bytes := Vector.replicate Memory.size 0

def read (b : Bytes) (a : Nat) : Except Fault UInt8 :=
  if h : a < Memory.size then .ok b[a] else .error (.outOfRange a)

def readWord (b : Bytes) (a : Nat) : Except Fault Word :=
  if h : a + 1 < Memory.size then .ok (.ofBytes b[a] b[a + 1])
  else .error (.outOfRange (max a Memory.size))

/-- What keeps `count` bytes from being reached one after the other, from `a` on. -/
def shortage (a count : Nat) : Option Fault :=
  if count = 0 ∨ a + count ≤ Memory.size then none else some (.outOfRange (max a Memory.size))

/-- A range of no bytes can be read anywhere. -/
def readRange (b : Bytes) (a count : Nat) : Except Fault (List UInt8) :=
  if count = 0 ∨ a + count ≤ Memory.size then .ok ((b.toList.drop a).take count)
  else .error (.outOfRange (max a Memory.size))

def fetch (b : Bytes) (a : Nat) : Except Fault Instruction := (b.readWord a).map .ofWord

/-- The given bytes replace the old ones from `a` on, as far as memory goes. -/
def overlay (b : Bytes) (a : Nat) (data : List UInt8) : Bytes :=
  Vector.ofFn fun k => if a ≤ k then data.getD (k - a) b[k] else b[k]

theorem shortage_zero : shortage a 0 = none := by simp [shortage]

/-- Once the first byte is reached, the others decide. -/
theorem shortage_succ (count : Nat) (h : a < Memory.size) :
    shortage a (count + 1) = shortage (a + 1) count := by
  rw [shortage, shortage]
  by_cases hz : count = 0
  · rw [if_pos (.inr (by omega)), if_pos (.inl hz)]
  · by_cases hl : a + 1 + count ≤ Memory.size
    · rw [if_pos (.inr (by omega)), if_pos (.inr hl)]
    · have hm : max a Memory.size = max (a + 1) Memory.size := by omega
      rw [if_neg (by omega), if_neg (by omega), hm]

theorem shortage_of_size_le (count : Nat) (h : Memory.size ≤ a) :
    shortage a (count + 1) = some (.outOfRange a) := by
  rw [shortage, if_neg (by omega), Nat.max_eq_left h]

private theorem getElem_overlay (data : List UInt8) (hk : k < Memory.size) :
    (b.overlay a data)[k] = if a ≤ k then data.getD (k - a) b[k] else b[k] := by
  simp [overlay]

theorem getElem_overlay_of_outside (data : List UInt8) (hk : k < Memory.size)
    (h : k < a ∨ a + data.length ≤ k) : (b.overlay a data)[k] = b[k] := by
  rw [getElem_overlay]
  split
  · rw [List.getD_eq_getElem?_getD, List.getElem?_eq_none (by omega), Option.getD_none]
  · rfl

theorem getElem_overlay_of_inside (data : List UInt8) (hk : k < Memory.size) (ha : a ≤ k)
    (h : k - a < data.length) : (b.overlay a data)[k] = data[k - a] := by
  rw [getElem_overlay, if_pos ha, List.getD_eq_getElem?_getD, List.getElem?_eq_getElem h,
    Option.getD_some]

theorem read_overlay_of_outside (data : List UInt8) (h : k < a ∨ a + data.length ≤ k) :
    (b.overlay a data).read k = b.read k := by
  rw [read, read]
  split
  · next hk => rw [getElem_overlay_of_outside data hk h]
  · rfl

theorem read_overlay_of_inside (data : List UInt8) (hk : k < Memory.size) (ha : a ≤ k)
    (h : k - a < data.length) : (b.overlay a data).read k = .ok data[k - a] := by
  rw [read, dif_pos hk, getElem_overlay_of_inside data hk ha h]

theorem overlay_nil : b.overlay a [] = b := by
  apply Vector.ext
  intro k hk
  exact getElem_overlay_of_outside [] hk (by simp; omega)

theorem overlay_append (front back : List UInt8) :
    b.overlay a (front ++ back) = (b.overlay a front).overlay (a + front.length) back := by
  apply Vector.ext
  intro k hk
  simp only [getElem_overlay, List.getD_eq_getElem?_getD, List.getElem?_append]
  by_cases h : a ≤ k
  · by_cases hf : k - a < front.length
    · have hn : ¬ a + front.length ≤ k := by omega
      simp [h, hf, hn]
    · have hs : k - (a + front.length) = k - a - front.length := by omega
      have hl : a + front.length ≤ k := by omega
      simp [h, hf, hl, hs]
  · have hn : ¬ a + front.length ≤ k := by omega
    simp [h, hn]

theorem overlay_cons (x : UInt8) (rest : List UInt8) :
    b.overlay a (x :: rest) = (b.overlay a [x]).overlay (a + 1) rest := overlay_append [x] rest

/-- Beyond the end of memory there is nothing to replace. -/
theorem overlay_of_size_le (data : List UInt8) (h : Memory.size ≤ a) : b.overlay a data = b := by
  apply Vector.ext
  intro k hk
  exact getElem_overlay_of_outside data hk (.inl (by omega))

theorem take_drop_eq_cons (count : Nat) (h : a < Memory.size) :
    (b.toList.drop a).take (count + 1) = b[a] :: (b.toList.drop (a + 1)).take count := by
  rw [List.drop_eq_getElem_cons (by simpa using h), List.take_succ_cons]
  simp

/-- As many bytes are taken as are asked for and as there are. -/
theorem getElem?_take_drop (count : Nat) {j : Nat} :
    ((b.toList.drop a).take count)[j]? = if j < count then b[a + j]? else none := by
  rw [List.getElem?_take, List.getElem?_drop, Vector.getElem?_toList]

end Bytes
end Chip8
