import Chip8.Proofs.Machine.Reachable

/-! When a cycle fails, with which fault, and what it leaves behind. A fetch fails at the end of
memory alone; an instruction fails where its effect refuses it; nothing else can go wrong. -/
namespace Chip8

structure IntegerType where
  least : Int
  greatest : Int

namespace IntegerType

def unsigned16 : IntegerType := ⟨0, 0xFFFF⟩

def unsigned64 : IntegerType := ⟨0, 0xFFFFFFFFFFFFFFFF⟩

def signed32 : IntegerType := ⟨-0x80000000, 0x7FFFFFFF⟩

def Holds (t : IntegerType) (n : Int) : Prop := t.least ≤ n ∧ n ≤ t.greatest

end IntegerType

/-- What is counted while a sprite is drawn: for each of its bits the shift that brings it down, the place on the
grid that it falls on, and the offset of that place if it is on the screen. -/
def Sprite.sums (left top rows : Nat) : List (Int × IntegerType) :=
  (List.range rows).flatMap fun (r : Nat) => (List.range 8).flatMap fun (k : Nat) =>
    (7 - k, .unsigned64) :: (left + k, .unsigned64) :: (top + r, .unsigned64) ::
    if left + k < Screen.width ∧ top + r < Screen.height then
      [(((top + r) * Screen.width : Nat), .unsigned64), (Screen.offset (left + k) (top + r), .unsigned64)]
    else []

/-- The sums, differences and products that fetching and executing an instruction can form without wrapping,
each with the type it is formed in. A loop contributes all of its rounds, also those after a failure. -/
def Instruction.sums (i : Instruction) (c : Core) : List (Int × IntegerType) :=
  let w := i.word
  let vx : Int := (c.registers.get w.x).toNat
  let vy : Int := (c.registers.get w.y).toNat
  let index : Int := c.index.toNat
  (c.pc.toNat + 1, .unsigned64) ::
  match i.operation with
  | .jump => if w.nnn % 2 = 0 then [] else [(w.nnn.toNat + 1, .unsigned16)]
  | .jumpOffset => [(w.nnn.toNat + (c.registers.get Registers.first).toNat, .unsigned16)]
  | .addByte => [(vx + w.kk.toNat, .signed32)]
  | .add => [(vx + vy, .signed32)]
  | .subtract => [(vx - vy, .signed32)]
  | .subtractFrom => [(vy - vx, .signed32)]
  | .draw => (index + w.n, .unsigned64) :: Sprite.sums ((c.registers.get w.x).toNat % Screen.width)
      ((c.registers.get w.y).toNat % Screen.height) w.n
  -- a byte is written after the instruction at its address has been split, which looks one further
  | .storeBlock => (List.range (w.x + 1)).flatMap fun (k : Nat) =>
      [(index + k, .unsigned64), (index + k + 1, .unsigned64)]
  | .loadBlock => (List.range (w.x + 1)).map fun (k : Nat) => (index + k, .unsigned64)
  | _ => []

private theorem IntegerType.unsigned64_holds {n : Int} (h : 0 ≤ n ∧ n < 0x20000) : unsigned64.Holds n := by
  simp only [Holds, unsigned64]
  omega

private theorem Sprite.sums_fit {left top rows : Nat} (hleft : left < Screen.width) (htop : top < Screen.height)
    (hrows : rows < 16) : ∀ s ∈ Sprite.sums left top rows, s.2.Holds s.1 := by
  have hwidth : Screen.width = 64 := rfl
  have hheight : Screen.height = 32 := rfl
  have hsize : Screen.size = 2048 := rfl
  intro s hs
  simp only [sums, List.mem_flatMap, List.mem_range] at hs
  simp only [List.mem_cons] at hs
  obtain ⟨r, hr, k, hk, rfl | rfl | rfl | hs⟩ := hs
  · exact IntegerType.unsigned64_holds (by dsimp only; omega)
  · exact IntegerType.unsigned64_holds (by dsimp only; omega)
  · exact IntegerType.unsigned64_holds (by dsimp only; omega)
  · split at hs
    · next hin =>
      have hlt := Screen.offset_lt hin.1 hin.2
      have hrow : (top + r) * Screen.width ≤ Screen.offset (left + k) (top + r) := Nat.le_add_right _ _
      simp only [List.mem_cons, List.not_mem_nil, or_false] at hs
      rcases hs with rfl | rfl <;> exact IntegerType.unsigned64_holds (by dsimp only; omega)
    · cases hs

theorem Instruction.sums_fit (i : Instruction) (c : Core) : ∀ s ∈ i.sums c, s.2.Holds s.1 := by
  have hpc := c.pc.toNat_lt
  have hx := (c.registers.get i.word.x).toNat_lt
  have hy := (c.registers.get i.word.y).toNat_lt
  have hzero := (c.registers.get Registers.first).toNat_lt
  have hindex := c.index.toNat_lt
  have hnnn := i.word.nnn_lt
  have hn := i.word.n_lt
  have hkk := i.word.kk.toNat_lt
  have hwx := i.word.x.isLt
  have narrow (n : Nat) (h : n < 65536) : IntegerType.unsigned16.Holds n := by
    simp only [IntegerType.Holds, IntegerType.unsigned16]
    omega
  have between (n : Int) (h : -256 ≤ n ∧ n ≤ 512) : IntegerType.signed32.Holds n := by
    simp only [IntegerType.Holds, IntegerType.signed32]
    omega
  intro s hs
  simp only [sums, List.mem_cons] at hs
  rcases hs with rfl | hs
  · exact IntegerType.unsigned64_holds (by dsimp only; omega)
  · cases ho : i.operation <;> simp only [ho, List.mem_cons, List.not_mem_nil, or_false] at hs
    case jump =>
      split at hs
      · cases hs
      · rw [List.mem_singleton] at hs
        rw [hs]
        exact narrow (i.word.nnn.toNat + 1) (by omega)
    case jumpOffset =>
      rw [hs]
      exact narrow (i.word.nnn.toNat + (c.registers.get Registers.first).toNat) (by omega)
    case addByte | add | subtract | subtractFrom =>
      rw [hs]
      exact between _ (by omega)
    case draw =>
      rcases hs with rfl | hs
      · exact IntegerType.unsigned64_holds (by dsimp only; omega)
      · exact Sprite.sums_fit (Nat.mod_lt _ (by decide)) (Nat.mod_lt _ (by decide)) hn s hs
    case storeBlock =>
      simp only [List.mem_flatMap, List.mem_range, List.mem_cons, List.not_mem_nil, or_false] at hs
      obtain ⟨k, hk, rfl | rfl⟩ := hs <;> exact IntegerType.unsigned64_holds (by dsimp only; omega)
    case loadBlock =>
      simp only [List.mem_map, List.mem_range] at hs
      obtain ⟨k, hk, rfl⟩ := hs
      exact IntegerType.unsigned64_holds (by dsimp only; omega)

namespace Machine
variable {m : Machine} {f : Fault} {i : Instruction}

/-- Why the next cycle fails: the two bytes at the program counter are not both there, or the
instruction they decode to is refused. -/
inductive Fails (m : Machine) : Fault → Prop
  | fetch : 0xFFD < m.core.pc.toNat → m.Fails (.outOfRange (max m.core.pc.toNat 0xFFF))
  | refused {w : Word} {f : Fault} : m.core.memory.readWord m.core.pc.toNat = .ok w →
      (Instruction.ofWord w).Refuses m.core f → m.Fails f

theorem current_eq (h : m.core.memory.Coherent) :
    m.current = (m.core.memory.readWord m.core.pc.toNat).map .ofWord := by
  rw [current, Memory.fetch_eq h, Memory.readWord_eq h, Bytes.fetch]

/-- What is fetched is the decode of the word at the program counter. -/
theorem current_ok (h : m.core.memory.Coherent) (hc : m.current = .ok i) :
    ∃ w, m.core.memory.readWord m.core.pc.toNat = .ok w ∧ i = .ofWord w := by
  rw [current_eq h] at hc
  cases hr : m.core.memory.readWord m.core.pc.toNat with
  | error g => rw [hr] at hc; cases hc
  | ok w => rw [hr] at hc; cases hc; exact ⟨w, rfl, rfl⟩

theorem current_decoded (h : m.core.memory.Coherent) (hc : m.current = .ok i) :
    i.operation = .decode i.word := by
  obtain ⟨w, _, rfl⟩ := current_ok h hc
  rfl

theorem readWord_error_iff {b : Memory} (h : b.Coherent) {a : Nat} :
    b.readWord a = .error f ↔ 0xFFD < a ∧ f = .outOfRange (max a 0xFFF) := by
  have hsize : Memory.size = 0xFFF := rfl
  rw [Memory.readWord_eq h, Bytes.readWord]
  split
  · constructor
    · intro he
      cases he
    · rintro ⟨ha, _⟩
      omega
  · constructor
    · intro he
      exact ⟨by omega, (Except.error.inj he).symm⟩
    · rintro ⟨_, rfl⟩
      rfl

theorem effect_error_iff (h : m.core.Sound) (hi : i.operation = .decode i.word) :
    (m.effect i).2 = .error f ↔ i.Refuses m.core f := by
  have hs : Core.Sound { m.core with drawing := false } := ⟨h.coherent, h.shallow, h.binary⟩
  constructor
  · intro he
    exact (Instruction.refuses_of_effect hs hi he).congr rfl rfl
  · intro hr
    exact Instruction.effect_of_refuses hs hi (hr.congr rfl rfl)

theorem cycle_fault_iff (h : m.core.Sound) : m.cycle.fault? = some f ↔ m.Fails f := by
  cases hr : m.core.memory.readWord m.core.pc.toNat with
  | error g =>
    have hc : m.current = .error g := by rw [current_eq h.coherent, hr, Except.map]
    obtain ⟨hp, hg⟩ := (readWord_error_iff h.coherent).mp hr
    rw [cycle_of_no_fetch hc]
    constructor
    · intro hf
      cases hf
      rw [hg]
      exact .fetch hp
    · intro hf
      cases hf with
      | fetch _ => rw [hg]
      | refused hw _ => rw [hr] at hw; cases hw
  | ok w =>
    have hc : m.current = .ok (.ofWord w) := by rw [current_eq h.coherent, hr, Except.map]
    have he : m.Fails f ↔ (m.effect (.ofWord w)).2 = .error f := by
      rw [effect_error_iff h rfl]
      constructor
      · intro hf
        cases hf with
        | fetch hp =>
          have hn := (readWord_error_iff h.coherent).mpr ⟨hp, rfl⟩
          rw [hr] at hn
          cases hn
        | refused hw hf =>
          rw [hr] at hw
          cases hw
          exact hf
      · exact .refused hr
    rw [he]
    cases hf : (m.effect (.ofWord w)).2 with
    | error g =>
      rw [cycle_of_failure hc hf]
      simp
    | ok flow =>
      rw [cycle_of_flow hc hf]
      simp

/-- The complete list of failures of one cycle, each with its fault. In every other state the cycle
succeeds, and whatever the instruction is, the integers that are not meant to wrap stay within their
types; register numbers and cell addresses carry their bounds with them. -/
theorem cycle_fails_exactly (hm : m.Reachable) :
    (∀ f, m.cycle.fault? = some f ↔ m.Fails f) ∧
    (m.cycle.fault? = none ↔ ∀ f, ¬ m.Fails f) ∧
    ∀ i : Instruction, ∀ s ∈ i.sums m.core, s.2.Holds s.1 := by
  have hiff (f : Fault) : m.cycle.fault? = some f ↔ m.Fails f := cycle_fault_iff hm.sound
  refine ⟨hiff, ?_, fun i => i.sums_fit m.core⟩
  simp only [← hiff, Option.eq_none_iff_forall_not_mem, Option.mem_def]

def atLastByte : Machine := (Command.setPc 0xFFE).run (.new {} ⟨fun _ => 0, 0⟩)

theorem cycle_fails_exactly_atLastByte :
    atLastByte.Reachable ∧ atLastByte.cycle.fault? = some (.outOfRange 0xFFF) ∧
      atLastByte.Fails (.outOfRange 0xFFF) := by
  have hm : atLastByte.Reachable := .after _ (.new _ _)
  have hf : atLastByte.cycle.fault? = some (.outOfRange 0xFFF) := by decide +kernel
  exact ⟨hm, hf, ((cycle_fails_exactly hm).1 _).mp hf⟩

end Machine
end Chip8
