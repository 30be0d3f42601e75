import Chip8.Proofs.Effect.Arithmetic
import Chip8.Proofs.Machine.Failure

/-! What arithmetic leaves in VX and VF, as an account of whole numbers. The account holds with any two of VX, VY
and VF the same register: the operands are read before anything is written, and VF is written last. -/
namespace Chip8

/-- Everything that is computed fits a signed 32-bit integer. -/
private theorem Instruction.compute?_fits {i : Instruction} {setup : Setup} {c : Core} {computed : Computation}
    (h : i.compute? setup c = some computed) : ∀ n ∈ computed.numbers, IntegerType.signed32.Holds n := by
  have ha := (c.registers.get i.word.x).toNat_lt
  have hb := (c.registers.get i.word.y).toNat_lt
  have hk := i.word.kk.toNat_lt
  have small (n : Int) (hn : -256 ≤ n ∧ n ≤ 512) : IntegerType.signed32.Holds n := by
    simp only [IntegerType.Holds, IntegerType.signed32]
    omega
  have bit (b : Bool) : IntegerType.signed32.Holds b.toNat := small _ (by cases b <;> decide)
  rw [compute?] at h
  cases ho : i.operation <;> simp only [ho, Setup.compute?] at h <;> cases h <;>
    simp only [Computation.numbers, Option.toList, List.forall_mem_cons]
  case addByte => exact ⟨small _ (by omega), List.forall_mem_nil _⟩
  case add | subtract | subtractFrom => exact ⟨small _ (by omega), bit _, List.forall_mem_nil _⟩
  case shiftRight | shiftLeft => exact ⟨small _ (by omega), small _ (by omega), List.forall_mem_nil _⟩

namespace Machine
variable {m : Machine} {i : Instruction} {computed : Computation} {value flag : Int} {a b : Nat}

def register (m : Machine) (x : Fin registerCount) : Nat := (m.core.registers.get x).toNat

/-- A cycle that does arithmetic succeeds, and writes what it has computed. -/
theorem cycle_computes (hi : m.current = .ok i) (h : i.compute? m.setup m.core = some computed) :
    m.cycle.fault? = none ∧ m.cycle.machine.core.registers = m.core.registers.record i.word.x computed := by
  have he : m.effect i = ({ m.core with
      drawing := false, registers := m.core.registers.record i.word.x computed }, .ok .next) :=
    Instruction.effect_of_compute h
  rw [cycle_of_flow hi (congrArg Prod.snd he), he]
  exact ⟨rfl, rfl⟩

private theorem register_flag_of_compute (hi : m.current = .ok i)
    (h : i.compute? m.setup m.core = some ⟨value, some flag⟩) :
    m.cycle.machine.register Registers.flag = (flag % 256).toNat := by
  rw [register, (cycle_computes hi h).2, Registers.get_flag_record, toNat_ofInt]

private theorem register_of_compute (hi : m.current = .ok i) {flag? : Option Int}
    (h : i.compute? m.setup m.core = some ⟨value, flag?⟩) (hx : flag? = none ∨ i.word.x ≠ Registers.flag) :
    m.cycle.machine.register i.word.x = (value % 256).toNat := by
  rw [register, (cycle_computes hi h).2, Registers.get_record hx, toNat_ofInt]

/-- A cycle leaves `bit` in VF whatever register it was to write. Unless that was VF, no bit of `total` is lost:
it is made up of `p` times the register and `q` times VF. -/
structure Splits (m : Machine) (x : Fin registerCount) (p q total : Nat) (bit : Bool) : Prop where
  succeeds : m.cycle.fault? = none
  flag : m.cycle.machine.register Registers.flag = bit.toNat
  whole : x ≠ Registers.flag →
    p * m.cycle.machine.register x + q * m.cycle.machine.register Registers.flag = total

/-- A cycle subtracts `b` from `a`. What the register keeps owes 256 if a borrow was needed, and VF tells whether
`a` was larger. That is as much as to say that no borrow was needed, unless `a` and `b` are equal. -/
structure Subtracts (m : Machine) (x : Fin registerCount) (a b : Nat) : Prop where
  succeeds : m.cycle.fault? = none
  flag : m.cycle.machine.register Registers.flag = (decide (b < a)).toNat
  no_borrow_iff : m.cycle.machine.register Registers.flag = (decide (b ≤ a)).toNat ↔ a ≠ b
  difference : x ≠ Registers.flag → m.cycle.machine.register x + b = a + 256 * (decide (a < b)).toNat
  exact_iff : x ≠ Registers.flag →
    (m.cycle.machine.register x + b = a + 256 * (1 - m.cycle.machine.register Registers.flag) ↔ a ≠ b)

private theorem splits_of_compute (hi : m.current = .ok i) {p q total : Nat} {bit : Bool}
    (h : i.compute? m.setup m.core = some ⟨value, some flag⟩) (hbit : flag = bit.toNat)
    (htotal : p * (value % 256).toNat + q * bit.toNat = total) : m.Splits i.word.x p q total bit := by
  have hflag : m.cycle.machine.register Registers.flag = bit.toNat := by
    have := bit.toNat_le
    rw [register_flag_of_compute hi h]
    omega
  refine ⟨(cycle_computes hi h).1, hflag, fun hx => ?_⟩
  rw [register_of_compute hi h (.inr hx), hflag]
  exact htotal

private theorem subtracts_of_compute (hi : m.current = .ok i) (ha : a < 256) (hb : b < 256)
    (h : i.compute? m.setup m.core = some ⟨a - b, some (decide ((a : Int) > b)).toNat⟩) :
    m.Subtracts i.word.x a b := by
  have hflag : m.cycle.machine.register Registers.flag = (decide (b < a)).toNat := by
    rw [register_flag_of_compute hi h]
    simp only [gt_iff_lt, Int.ofNat_lt]
    cases decide (b < a) <;> rfl
  have hdifference (hx : i.word.x ≠ Registers.flag) :
      m.cycle.machine.register i.word.x + b = a + 256 * (decide (a < b)).toNat := by
    rw [register_of_compute hi h (.inr hx), toNat_decide]
    split <;> omega
  refine ⟨(cycle_computes hi h).1, hflag, ?_, hdifference, fun hx => ?_⟩
  · rw [hflag, toNat_decide, toNat_decide]
    split <;> split <;> omega
  · rw [hdifference hx, hflag, toNat_decide, toNat_decide]
    split <;> split <;> omega

private theorem splits_add (hi : m.current = .ok i) (hlegacy : m.setup.legacyCarry = false) (ho : i.operation = .add) :
    m.Splits i.word.x 1 256 (m.register i.word.x + m.register i.word.y)
      (decide (255 < m.register i.word.x + m.register i.word.y)) := by
  have hx := (m.core.registers.get i.word.x).toNat_lt
  have hy := (m.core.registers.get i.word.y).toNat_lt
  have h : i.compute? m.setup m.core = some ⟨m.register i.word.x + m.register i.word.y,
      some (decide ((m.register i.word.x + m.register i.word.y : Int) > 255)).toNat⟩ := by
    rw [Instruction.compute?_of_operation ho, Setup.compute?, hlegacy]
    rfl
  have hcarry : decide ((m.register i.word.x + m.register i.word.y : Int) > 255) =
      decide (255 < m.register i.word.x + m.register i.word.y) := decide_eq_decide.mpr (by omega)
  refine splits_of_compute hi h (by rw [hcarry]) ?_
  rw [toNat_decide, register, register]
  split <;> omega

private theorem splits_shiftRight (hi : m.current = .ok i) (ho : i.operation = .shiftRight) :
    m.Splits i.word.x 2 1 (m.register i.word.x) ((m.register i.word.x).testBit 0) := by
  have hx := (m.core.registers.get i.word.x).toNat_lt
  have h : i.compute? m.setup m.core = some ⟨m.register i.word.x / 2, some (m.register i.word.x % 2)⟩ :=
    Instruction.compute?_of_operation ho
  refine splits_of_compute hi h ?_ ?_
  all_goals
    rw [Nat.toNat_testBit, register]
    omega

private theorem splits_shiftLeft (hi : m.current = .ok i) (ho : i.operation = .shiftLeft) :
    m.Splits i.word.x 1 256 (2 * m.register i.word.x) ((m.register i.word.x).testBit 7) := by
  have hx := (m.core.registers.get i.word.x).toNat_lt
  have h : i.compute? m.setup m.core = some ⟨2 * m.register i.word.x, some (m.register i.word.x / 128)⟩ :=
    Instruction.compute?_of_operation ho
  refine splits_of_compute hi h ?_ ?_
  all_goals
    rw [Nat.toNat_testBit, register]
    omega

/-- 7XKK forgets its carry, and leaves VF alone unless it is what is added to. -/
private theorem cycle_addByte (hi : m.current = .ok i) (ho : i.operation = .addByte) : m.cycle.fault? = none ∧
    m.cycle.machine.register i.word.x = (m.register i.word.x + i.word.kk.toNat) % 256 ∧
    (i.word.x ≠ Registers.flag → m.cycle.machine.register Registers.flag = m.register Registers.flag) := by
  have h : i.compute? m.setup m.core = some ⟨m.register i.word.x + i.word.kk.toNat, none⟩ :=
    Instruction.compute?_of_operation ho
  obtain ⟨hok, hregisters⟩ := cycle_computes hi h
  refine ⟨hok, ?_, fun hx => ?_⟩
  · rw [register_of_compute hi h (.inl rfl)]
    omega
  · rw [register, hregisters, Registers.record, Registers.get_set, if_neg hx]
    rfl

/-- Whichever two of VX, VY and VF are the same register, additions and shifts lose no bit: what VX has no room for is
in VF, and VF has nothing else. 7XKK forgets its carry and leaves VF alone. All four compute whole numbers, and these
fit 32 bits. -/
theorem addition_and_shifts_lose_no_bit (hi : m.current = .ok i) (hlegacy : m.setup.legacyCarry = false) :
    (i.operation = .add → m.Splits i.word.x 1 256 (m.register i.word.x + m.register i.word.y)
      (decide (255 < m.register i.word.x + m.register i.word.y))) ∧
    (i.operation = .shiftRight →
      m.Splits i.word.x 2 1 (m.register i.word.x) ((m.register i.word.x).testBit 0)) ∧
    (i.operation = .shiftLeft →
      m.Splits i.word.x 1 256 (2 * m.register i.word.x) ((m.register i.word.x).testBit 7)) ∧
    (i.operation = .addByte → m.cycle.fault? = none ∧
      m.cycle.machine.register i.word.x = (m.register i.word.x + i.word.kk.toNat) % 256 ∧
      (i.word.x ≠ Registers.flag → m.cycle.machine.register Registers.flag = m.register Registers.flag)) ∧
    (i.operation ∈ [.add, .shiftRight, .shiftLeft, .addByte] → (i.compute? m.setup m.core).isSome) ∧
    ∀ computed, i.compute? m.setup m.core = some computed →
      m.cycle.machine.core.registers = m.core.registers.record i.word.x computed ∧
      ∀ n ∈ computed.numbers, IntegerType.signed32.Holds n := by
  refine ⟨splits_add hi hlegacy, splits_shiftRight hi, splits_shiftLeft hi, cycle_addByte hi, fun ho => ?_,
    fun computed h => ⟨(cycle_computes hi h).2, Instruction.compute?_fits h⟩⟩
  rw [Instruction.isSome_compute?_iff]
  simp only [List.mem_cons, List.not_mem_nil, or_false] at ho ⊢
  rcases ho with h | h | h | h <;> simp [h]

def facing (w : Word) : Machine :=
  (Command.step 2).run ((Command.loadProgram [0x60C8, 0x6FE4, w]).run (.new { base := 0 } ⟨fun _ => 0, 0⟩))

theorem addition_and_shifts_lose_no_bit_facing :
    (facing 0x80F4).current = .ok (.ofWord 0x80F4) ∧ (facing 0x8F0E).current = .ok (.ofWord 0x8F0E) ∧
      (facing 0x80F4).setup.legacyCarry = false ∧ (facing 0x8F0E).setup.legacyCarry = false ∧
      (facing 0x80F4).Splits 0 1 256 428 true ∧ (facing 0x8F0E).Splits Registers.flag 1 256 456 true := by
  have hi : (facing 0x80F4).current = .ok (.ofWord 0x80F4) := current_of_toOption (by decide +kernel)
  have hi' : (facing 0x8F0E).current = .ok (.ofWord 0x8F0E) := current_of_toOption (by decide +kernel)
  obtain ⟨hadd, -⟩ := addition_and_shifts_lose_no_bit hi rfl
  obtain ⟨-, -, hshift, -⟩ := addition_and_shifts_lose_no_bit hi' rfl
  have hx : (facing 0x80F4).register (Instruction.ofWord 0x80F4).word.x = 200 := by decide +kernel
  have hy : (facing 0x80F4).register (Instruction.ofWord 0x80F4).word.y = 228 := by decide +kernel
  have hflag : (facing 0x8F0E).register (Instruction.ofWord 0x8F0E).word.x = 228 := by decide +kernel
  rw [hx, hy] at hadd
  rw [hflag] at hshift
  exact ⟨hi, hi', rfl, rfl, hadd (by decide +kernel), hshift (by decide +kernel)⟩

/-- 8XY5 and 8XY7 wrap exactly where a borrow is needed. Their flag tells whether one was needed whenever the two
numbers differ. For equal numbers none is needed, and the flag is down all the same. -/
theorem subtraction_flag_exact_unless_equal (hi : m.current = .ok i) :
    (i.operation = .subtract → m.Subtracts i.word.x (m.register i.word.x) (m.register i.word.y)) ∧
    (i.operation = .subtractFrom → m.Subtracts i.word.x (m.register i.word.y) (m.register i.word.x)) := by
  have hx := (m.core.registers.get i.word.x).toNat_lt
  have hy := (m.core.registers.get i.word.y).toNat_lt
  constructor
  · intro ho
    exact subtracts_of_compute hi hx hy (Instruction.compute?_of_operation ho)
  · intro ho
    exact subtracts_of_compute hi hy hx (Instruction.compute?_of_operation ho)

theorem subtraction_flag_exact_unless_equal_facing :
    (facing 0x80F5).current = .ok (.ofWord 0x80F5) ∧ (facing 0x8F07).current = .ok (.ofWord 0x8F07) ∧
      (facing 0x80F5).Subtracts 0 200 228 ∧ (facing 0x8F07).Subtracts Registers.flag 200 228 := by
  have hi : (facing 0x80F5).current = .ok (.ofWord 0x80F5) := current_of_toOption (by decide +kernel)
  have hi' : (facing 0x8F07).current = .ok (.ofWord 0x8F07) := current_of_toOption (by decide +kernel)
  obtain ⟨hsubtract, -⟩ := subtraction_flag_exact_unless_equal hi
  obtain ⟨-, hfrom⟩ := subtraction_flag_exact_unless_equal hi'
  have hx : (facing 0x80F5).register (Instruction.ofWord 0x80F5).word.x = 200 := by decide +kernel
  have hy : (facing 0x80F5).register (Instruction.ofWord 0x80F5).word.y = 228 := by decide +kernel
  have hx' : (facing 0x8F07).register (Instruction.ofWord 0x8F07).word.x = 228 := by decide +kernel
  have hy' : (facing 0x8F07).register (Instruction.ofWord 0x8F07).word.y = 200 := by decide +kernel
  rw [hx, hy] at hsubtract
  rw [hx', hy'] at hfrom
  exact ⟨hi, hi', hsubtract (by decide +kernel), hfrom (by decide +kernel)⟩

def level : Machine :=
  (Command.step 2).run ((Command.loadProgram [0x6005, 0x6105, 0x8015]).run (.new { base := 0 } ⟨fun _ => 0, 0⟩))

/-- Where nothing is left the flag asks for 256 that no borrow has brought. -/
theorem no_borrow_flag_down_for_equals :
    level.current.toOption = some (.ofWord 0x8015) ∧ level.register 0 = 5 ∧ level.register 1 = 5 ∧
      level.cycle.fault? = none ∧ level.cycle.machine.register Registers.flag = 0 ∧
      level.cycle.machine.register 0 + 5 ≠ 5 + 256 * (1 - level.cycle.machine.register Registers.flag) := by
  decide +kernel

end Machine
end Chip8
