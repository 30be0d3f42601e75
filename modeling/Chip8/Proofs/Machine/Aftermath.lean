import Chip8.Proofs.Effect.Blocks
import Chip8.Proofs.Machine.Failure

/-! What a failing cycle leaves behind. Only block transfers have changed anything by the time they
fail: they have moved the bytes that there was room for. -/
namespace Chip8

private theorem Instruction.Refuses.ne_random {i : Instruction} {c : Core} {f : Fault} (h : i.Refuses c f) :
    i.operation ≠ .random := by
  cases h with
  | unknown hu =>
    intro ho
    simp [ho, Operation.isUnknown] at hu
  | unimplemented hu =>
    simp only [List.mem_cons, List.not_mem_nil, or_false] at hu
    rcases hu with ho | ho | ho | ho | ho <;> rw [ho] <;> decide
  | noCaller ho _ | callsTooDeep ho _ | sprite ho _ _ => rw [ho]; decide
  | block ho _ => rcases ho with ho | ho <;> rw [ho] <;> decide

namespace Machine
variable {m : Machine} {f : Fault} {i : Instruction}

/-- A failure is that of the fetch or that of a refused instruction, whose effect stays. -/
theorem failure_cases (h : m.core.Sound) (hf : m.cycle.fault? = some f) :
    (m.current = .error f ∧ m.cycle.machine = { m with core.drawing := false }) ∨
    ∃ i, m.current = .ok i ∧ i.Refuses m.core f ∧ (m.effect i).2 = .error f ∧
      m.cycle.machine = { m with core := (m.effect i).1 } := by
  cases hc : m.current with
  | error g =>
    rw [cycle_of_no_fetch hc] at hf ⊢
    cases hf
    exact .inl ⟨rfl, rfl⟩
  | ok i =>
    refine .inr ⟨i, rfl, ?_⟩
    cases he : (m.effect i).2 with
    | ok flow => rw [cycle_of_flow hc he] at hf; cases hf
    | error g =>
      rw [cycle_of_failure hc he] at hf ⊢
      cases hf
      have hr := (effect_error_iff h (current_decoded h.coherent hc)).mp he
      refine ⟨hr, rfl, ?_⟩
      rw [tapeAfter, if_neg hr.ne_random]

structure Stuck (m t : Machine) : Prop where
  setup : t.setup = m.setup
  tape : t.tape = m.tape
  pc : t.core.pc = m.core.pc
  index : t.core.index = m.core.index
  delay : t.core.delay = m.core.delay
  sound : t.core.sound = m.core.sound
  calls : t.core.calls = m.core.calls
  screen : t.core.screen = m.core.screen
  drawing : t.core.drawing = false

def room (m : Machine) : Nat := 0xFFF - m.core.index.toNat

private theorem lt_room_iff {j : Nat} : j < m.room ↔ m.core.index.toNat + j < Memory.size := by
  have hsize : Memory.size = 0xFFF := rfl
  rw [room]
  omega

/-- The registers that there was room for have been stored from I on, and nothing else was done. -/
structure StoredPart (m t : Machine) : Prop where
  registers : t.core.registers = m.core.registers
  inside (j : Fin registerCount) : j < m.room →
    t.core.memory.readByte (m.core.index.toNat + j) = .ok (m.core.registers.get j)
  outside (a : Nat) : a < m.core.index.toNat ∨ m.core.index.toNat + m.room ≤ a →
    t.core.memory.readByte a = m.core.memory.readByte a

/-- The bytes that there are from I on have been loaded, and nothing else was done. -/
structure LoadedPart (m t : Machine) : Prop where
  memory : t.core.memory = m.core.memory
  inside (j : Fin registerCount) : j < m.room →
    m.core.memory.readByte (m.core.index.toNat + j) = .ok (t.core.registers.get j)
  outside (j : Fin registerCount) : m.room ≤ j → t.core.registers.get j = m.core.registers.get j

theorem room_le_of_refuses (h : i.Refuses m.core f)
    (hi : i.operation = .storeBlock ∨ i.operation = .loadBlock) : m.room ≤ i.word.x := by
  cases h with
  | block _ hs =>
    apply Nat.le_of_not_lt
    intro hlt
    have hfit := lt_room_iff.mp hlt
    omega
  | unknown hu => rcases hi with ho | ho <;> simp [ho, Operation.isUnknown] at hu
  | unimplemented hu => rcases hi with ho | ho <;> simp [ho] at hu
  | noCaller hn _ | callsTooDeep hn _ | sprite hn _ _ => rcases hi with ho | ho <;> simp [ho] at hn

/-- A store without room for all registers writes those that there is room for and nothing else. -/
theorem storeBlock_aftermath (h : m.core.Sound) (ho : i.operation = .storeBlock)
    (hroom : m.room ≤ i.word.x) :
    m.Stuck { m with core := (m.effect i).1 } ∧ m.StoredPart { m with core := (m.effect i).1 } := by
  have hcore : (m.effect i).1 = ({ m.core with drawing := false }.storeBlock i.word.x).1 := by
    rw [effect, Instruction.effect_storeBlock ho]
  rw [hcore]
  refine ⟨⟨rfl, rfl, rfl, rfl, rfl, rfl, rfl, rfl, rfl⟩, rfl, ?_, ?_⟩
  · intro j hj
    exact Core.readByte_storeBlock h.coherent (Nat.le_of_lt (Nat.lt_of_lt_of_le hj hroom)) (lt_room_iff.mp hj)
  · intro a ha
    refine Core.readByte_storeBlock_of_outside h.coherent fun hmem => ?_
    have hin : m.core.index.toNat ≤ a ∧ a < m.core.index.toNat + (i.word.x + 1) ∧ a < Memory.size :=
      Memory.mem_span_iff.mp hmem
    have hreached : a - m.core.index.toNat < m.room := lt_room_iff.mpr (by omega)
    omega

/-- A load without room for all registers fills those that there are bytes for and nothing else. -/
theorem loadBlock_aftermath (h : m.core.Sound) (ho : i.operation = .loadBlock)
    (hroom : m.room ≤ i.word.x) :
    m.Stuck { m with core := (m.effect i).1 } ∧ m.LoadedPart { m with core := (m.effect i).1 } := by
  have hcore : (m.effect i).1 = ({ m.core with drawing := false }.loadBlock i.word.x).1 := by
    rw [effect, Instruction.effect_loadBlock ho]
  have hstuck : m.Stuck { m with core := ({ m.core with drawing := false }.loadBlock i.word.x).1 } := by
    rw [Core.loadBlock]
    exact ⟨rfl, rfl, rfl, rfl, rfl, rfl, rfl, rfl, rfl⟩
  rw [hcore]
  refine ⟨hstuck, rfl, ?_, ?_⟩
  · intro j hj
    exact Core.get_loadBlock (c := { m.core with drawing := false }) h.coherent
      (Nat.le_of_lt (Nat.lt_of_lt_of_le hj hroom)) (lt_room_iff.mp hj)
  · intro j hj
    have hsize := mt lt_room_iff.mpr (Nat.not_lt_of_le hj)
    exact Core.get_loadBlock_of_outside (c := { m.core with drawing := false }) h.coherent
      (.inr (Nat.le_of_not_lt hsize))

/-- After a failing cycle everything is as before, but for the draw flag, which is down, and for the
part of a block transfer that there was room for. In particular a sprite that cannot be read leaves
VF and the screen alone. -/
theorem failed_cycle_leaves (hm : m.Reachable) (hf : m.cycle.fault? = some f) :
    m.Stuck m.cycle.machine ∧
    ((∀ i, m.current = .ok i → i.operation ≠ .storeBlock ∧ i.operation ≠ .loadBlock) →
      m.cycle.machine.core.memory = m.core.memory ∧
      m.cycle.machine.core.registers = m.core.registers) ∧
    (∀ i, m.current = .ok i → i.operation = .storeBlock →
      m.room ≤ i.word.x ∧ m.StoredPart m.cycle.machine) ∧
    (∀ i, m.current = .ok i → i.operation = .loadBlock →
      m.room ≤ i.word.x ∧ m.LoadedPart m.cycle.machine) := by
  have hs := hm.sound
  rcases failure_cases hs hf with ⟨hc, ht⟩ | ⟨i, hc, hr, he, ht⟩
  · rw [ht, hc]
    exact ⟨⟨rfl, rfl, rfl, rfl, rfl, rfl, rfl, rfl, rfl⟩, fun _ => ⟨rfl, rfl⟩, nofun, nofun⟩
  · rw [ht, hc]
    by_cases hstore : i.operation = .storeBlock
    · have hroom := room_le_of_refuses hr (.inl hstore)
      obtain ⟨hstuck, hpart⟩ := storeBlock_aftermath hs hstore hroom
      refine ⟨hstuck, ?_, ?_, ?_⟩
      · intro hn
        exact absurd hstore (hn i rfl).1
      · rintro _ ⟨⟩ _
        exact ⟨hroom, hpart⟩
      · rintro _ ⟨⟩ hload
        cases hstore.symm.trans hload
    · by_cases hload : i.operation = .loadBlock
      · have hroom := room_le_of_refuses hr (.inr hload)
        obtain ⟨hstuck, hpart⟩ := loadBlock_aftermath hs hload hroom
        refine ⟨hstuck, ?_, ?_, ?_⟩
        · intro hn
          exact absurd hload (hn i rfl).2
        · rintro _ ⟨⟩ hi
          exact absurd hi hstore
        · rintro _ ⟨⟩ _
          exact ⟨hroom, hpart⟩
      · have hcore : (m.effect i).1 = { m.core with drawing := false } :=
          Instruction.effect_core_of_error he hstore hload
        rw [hcore]
        refine ⟨⟨rfl, rfl, rfl, rfl, rfl, rfl, rfl, rfl, rfl⟩, fun _ => ⟨rfl, rfl⟩, ?_, ?_⟩
        · rintro _ ⟨⟩ hi
          exact absurd hi hstore
        · rintro _ ⟨⟩ hi
          exact absurd hi hload

def overrun : Machine :=
  (Command.step 2).run ((Command.loadProgram [0xAFFD, 0x6107, 0xF255]).run (.new {} ⟨fun _ => 0, 0⟩))

theorem failed_cycle_leaves_overrun :
    overrun.Reachable ∧ overrun.cycle.fault? = some (.outOfRange 0xFFF) ∧
      overrun.Stuck overrun.cycle.machine ∧ overrun.StoredPart overrun.cycle.machine := by
  have hm : overrun.Reachable := .after _ (.after _ (.new _ _))
  have hf : overrun.cycle.fault? = some (.outOfRange 0xFFF) := by decide +kernel
  have hc : overrun.current = .ok (.ofWord 0xF255) := current_of_toOption (by decide +kernel)
  have hleaves := failed_cycle_leaves hm hf
  exact ⟨hm, hf, hleaves.1, (hleaves.2.2.1 _ hc (by decide)).2⟩

end Machine
end Chip8
