import Chip8.Proofs.Machine.Locality

/-! Which bytes are kept decoded cannot be observed. Two memories are alike when both are coherent
and show the same bytes, so that nothing a run depends on tells them apart; every run keeps them alike
and does the same to all the rest. -/
namespace Chip8

structure Memory.Alike (m n : Memory) : Prop where
  left : m.Coherent
  right : n.Coherent
  bytes : m.bytes = n.bytes

namespace Memory
variable {m n : Memory}

private theorem bytes_eq_of_readByte (hm : m.Coherent) (hn : n.Coherent) (h : ∀ a, m.readByte a = n.readByte a) :
    m.bytes = n.bytes := by
  have hagree : m.AgreeOutside (fun _ => False) n := ⟨hm, hn, fun a _ => h a⟩
  exact Vector.ext fun k hk => hagree.getElem not_false hk

theorem Alike.readByte (h : m.Alike n) (a : Nat) : m.readByte a = n.readByte a := by
  rw [readByte_eq h.left, readByte_eq h.right, h.bytes]

/-- To be alike is to agree everywhere. -/
private theorem alike_iff : m.Alike n ↔ m.AgreeOutside (fun _ => False) n := by
  constructor
  · exact fun h => ⟨h.left, h.right, fun a _ => h.readByte a⟩
  · exact fun h => ⟨h.left, h.right, bytes_eq_of_readByte h.left h.right fun a => h.readByte a not_false⟩

end Memory

namespace Machine
variable {m : Machine} {n : Memory}

theorem run_alike (h : m.core.memory.Alike n) (k : Nat) : ∃ after,
    { m with core.memory := n }.run k = { m.run k with machine.core.memory := after } ∧
      (m.run k).machine.core.memory.Alike after := by
  have hlike := run_agreeOutside (Memory.alike_iff.mp h) k fun _ _ _ _ _ => False.elim
  obtain ⟨after, hmachine, ha⟩ := hlike.machine
  exact ⟨after, hlike.eq hmachine, Memory.alike_iff.mpr (ha.mono fun _ => And.left)⟩

/-- Equal but for the cells of memory, which show the same bytes. -/
structure SameBytes (m n : Machine) : Prop where
  setup : m.setup = n.setup
  tape : m.tape = n.tape
  registers : m.core.registers = n.core.registers
  calls : m.core.calls = n.core.calls
  screen : m.core.screen = n.core.screen
  pc : m.core.pc = n.core.pc
  index : m.core.index = n.core.index
  delay : m.core.delay = n.core.delay
  sound : m.core.sound = n.core.sound
  drawing : m.core.drawing = n.core.drawing
  bytes : ∀ a, m.core.memory.readByte a = n.core.memory.readByte a

private theorem SameBytes.eq_with {m n : Machine} (h : m.SameBytes n) :
    n = { m with core.memory := n.core.memory } := by
  obtain ⟨h1, h2, h3, h4, h5, h6, h7, h8, h9, h10, _⟩ := h
  cases m; cases n; simp_all

/-- A cycle that relies on no decode kept in memory: it takes two bytes and decodes them. -/
def decodingCycle (m : Machine) : Outcome :=
  m.cycleOn ((m.core.memory.readWord m.core.pc.toNat).map .ofWord)

def decodingRun : Nat → Machine → Outcome
  | 0, m => ⟨m, none, []⟩
  | k + 1, m =>
    let o := m.decodingCycle
    match o.fault? with
    | some _ => o
    | none => { decodingRun k o.machine with log := o.log ++ (decodingRun k o.machine).log }

private theorem decodingCycle_eq (h : m.core.memory.Coherent) : m.decodingCycle = m.cycle := by
  rw [decodingCycle, cycle, current, Memory.fetch_eq h, Memory.readWord_eq h, Bytes.fetch]

theorem cycle_coherent (h : m.core.memory.Coherent) : m.cycle.machine.core.memory.Coherent :=
  cycle_core (·.memory.Coherent) h (fun _ _ => Instruction.effect_coherent h) fun _ _ hc => hc

theorem decodingRun_eq (h : m.core.memory.Coherent) (k : Nat) : m.decodingRun k = m.run k := by
  induction k generalizing m with
  | zero => rfl
  | succ k ih =>
    rw [decodingRun, decodingCycle_eq h]
    cases hf : m.cycle.fault? with
    | some f => rw [run_succ_of_fault hf]
    | none =>
      rw [run_succ_of_ok hf]
      simp only [ih (cycle_coherent h)]

theorem SameBytes.of_alike {m : Machine} {n : Memory} (h : m.core.memory.Alike n) :
    m.SameBytes { m with core.memory := n } :=
  ⟨rfl, rfl, rfl, rfl, rfl, rfl, rfl, rfl, rfl, rfl, h.readByte⟩

/-- Where memory keeps decoded instructions changes nothing: not the outcome of a run, not its log,
not the machine it leaves. In particular a run is what it would be if every cycle decoded anew. -/
theorem run_layout_free {m n : Machine} (hm : m.core.memory.Reachable) (hn : n.core.memory.Reachable)
    (h : m.SameBytes n) (k : Nat) :
    (m.run k).fault? = (n.run k).fault? ∧ (m.run k).log = (n.run k).log ∧
      (m.run k).machine.SameBytes (n.run k).machine ∧ m.decodingRun k = m.run k := by
  have hcm : m.core.memory.Coherent := hm.coherent
  have hcn : n.core.memory.Coherent := hn.coherent
  have ha : m.core.memory.Alike n.core.memory :=
    ⟨hcm, hcn, Memory.bytes_eq_of_readByte hcm hcn h.bytes⟩
  obtain ⟨after, hr, hafter⟩ := run_alike ha k
  rw [← h.eq_with] at hr
  rw [hr]
  exact ⟨rfl, rfl, SameBytes.of_alike hafter, decodingRun_eq hcm k⟩

def selfWriting : Machine :=
  { Machine.new {} ⟨fun _ => 0, 0⟩ with
    core.memory := Memory.after [.instruction 0x200 0xF055]
    core.index := 0x201 }

def selfWritingBytes : Machine :=
  { selfWriting with core.memory := Memory.after [.byte 0x200 0xF0, .byte 0x201 0x55] }

theorem selfWriting_sameBytes : selfWriting.SameBytes selfWritingBytes := by
  have hsplit : Bytes.zero.overlay 0x200 [0xF0, 0x55] =
      (Bytes.zero.overlay 0x200 [0xF0]).overlay 0x201 [0x55] := Bytes.overlay_cons 0xF0 [0x55]
  have hbytes : (Memory.after [.instruction 0x200 0xF055]).bytes =
      (Memory.after [.byte 0x200 0xF0, .byte 0x201 0x55]).bytes := by
    rw [Memory.bytes_after, Memory.bytes_after]
    exact hsplit
  exact .of_alike ⟨Memory.coherent_after _, Memory.coherent_after _, hbytes⟩

theorem run_layout_free_selfWriting :
    selfWriting.core.memory.Reachable ∧ selfWritingBytes.core.memory.Reachable ∧
      selfWriting.SameBytes selfWritingBytes ∧
      (selfWriting.run 2).fault? = (selfWritingBytes.run 2).fault? ∧
      (selfWriting.run 2).log = (selfWritingBytes.run 2).log ∧
      (selfWriting.run 2).machine.SameBytes (selfWritingBytes.run 2).machine ∧
      selfWriting.decodingRun 2 = selfWriting.run 2 := by
  have hm : selfWriting.core.memory.Reachable := Memory.reachable_after _
  have hn : selfWritingBytes.core.memory.Reachable := Memory.reachable_after _
  exact ⟨hm, hn, selfWriting_sameBytes, run_layout_free hm hn selfWriting_sameBytes 2⟩

end Machine
end Chip8
