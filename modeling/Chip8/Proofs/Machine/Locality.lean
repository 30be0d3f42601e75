import Chip8.Proofs.Machine.Reachable
import Chip8.Proofs.Machine.Stages
import Chip8.Proofs.Memory.Agreement

/-! What a run depends on: in memory nothing but the bytes that it reads before it has written them. Two runs
that begin with other bytes elsewhere stay in step, and each byte that they write is the same from then on. -/
namespace Chip8

namespace Instruction
variable {setup : Setup} {random : UInt8} {i : Instruction} {c : Core} {n : Memory} {hidden : Nat → Prop}

def reads (i : Instruction) (c : Core) : List Nat :=
  match i.operation with
  | .draw => Memory.span c.index.toNat i.word.n
  | .loadBlock => Memory.span c.index.toNat (i.word.x + 1)
  | _ => []

def writes (i : Instruction) (c : Core) : List Nat :=
  match i.operation with
  | .storeBlock => Memory.span c.index.toNat (i.word.x + 1)
  | _ => []

theorem writes_of_ne_storeBlock (ho : i.operation ≠ .storeBlock) : i.writes c = [] := by
  rw [writes]
  cases hi : i.operation with
  | storeBlock => exact absurd hi ho
  | _ => rfl

/-- An effect changes no byte but those it writes. -/
theorem readByte_effect (hc : c.memory.Coherent) {a : Nat} (ha : a ∉ i.writes c) :
    (i.effect setup random c).1.memory.readByte a = c.memory.readByte a := by
  by_cases ho : i.operation = .storeBlock
  · rw [writes, ho] at ha
    rw [effect_storeBlock ho, Core.storeBlock]
    exact Memory.readByte_writeUpTo hc (by rwa [Registers.length_upTo])
  · rw [effect_keeps_memory_of_ne_storeBlock ho]

/-- An effect that reads no hidden byte and stores nothing takes no note of those hidden. -/
private theorem effect_of_agreeOutside (h : c.memory.AgreeOutside hidden n) (hr : ∀ a ∈ i.reads c, ¬ hidden a)
    (ho : i.operation ≠ .storeBlock) : i.effect setup random { c with memory := n } =
      ({ (i.effect setup random c).1 with memory := n }, (i.effect setup random c).2) := by
  cases hu : i.operation.usesMemory with
  | false => exact effect_memory hu n
  | true =>
    rcases Operation.usesMemory_iff.mp hu with hd | hs | hl
    · rw [reads, hd] at hr
      rw [effect_draw hd, effect_draw hd, Core.drawSprite, Core.drawSprite, ← h.readRange hr]
      cases c.memory.readRange c.index.toNat i.word.n <;> rfl
    · exact absurd hs ho
    · rw [reads, hl] at hr
      rw [effect_loadBlock hl, effect_loadBlock hl, Core.loadBlock, Core.loadBlock, ← h.readUpTo hr]

/-- An effect that reads no hidden byte differs in memory alone, and there in fewer bytes. -/
theorem effect_agreeOutside (h : c.memory.AgreeOutside hidden n) (hr : ∀ a ∈ i.reads c, ¬ hidden a) :
    ∃ after, i.effect setup random { c with memory := n } =
        ({ (i.effect setup random c).1 with memory := after }, (i.effect setup random c).2) ∧
      (i.effect setup random c).1.memory.AgreeOutside (fun a => hidden a ∧ a ∉ i.writes c) after := by
  by_cases ho : i.operation = .storeBlock
  · obtain ⟨hf, ha⟩ := h.writeUpTo (a := c.index.toNat) (c.registers.upTo i.word.x)
    rw [Registers.length_upTo] at ha
    refine ⟨(n.writeUpTo c.index.toNat (c.registers.upTo i.word.x)).1, ?_, ?_⟩
    · rw [effect_storeBlock ho, effect_storeBlock ho, Core.storeBlock, Core.storeBlock, hf]
    · rw [effect_storeBlock ho, Core.storeBlock, writes, ho]
      exact ha
  · refine ⟨n, effect_of_agreeOutside h hr ho, ?_⟩
    rw [effect_keeps_memory_of_ne_storeBlock ho, writes_of_ne_storeBlock ho]
    exact h.mono fun _ ha => ⟨ha, List.not_mem_nil⟩

end Instruction

namespace Machine
variable {m m' : Machine} {n : Memory} {hidden A : Nat → Prop}

/-- The addresses in memory that a cycle reads: two for the instruction, and those that it reads itself. -/
def reads (m : Machine) : List Nat :=
  Memory.span m.core.pc.toNat 2 ++
    match m.current with
    | .ok i => i.reads m.core
    | .error _ => []

def writes (m : Machine) : List Nat :=
  match m.current with
  | .ok i => i.writes m.core
  | .error _ => []

/-- The addresses that the first `n` cycles write, one that fails included. -/
def written (m : Machine) (n : Nat) : List Nat := (m.stages n).flatMap writes

private theorem written_succ_of_ok {k : Nat} (h : (m.run k).fault? = none) :
    m.written (k + 1) = m.written k ++ (m.run k).machine.writes := by
  rw [written, written, stages_succ_of_ok h, List.flatMap_append, List.flatMap_singleton]

theorem cycle_agreeOutside (h : m.core.memory.AgreeOutside hidden n) (hr : ∀ a ∈ m.reads, ¬ hidden a) :
    ∃ after, { m with core.memory := n }.cycle = { m.cycle with machine.core.memory := after } ∧
      m.cycle.machine.core.memory.AgreeOutside (fun a => hidden a ∧ a ∉ m.writes) after := by
  have hf : { m with core.memory := n }.current = m.current :=
    (h.fetch fun a ha => hr a (List.mem_append_left _ ha)).symm
  cases hc : m.current with
  | error f =>
    rw [hc] at hf
    rw [cycle_of_no_fetch hc, cycle_of_no_fetch hf, writes, hc]
    exact ⟨n, rfl, h.mono fun _ ha => ⟨ha, List.not_mem_nil⟩⟩
  | ok i =>
    rw [hc] at hf
    have hri : ∀ a ∈ i.reads m.core, ¬ hidden a := by
      intro a ha
      refine hr a (List.mem_append_right _ ?_)
      rw [hc]
      exact ha
    obtain ⟨after, he, ha⟩ := @Instruction.effect_agreeOutside m.setup m.tape.head i
      { m.core with drawing := false } n hidden h hri
    have he' : { m with core.memory := n }.effect i =
        ({ (m.effect i).1 with memory := after }, (m.effect i).2) := he
    rw [cycle_of_fetch hc, cycle_of_fetch hf, he', writes, hc, settle, settle]
    refine ⟨after, ?_, ?_⟩
    · cases (m.effect i).2 <;> rfl
    · cases (m.effect i).2 <;> exact ha

/-- In step with a run go all those that begin with other bytes only where it reads none before it has
written them. -/
theorem run_agreeOutside (h : m.core.memory.AgreeOutside hidden n) (k : Nat)
    (hr : ∀ j < k, (m.run j).fault? = none → ∀ a ∈ (m.run j).machine.reads, hidden a → a ∈ m.written j) :
    (m.run k).Like (fun s t => ∃ after, t = { s with core.memory := after } ∧
      s.core.memory.AgreeOutside (fun a => hidden a ∧ a ∉ m.written k) after)
      ({ m with core.memory := n }.run k) := by
  refine run_like (R := fun stages s t => ∃ after, t = { s with core.memory := after } ∧
    s.core.memory.AgreeOutside (fun a => hidden a ∧ a ∉ stages.flatMap writes) after) ?_ ?_
  · exact ⟨n, rfl, h.mono fun _ ha => ⟨ha, List.not_mem_nil⟩⟩
  · rintro j hj hok _ ⟨b, rfl, hb⟩
    obtain ⟨after, hc, ha⟩ := cycle_agreeOutside hb fun a hread hh => hh.2 (hr j hj hok a hread hh.1)
    rw [hc]
    refine ⟨rfl, rfl, after, rfl, ha.mono ?_⟩
    rintro a ⟨⟨hhidden, hearlier⟩, hnow⟩
    refine ⟨hhidden, ?_⟩
    rw [← written, written_succ_of_ok hok, List.mem_append]
    exact not_or.mpr ⟨hearlier, hnow⟩

/-- Bytes that a run does not write stay. -/
theorem readByte_of_not_written (hm : m.core.memory.Coherent) (k : Nat) {a : Nat} (ha : a ∉ m.written k) :
    (m.run k).machine.core.memory.readByte a = m.core.memory.readByte a := by
  refine (run_keeps (m := m) (n := k)
    (fun t => t.core.memory.Coherent ∧ t.core.memory.readByte a = m.core.memory.readByte a) ⟨hm, rfl⟩ ?_).2
  rintro t ht ⟨hc, hb⟩
  have hw : a ∉ t.writes := fun hw => ha (List.mem_flatMap.mpr ⟨t, ht, hw⟩)
  refine cycle_core (fun c => c.memory.Coherent ∧ c.memory.readByte a = m.core.memory.readByte a) ⟨hc, hb⟩
    (fun i hi => ?_) (fun _ _ hc => hc)
  rw [writes, hi] at hw
  exact ⟨Instruction.effect_coherent hc,
    (Instruction.readByte_effect (c := { t.core with drawing := false }) hc hw).trans hb⟩

/-- Machines that differ in nothing but memory, and there only at addresses in `A`. -/
structure SameOutside (A : Nat → Prop) (m m' : Machine) : Prop where
  rest : m' = { m with core.memory := m'.core.memory }
  bytes : ∀ a, ¬ A a → m.core.memory.readByte a = m'.core.memory.readByte a

/-- Let two machines differ in nothing but the bytes at addresses in `A`. If the first reads none of these
bytes in its run before the run has written it, both runs have the same fault and the same log, and leave
machines that differ in nothing but the bytes in `A` that the run has not written. -/
theorem run_depends_on_reads (hm : m.core.memory.Reachable) (hm' : m'.core.memory.Reachable)
    (h : m.SameOutside A m') (n : Nat)
    (hr : ∀ k < n, (m.run k).fault? = none → ∀ a ∈ (m.run k).machine.reads, A a → a ∈ m.written k) :
    (m.run n).Like (SameOutside fun a => A a ∧ a ∉ m.written n) (m'.run n) ∧
      ∀ a, a ∉ m.written n → (m.run n).machine.core.memory.readByte a = m.core.memory.readByte a := by
  have hagree : m.core.memory.AgreeOutside A m'.core.memory := ⟨hm.coherent, hm'.coherent, h.bytes⟩
  have hrun := run_agreeOutside hagree n hr
  rw [← h.rest] at hrun
  refine ⟨hrun.mono ?_, fun a => readByte_of_not_written hm.coherent n⟩
  rintro s _ ⟨after, rfl, ha⟩
  exact ⟨rfl, ha.readByte⟩

def layingTrack : Machine :=
  { Machine.new {} ⟨fun _ => 0, 0⟩ with
    core.memory := Memory.after [.instruction 0x200 0xF155]
    core.registers := Registers.zero.overwrite [0x12, 0x02]
    core.index := 0x202 }

def layingTrackElsewhere : Machine :=
  { layingTrack with
    core.memory := Memory.after [.instruction 0x200 0xF155, .instruction 0x202 0xFFFF, .byte 0x300 5] }

private theorem layingTrack_sameOutside :
    layingTrack.SameOutside (· ∈ [0x202, 0x203, 0x300]) layingTrackElsewhere := by
  have hbytes : Bytes.after [.instruction 0x200 0xF155, .instruction 0x202 0xFFFF, .byte 0x300 5] =
      ((Bytes.after [.instruction 0x200 0xF155]).overlay 0x202 [0xFF, 0xFF]).overlay 0x300 [5] := rfl
  refine ⟨rfl, fun a ha => ?_⟩
  simp only [List.mem_cons, List.not_mem_nil, or_false, not_or] at ha
  have hword : a < 0x202 ∨ 0x202 + [0xFF, 0xFF].length ≤ a := by
    rw [List.length_cons, List.length_singleton]
    omega
  have hbyte : a < 0x300 ∨ 0x300 + [5].length ≤ a := by
    rw [List.length_singleton]
    omega
  show (Memory.after _).readByte a = (Memory.after _).readByte a
  rw [Memory.readByte_eq (Memory.coherent_after _), Memory.readByte_eq (Memory.coherent_after _),
    Memory.bytes_after, Memory.bytes_after, hbytes, Bytes.read_overlay_of_outside _ hbyte,
    Bytes.read_overlay_of_outside _ hword]

theorem run_depends_on_reads_layingTrack :
    layingTrack.core.memory.Reachable ∧ layingTrackElsewhere.core.memory.Reachable ∧
      layingTrack.SameOutside (· ∈ [0x202, 0x203, 0x300]) layingTrackElsewhere ∧
      (∀ k < 2, (layingTrack.run k).fault? = none →
        ∀ a ∈ (layingTrack.run k).machine.reads, a ∈ [0x202, 0x203, 0x300] → a ∈ layingTrack.written k) ∧
      layingTrack.written 2 = [0x202, 0x203] ∧
      (layingTrack.run 2).Like
        (SameOutside fun a => a ∈ [0x202, 0x203, 0x300] ∧ a ∉ layingTrack.written 2)
        (layingTrackElsewhere.run 2) := by
  have hm : layingTrack.core.memory.Reachable := Memory.reachable_after _
  have hm' : layingTrackElsewhere.core.memory.Reachable := Memory.reachable_after _
  have hr : ∀ k < 2, (layingTrack.run k).fault? = none →
      ∀ a ∈ (layingTrack.run k).machine.reads, a ∈ [0x202, 0x203, 0x300] → a ∈ layingTrack.written k := by
    decide +kernel
  have hw : layingTrack.written 2 = [0x202, 0x203] := by decide +kernel
  exact ⟨hm, hm', layingTrack_sameOutside, hr, hw,
    (run_depends_on_reads hm hm' layingTrack_sameOutside 2 hr).1⟩

end Machine
end Chip8
