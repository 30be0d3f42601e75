import Chip8.Proofs.Machine.Footprint

/-! Word boundaries. Code that begins on one stays on them: a cycle goes on by whole words, returns come back
to where calls were made from, and a plain jump goes to the nearest boundary. Only calls and jumps with an
offset go to an address as it is given, and whether those are boundaries decides. -/
namespace Chip8

def OnBoundary (address : UInt16) : Prop := address.toNat % 2 = 0

instance (address : UInt16) : Decidable (OnBoundary address) := inferInstanceAs (Decidable (_ = _))

private theorem onBoundary_alignUp (address : UInt16) : OnBoundary (alignUp address) := by
  have hlt := address.toNat_lt
  simp only [OnBoundary, alignUp, UInt16.toNat_add, UInt16.toNat_mod]
  simp
  omega

private theorem onBoundary_add_two {address : UInt16} (h : OnBoundary address) : OnBoundary (address + 2) := by
  rw [OnBoundary] at h ⊢
  rw [UInt16.toNat_add]
  simp
  omega

private theorem onBoundary_add_four {address : UInt16} (h : OnBoundary address) : OnBoundary (address + 4) := by
  have htwo := onBoundary_add_two (onBoundary_add_two h)
  rwa [UInt16.add_assoc] at htwo

structure Core.Aligned (c : Core) : Prop where
  pc : OnBoundary c.pc
  calls : ∀ address ∈ c.calls.frames, OnBoundary address

namespace Instruction
variable {i : Instruction} {c after : Core} {flow : Flow}

/-- A call, or a jump with an offset, goes to an even address. Other instructions are free. -/
def TargetsBoundary (i : Instruction) (c : Core) : Prop :=
  (i.operation = .call → i.word.nnn.toNat % 2 = 0) ∧
  (i.operation = .jumpOffset → (i.word.nnn.toNat + (c.registers.get Registers.first).toNat) % 2 = 0)

instance (i : Instruction) (c : Core) : Decidable (i.TargetsBoundary c) := inferInstanceAs (Decidable (_ ∧ _))

theorem Performs.target_onBoundary_iff (h : i.Performs c after flow) (hc : c.Aligned) :
    OnBoundary (flow.target c.pc) ↔ i.TargetsBoundary c := by
  by_cases hcall : i.operation = .call
  · rw [h.flow_of_call hcall]
    simp [Flow.target, OnBoundary, TargetsBoundary, hcall]
  by_cases hoffset : i.operation = .jumpOffset
  · rw [h.flow_of_jumpOffset hoffset, Flow.target, OnBoundary, toNat_jumpOffset]
    simp [TargetsBoundary, hoffset]
  · refine iff_of_true ?_ ⟨fun ho => absurd ho hcall, fun ho => absurd ho hoffset⟩
    cases h with
    | leave _ hf => exact hc.calls _ (hf ▸ List.mem_cons_self)
    | jump _ => exact onBoundary_alignUp _
    | call ho _ => exact absurd ho hcall
    | jumpOffset ho => exact absurd ho hoffset
    | skip _ => exact onBoundary_add_four hc.pc
    | _ => exact onBoundary_add_two hc.pc

/-- The address behind a call is a boundary if the call is on one. -/
theorem Performs.calls_onBoundary (h : i.Performs c after flow) (hc : c.Aligned) :
    ∀ address ∈ after.calls.frames, OnBoundary address := by
  intro address hmem
  rcases h.calls_cases with ⟨_, _, hs⟩ | ⟨_, hs, _⟩ | ⟨_, _, hs, _⟩
  · exact hc.calls address (hs ▸ hmem)
  · rw [hs] at hmem
    rcases List.mem_cons.mp hmem with rfl | hmem
    · exact onBoundary_add_two hc.pc
    · exact hc.calls address hmem
  · exact hc.calls address (hs ▸ List.mem_cons_of_mem _ hmem)

end Instruction

namespace Machine
variable {m t : Machine} {i : Instruction} {n : Nat}

def TargetsBoundary (m : Machine) : Prop := ∀ i, m.current = .ok i → i.TargetsBoundary m.core

instance (m : Machine) : Decidable m.TargetsBoundary :=
  decidable_of_iff (∀ i ∈ m.current.toOption, i.TargetsBoundary m.core)
    ⟨fun h i hi => h i (by rw [hi]; rfl), fun h i hi => h i (current_of_toOption hi)⟩

/-- A cycle loses the boundaries exactly if it executes a call or a jump with an offset to an odd address. -/
theorem cycle_aligned_iff (h : m.cycle.fault? = none) (hm : m.core.Aligned) :
    m.cycle.machine.core.Aligned ↔ m.TargetsBoundary := by
  obtain ⟨i, after, flow, hc, hp, he⟩ := cycle_performs h
  have hm' : { m.core with drawing := false }.Aligned := ⟨hm.pc, hm.calls⟩
  have htarget : OnBoundary (flow.target m.core.pc) ↔ i.TargetsBoundary m.core := hp.target_onBoundary_iff hm'
  rw [he]
  constructor
  · intro ha j hj
    cases hc.symm.trans hj
    exact htarget.mp ha.pc
  · intro ht
    exact ⟨htarget.mpr (ht i hc), hp.calls_onBoundary hm'⟩

theorem run_aligned_iff (h : (m.run n).fault? = none) (hm : m.core.Aligned) :
    (∀ k ≤ n, (m.run k).machine.core.Aligned) ↔ ∀ t ∈ m.stages n, t.TargetsBoundary := by
  constructor
  · intro ha t ht
    obtain ⟨k, hk, _, rfl⟩ := mem_stages_iff.mp ht
    obtain ⟨hc, hlast⟩ := run_last (run_ok_of_le h (Nat.succ_le_of_lt hk))
    apply (cycle_aligned_iff hc (ha k (Nat.le_of_lt hk))).mp
    rw [← hlast]
    exact ha (k + 1) hk
  · intro ht k hk
    refine run_keeps (fun t => t.core.Aligned) hm fun t hstage hal => ?_
    obtain ⟨j, hj, _, rfl⟩ := mem_stages_iff.mp hstage
    obtain ⟨hc, _⟩ := run_last (run_ok_of_le h (Nat.lt_of_lt_of_le hj hk))
    exact (cycle_aligned_iff hc hal).mpr (ht _ ((stages_prefix_of_le hk).subset hstage))

/-- A plain jump cannot fail and goes to a boundary from anywhere. -/
theorem cycle_of_jump (hc : m.current = .ok i) (ho : i.operation = .jump) :
    m.cycle.fault? = none ∧ OnBoundary m.cycle.machine.core.pc := by
  have he : (m.effect i).2 = .ok (.jump (alignUp i.word.nnn)) := congrArg Prod.snd (Instruction.effect_jump ho)
  rw [cycle_of_flow hc he]
  exact ⟨rfl, onBoundary_alignUp _⟩

/-- From an aligned state, a run of cycles that succeed is aligned after every one of them if and only if all the
calls and jumps with an offset in it go to even addresses. Nothing else that it executes can break the alignment,
whatever the state, and a plain jump ends on a boundary even if it did not begin on one. -/
theorem alignment_lost_by_odd_targets_only (h : (m.run n).fault? = none) (hm : m.core.Aligned) :
    ((∀ k ≤ n, (m.run k).machine.core.Aligned) ↔ ∀ t ∈ m.stages n, t.TargetsBoundary) ∧
    (∀ t : Machine, t.core.Aligned → t.cycle.fault? = none →
      (∀ i, t.current = .ok i → i.operation ≠ .call ∧ i.operation ≠ .jumpOffset) → t.cycle.machine.core.Aligned) ∧
    ∀ (t : Machine) (i : Instruction), t.current = .ok i → i.operation = .jump →
      t.cycle.fault? = none ∧ OnBoundary t.cycle.machine.core.pc := by
  refine ⟨run_aligned_iff h hm, ?_, fun t i => cycle_of_jump⟩
  intro t ht hc hfree
  apply (cycle_aligned_iff hc ht).mpr
  intro i hi
  obtain ⟨hcall, hoffset⟩ := hfree i hi
  exact ⟨fun ho => absurd ho hcall, fun ho => absurd ho hoffset⟩

def realigning : Machine :=
  (Command.loadProgram [0x2208, 0x1200, 0x0000, 0xB201, 0x6005, 0xA203, 0xF055, 0x00EE]).run
    (.new {} ⟨fun _ => 0, 0⟩)

theorem alignment_lost_by_odd_targets_only_realigning :
    realigning.core.Aligned ∧ (realigning.run 7).fault? = none ∧
      (realigning.run 5).machine.current = .ok (.ofWord 0x1205) ∧
      (∀ t ∈ realigning.stages 7, t.TargetsBoundary) ∧ ∀ k ≤ 7, (realigning.run k).machine.core.Aligned := by
  have hopen : realigning.core.calls.frames = [] := by decide +kernel
  have hm : realigning.core.Aligned := ⟨by decide +kernel, by simp [hopen]⟩
  obtain ⟨h, hodd, hstages⟩ : (realigning.run 7).fault? = none ∧
      (realigning.run 5).machine.current.toOption = some (.ofWord 0x1205) ∧
      ∀ t ∈ realigning.stages 7, t.TargetsBoundary := by decide +kernel
  exact ⟨hm, h, current_of_toOption hodd, hstages, (alignment_lost_by_odd_targets_only h hm).1.mpr hstages⟩

end Machine
end Chip8
