import Chip8.Proofs.Effect.Frame
import Chip8.Proofs.Machine.Reachable

/-! Calls and returns bracket each other. While a call is open the frames of its caller stay below those
of the callee, with the address to return to on top of them; the return that takes this address off the
stack goes there. -/
namespace Chip8.Machine
variable {m : Machine} {i : Instruction} {back : UInt16} {caller : List UInt16}

def depth (m : Machine) : Nat := m.core.calls.frames.length

def Leaves (m : Machine) : Prop := ∃ i, m.current = .ok i ∧ i.operation = .leave

/-- A cycle leaves the open calls alone, opens one or returns from the innermost. -/
theorem cycle_calls (h : m.cycle.fault? = none) (hi : m.current = .ok i) :
    (i.operation ≠ .call ∧ m.cycle.machine.core.calls.frames = m.core.calls.frames) ∨
    (i.operation = .call ∧
      m.cycle.machine.core.calls.frames = (m.core.pc + 2) :: m.core.calls.frames) ∨
    (i.operation = .leave ∧
      m.core.calls.frames = m.cycle.machine.core.pc :: m.cycle.machine.core.calls.frames) := by
  obtain ⟨j, after, flow, hj, hp, he⟩ := cycle_performs h
  cases hi.symm.trans hj
  rw [he]
  rcases hp.calls_cases with ⟨hc, _, hs⟩ | ⟨hc, hs, _⟩ | ⟨hl, address, hs, rfl⟩
  · exact .inl ⟨hc, congrArg CallStack.frames hs⟩
  · exact .inr (.inl ⟨hc, hs⟩)
  · exact .inr (.inr ⟨hl, hs⟩)

/-- With fewer calls open than there is room for, a call succeeds. -/
private theorem cycle_of_call (hi : m.current = .ok i) (ho : i.operation = .call) (hd : m.depth < callDepth) :
    m.cycle.fault? = none := by
  let c : Core := { m.core with drawing := false }
  have hpush : c.calls.push (c.pc + 2) = .ok ⟨(c.pc + 2) :: c.calls.frames⟩ := if_pos hd
  have he : m.effect i = ({ c with calls := ⟨(c.pc + 2) :: c.calls.frames⟩ }, .ok (.jump i.word.nnn)) :=
    Instruction.effect_call ho hpush
  rw [cycle_of_flow hi (congrArg Prod.snd he)]

/-- One cycle either keeps the return address and the caller's frames where they are or is the return. -/
private theorem cycle_keeps_caller (h : m.cycle.fault? = none) (hs : (back :: caller) <:+ m.core.calls.frames) :
    (back :: caller) <:+ m.cycle.machine.core.calls.frames ∨
    (m.Leaves ∧ m.cycle.machine.core.calls.frames = caller ∧ m.cycle.machine.core.pc = back) := by
  obtain ⟨i, _, _, hi, _⟩ := cycle_performs h
  rcases cycle_calls h hi with ⟨_, hf⟩ | ⟨_, hf⟩ | ⟨hl, hf⟩
  · rw [hf]
    exact .inl hs
  · rw [hf]
    exact .inl (hs.trans (List.suffix_cons _ _))
  · rw [hf, List.suffix_cons_iff] at hs
    rcases hs with heq | hs
    · obtain ⟨hb, hc⟩ := List.cons.inj heq
      exact .inr ⟨⟨i, hi, hl⟩, hc.symm, hb.symm⟩
    · exact .inl hs

/-- As long as the stack is never as short as the caller's, the caller's frames and the return address
stay. -/
theorem run_keeps_caller {n : Nat} (h : (m.run n).fault? = none)
    (hs : (back :: caller) <:+ m.core.calls.frames)
    (hd : ∀ k ≤ n, (m.run k).machine.depth ≠ caller.length) :
    (back :: caller) <:+ (m.run n).machine.core.calls.frames := by
  induction n with
  | zero => exact hs
  | succ n ih =>
    obtain ⟨hc, hm⟩ := run_last h
    have hn := ih (run_ok_of_succ h) fun k hk => hd k (Nat.le_succ_of_le hk)
    rw [hm]
    rcases cycle_keeps_caller hc hn with hs | ⟨_, hf, _⟩
    · exact hs
    · refine absurd ?_ (hd (n + 1) (Nat.le_refl _))
      rw [hm, depth, hf]

/-- A call at `pc` succeeds when there is room for it. Whatever the callee does, as long as the stack is
longer than the caller's it begins with the caller's frames, and the first cycle after which it is as long
as the caller's again is a return, which leaves the caller's frames and goes to the word after the call. -/
theorem calls_well_bracketed (hi : m.current = .ok i) (ho : i.operation = .call)
    (hd : m.depth < callDepth) :
    m.cycle.fault? = none ∧
    (∀ n, (m.run (n + 1)).fault? = none → (∀ k ≤ n, m.depth < (m.run (k + 1)).machine.depth) →
      m.core.calls.outermostFirst <+: (m.run (n + 1)).machine.core.calls.outermostFirst) ∧
    ∀ n, (m.run (n + 1)).fault? = none → (∀ k < n, (m.run (k + 1)).machine.depth ≠ m.depth) →
      (m.run (n + 1)).machine.depth = m.depth →
      (m.run n).machine.Leaves ∧ (m.run (n + 1)).machine.core.calls = m.core.calls ∧
        (m.run (n + 1)).machine.core.pc = m.core.pc + 2 := by
  have hok := cycle_of_call hi ho hd
  have hcall : m.cycle.machine.core.calls.frames = (m.core.pc + 2) :: m.core.calls.frames := by
    rcases cycle_calls hok hi with ⟨hn, _⟩ | ⟨_, hf⟩ | ⟨hl, _⟩
    · exact absurd ho hn
    · exact hf
    · cases ho.symm.trans hl
  -- the run goes on from the callee's first instruction
  have hrun (k : Nat) : (m.run (k + 1)).machine = (m.cycle.machine.run k).machine ∧
      (m.run (k + 1)).fault? = (m.cycle.machine.run k).fault? := by
    rw [run_succ_of_ok hok]
    exact ⟨rfl, rfl⟩
  have hkept {n : Nat} (h : (m.run (n + 1)).fault? = none)
      (hopen : ∀ k ≤ n, (m.run (k + 1)).machine.depth ≠ m.depth) :
      ((m.core.pc + 2) :: m.core.calls.frames) <:+ (m.run (n + 1)).machine.core.calls.frames := by
    rw [(hrun n).2] at h
    rw [(hrun n).1]
    refine run_keeps_caller h (hcall ▸ List.suffix_refl _) fun k hk => ?_
    rw [← (hrun k).1]
    exact hopen k hk
  refine ⟨hok, ?_, ?_⟩
  · intro n h hopen
    have hs := hkept h fun k hk => Nat.ne_of_gt (hopen k hk)
    exact List.reverse_prefix.mpr ((List.suffix_cons _ _).trans hs)
  · intro n h hopen hback
    cases n with
    | zero =>
      rw [(hrun 0).1, run_zero, depth, hcall] at hback
      simp [depth] at hback
    | succ n =>
      obtain ⟨hc, hm⟩ := run_last h
      have hs := hkept (run_ok_of_succ h) fun k hk => hopen k (Nat.lt_succ_of_le hk)
      rw [hm] at hback ⊢
      rcases cycle_keeps_caller hc hs with hs | ⟨hl, hf, hpc⟩
      · have hle := hs.length_le
        rw [List.length_cons] at hle
        rw [depth, depth] at hback
        omega
      · exact ⟨hl, congrArg CallStack.mk hf, hpc⟩

def nestedCalls : Machine :=
  (Command.loadProgram [0x2206, 0x1202, 0x0000, 0x220A, 0x00EE, 0x00EE]).run (.new {} ⟨fun _ => 0, 0⟩)

theorem calls_well_bracketed_nestedCalls :
    nestedCalls.current = .ok (.ofWord 0x2206) ∧ (Instruction.ofWord 0x2206).operation = .call ∧
      nestedCalls.depth < callDepth ∧ (nestedCalls.run 3).machine.Leaves ∧
      (nestedCalls.run (3 + 1)).machine.core.calls = nestedCalls.core.calls ∧
      (nestedCalls.run (3 + 1)).machine.core.pc = nestedCalls.core.pc + 2 := by
  have hc : nestedCalls.current = .ok (.ofWord 0x2206) := current_of_toOption (by decide +kernel)
  have hd : nestedCalls.depth < callDepth := by decide +kernel
  have ho : (Instruction.ofWord 0x2206).operation = .call := by decide
  have hrun : (nestedCalls.run (3 + 1)).fault? = none := by decide +kernel
  have hopen : ∀ k < 3, (nestedCalls.run (k + 1)).machine.depth ≠ nestedCalls.depth := by decide +kernel
  have hback : (nestedCalls.run (3 + 1)).machine.depth = nestedCalls.depth := by decide +kernel
  exact ⟨hc, ho, hd, (calls_well_bracketed hc ho hd).2.2 3 hrun hopen hback⟩

end Chip8.Machine
