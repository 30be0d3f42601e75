import Chip8.Machine.Cycle
import Chip8.Proofs.Effect.Performs

/-! The three ways a cycle can go: nothing is fetched, the instruction fails, or it takes effect.
What is proved about cycles is proved about these, and about runs by induction on their length. -/
namespace Chip8.Machine
variable {m : Machine} {i : Instruction} {f : Fault} {flow : Flow}

/-- What an instruction does in a cycle, which begins with the draw flag down. -/
def effect (m : Machine) (i : Instruction) : Core × Except Fault Flow :=
  i.effect m.setup m.tape.head { m.core with drawing := false }

def tapeAfter (m : Machine) (i : Instruction) : RandomTape :=
  if i.operation = .random then m.tape.advance else m.tape

theorem execute_eq (m : Machine) (i : Instruction) : m.execute i =
    ({ m with core := (i.effect m.setup m.tape.head m.core).1, tape := m.tapeAfter i },
      (i.effect m.setup m.tape.head m.core).2) := by
  rw [execute, Instruction.perform_eq]
  rfl

theorem ok_of_toOption {α : Type} {r : Except Fault α} {a : α} (h : r.toOption = some a) : r = .ok a := by
  cases r with
  | error f => cases h
  | ok b => cases h; rfl

theorem current_of_toOption (h : m.current.toOption = some i) : m.current = .ok i := ok_of_toOption h

theorem cycle_of_no_fetch (h : m.current = .error f) :
    m.cycle = ⟨{ m with core.drawing := false }, some f, []⟩ := by
  simp only [cycle, cycleOn, h]

theorem cycle_of_failure (h : m.current = .ok i) (he : (m.effect i).2 = .error f) :
    m.cycle = ⟨{ m with core := (m.effect i).1, tape := m.tapeAfter i }, some f,
      [.execute m.core.pc i, .aborted m.core.pc f]⟩ := by
  unfold effect at he
  simp only [cycle, cycleOn, h, execute_eq, he]
  rfl

theorem cycle_of_flow (h : m.current = .ok i) (he : (m.effect i).2 = .ok flow) :
    m.cycle = ⟨{ m with
        core := { (m.effect i).1 with pc := flow.target m.core.pc }.tick, tape := m.tapeAfter i },
      none, [.execute m.core.pc i]⟩ := by
  unfold effect at he
  simp only [cycle, cycleOn, h, execute_eq, he]
  rfl

def settle (m : Machine) (i : Instruction) (r : Core × Except Fault Flow) : Outcome :=
  match r.2 with
  | .error f => ⟨{ m with core := r.1, tape := m.tapeAfter i }, some f,
      [.execute m.core.pc i, .aborted m.core.pc f]⟩
  | .ok flow => ⟨{ m with core := { r.1 with pc := flow.target m.core.pc }.tick, tape := m.tapeAfter i },
      none, [.execute m.core.pc i]⟩

theorem cycle_of_fetch (h : m.current = .ok i) : m.cycle = m.settle i (m.effect i) := by
  rw [settle]
  cases he : (m.effect i).2 with
  | error f => rw [cycle_of_failure h he]
  | ok flow => rw [cycle_of_flow h he]

/-- A cycle that succeeds follows one of the rules, then moves the program counter and ticks. -/
theorem cycle_performs (h : m.cycle.fault? = none) : ∃ i after flow, m.current = .ok i ∧
    i.Performs { m.core with drawing := false } after flow ∧
    m.cycle = ⟨{ m with core := { after with pc := flow.target m.core.pc }.tick, tape := m.tapeAfter i },
      none, [.execute m.core.pc i]⟩ := by
  cases hc : m.current with
  | error f => rw [cycle_of_no_fetch hc] at h; cases h
  | ok i =>
    cases he : (m.effect i).2 with
    | error f => rw [cycle_of_failure hc he] at h; cases h
    | ok flow => exact ⟨i, _, flow, rfl, Instruction.performs_of_effect he, cycle_of_flow hc he⟩

/-- A cycle preserves what the effect of the instruction that it fetches and a tick preserve. -/
theorem cycle_core (P : Core → Prop) (h : P { m.core with drawing := false })
    (he : ∀ i, m.current = .ok i → P (m.effect i).1) (ht : ∀ c pc, P c → P { c with pc }.tick) :
    P m.cycle.machine.core := by
  cases hc : m.current with
  | error f =>
    rw [cycle_of_no_fetch hc]
    exact h
  | ok i =>
    cases hr : (m.effect i).2 with
    | error f =>
      rw [cycle_of_failure hc hr]
      exact he i hc
    | ok flow =>
      rw [cycle_of_flow hc hr]
      exact ht _ _ (he i hc)

theorem cycle_setup (m : Machine) : m.cycle.machine.setup = m.setup := by
  cases hc : m.current with
  | error f => rw [cycle_of_no_fetch hc]
  | ok i =>
    rw [cycle_of_fetch hc, settle]
    cases (m.effect i).2 <;> rfl

private theorem cycle_ok_of_run_ok {n : Nat} (h : (m.run (n + 1)).fault? = none) : m.cycle.fault? = none := by
  cases hf : m.cycle.fault? with
  | none => rfl
  | some f =>
    rw [run_succ_of_fault hf, hf] at h
    exact h

/-- A run that went well goes on with a cycle of the machine that it left. -/
theorem run_succ {n : Nat} (h : (m.run n).fault? = none) :
    m.run (n + 1) =
      { (m.run n).machine.cycle with log := (m.run n).log ++ (m.run n).machine.cycle.log } := by
  induction n generalizing m with
  | zero =>
    cases hf : m.cycle.fault? with
    | some f =>
      rw [run_succ_of_fault hf]
      rfl
    | none =>
      rw [run_succ_of_ok hf]
      simp [run_zero, hf]
  | succ n ih =>
    have hf := cycle_ok_of_run_ok h
    rw [run_succ_of_ok hf] at h
    rw [run_succ_of_ok hf, ih h, run_succ_of_ok hf]
    simp

theorem run_ok_of_succ {n : Nat} (h : (m.run (n + 1)).fault? = none) : (m.run n).fault? = none := by
  induction n generalizing m with
  | zero => rfl
  | succ n ih =>
    have hf := cycle_ok_of_run_ok h
    rw [run_succ_of_ok hf] at h ⊢
    exact ih h

theorem run_ok_of_le {j n : Nat} (h : (m.run n).fault? = none) (hj : j ≤ n) : (m.run j).fault? = none := by
  induction hj with
  | refl => exact h
  | step _ ih => exact ih (run_ok_of_succ h)

/-- The last cycle of a run that went well. -/
theorem run_last {n : Nat} (h : (m.run (n + 1)).fault? = none) :
    (m.run n).machine.cycle.fault? = none ∧ (m.run (n + 1)).machine = (m.run n).machine.cycle.machine := by
  have hs := run_succ (run_ok_of_succ h)
  rw [hs] at h
  rw [hs]
  exact ⟨h, rfl⟩

end Chip8.Machine
