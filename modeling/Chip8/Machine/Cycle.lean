import Chip8.Machine

/-! Cycles: fetch, execute, move the program counter, tick the timers. -/
namespace Chip8

namespace Machine

def execute (m : Machine) (i : Instruction) : Machine × Except Fault Flow :=
  let (r, tape) := (i.perform m.setup m.core).run m.tape
  ({ m with core := r.1, tape }, r.2)

/-- A cycle on what was fetched for it. A failure, in the fetch or in the instruction, leaves the
program counter and the timers alone. -/
def cycleOn (m : Machine) (fetched : Except Fault Instruction) : Outcome :=
  let pc := m.core.pc
  let m := { m with core.drawing := false }
  match fetched with
  | .error f => ⟨m, some f, []⟩
  | .ok i =>
    let r := m.execute i
    match r.2 with
    | .error f => ⟨r.1, some f, [.execute pc i, .aborted pc f]⟩
    | .ok flow => ⟨{ r.1 with core := { r.1.core with pc := flow.target pc }.tick }, none, [.execute pc i]⟩

def cycle (m : Machine) : Outcome := m.cycleOn m.current

/-- Runs on for `n` cycles after the events in `log`, the latest of which comes first. -/
def runAfter (log : List Event) : Nat → Machine → Outcome
  | 0, m => ⟨m, none, log.reverse⟩
  | n + 1, m =>
    let o := m.cycle
    let log := o.log.reverse ++ log
    match o.fault? with
    | some f => ⟨o.machine, some f, log.reverse⟩
    | none => runAfter log n o.machine

/-- Runs `n` cycles, or up to the first that fails. -/
def run (n : Nat) (m : Machine) : Outcome := runAfter [] n m

theorem run_zero (m : Machine) : m.run 0 = ⟨m, none, []⟩ := rfl

/-- Events logged earlier only go in front. -/
private theorem runAfter_eq (log : List Event) (n : Nat) (m : Machine) :
    runAfter log n m = { m.run n with log := log.reverse ++ (m.run n).log } := by
  induction n generalizing log m with
  | zero => simp [run, runAfter]
  | succ n ih =>
    simp only [run, runAfter]
    cases m.cycle.fault? with
    | some f => simp
    | none =>
      simp only [ih (m.cycle.log.reverse ++ log), ih (m.cycle.log.reverse ++ [])]
      simp

theorem run_succ_of_fault {n : Nat} {m : Machine} {f : Fault} (h : m.cycle.fault? = some f) :
    m.run (n + 1) = m.cycle := by
  simp only [run, runAfter, h, List.append_nil, List.reverse_reverse]
  rw [← h]

theorem run_succ_of_ok {n : Nat} {m : Machine} (h : m.cycle.fault? = none) :
    m.run (n + 1) =
      { m.cycle.machine.run n with log := m.cycle.log ++ (m.cycle.machine.run n).log } := by
  rw [run, runAfter]
  simp only [h]
  rw [runAfter_eq]
  simp

end Machine
end Chip8
