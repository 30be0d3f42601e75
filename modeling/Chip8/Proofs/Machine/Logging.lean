import Chip8.Proofs.Machine.Reachable
import Chip8.Proofs.Machine.Stages

/-! The log of a run. Each cycle announces the instruction that it has fetched before anything else is done with it.
A complaint can only come at the very end, about the instruction announced last. -/
namespace Chip8

def Event.label (e : Event) : Level × String := (e.level, e.message)

namespace Machine
variable {m : Machine} {i : Instruction} {f : Fault} {log : List Event} {n k : Nat}

/-- The events of `log` announce what is executed at the stages 0 to `k - 1` of the run, in this order: each has
the program counter as the stage finds it and the instruction that is fetched there. -/
structure Announces (m : Machine) (k : Nat) (log : List Event) : Prop where
  labels : log.map Event.label = List.replicate k (.trace, "execute")
  event (j : Nat) : j < k → ∃ i, (m.run j).machine.current = .ok i ∧
    log[j]? = some (.execute (m.run j).machine.core.pc i)

/-- How `n` cycles can turn out of which `k` succeed. A cycle that fails leaves its fault and its machine, as the
last one that anything happens in. -/
inductive Mirrors (m : Machine) (n k : Nat) : Outcome → Prop
  | success {log : List Event} : k = n → m.Announces k log → m.Mirrors n k ⟨(m.run k).machine, none, log⟩
  | noFetch {f : Fault} {log : List Event} : k < n → (m.run k).machine.current = .error f → m.Announces k log →
      m.Mirrors n k ⟨(m.run k).machine.cycle.machine, some f, log⟩
  | failure {i : Instruction} {f : Fault} {log : List Event} : k < n → (m.run k).machine.current = .ok i →
      (m.run k).machine.cycle.fault? = some f → m.Announces (k + 1) log →
      m.Mirrors n k
        ⟨(m.run k).machine.cycle.machine, some f, log ++ [.aborted (m.run k).machine.core.pc f]⟩

theorem Announces.length (h : m.Announces k log) : log.length = k := by
  simpa using congrArg List.length h.labels

private theorem Announces.snoc (h : m.Announces k log) (hc : (m.run k).machine.current = .ok i) :
    m.Announces (k + 1) (log ++ [.execute (m.run k).machine.core.pc i]) where
  labels := by
    rw [List.map_append, h.labels, List.replicate_succ']
    rfl
  event j hj := by
    rcases Nat.lt_succ_iff_lt_or_eq.mp hj with hj | rfl
    · obtain ⟨i', hi, he⟩ := h.event j hj
      exact ⟨i', hi, by rw [List.getElem?_append_left (h.length.symm ▸ hj), he]⟩
    · refine ⟨i, hc, ?_⟩
      rw [List.getElem?_append_right (Nat.le_of_eq h.length), h.length, Nat.sub_self]
      rfl

private theorem countP_level (log : List Event) (level : Level) :
    log.countP (·.level = level) = (log.map Event.label).countP (·.1 = level) := by
  rw [List.countP_map]
  rfl

/-- Cycles that succeed log nothing but what they execute. -/
theorem announces_of_ok (h : (m.run k).fault? = none) : m.Announces k (m.run k).log := by
  induction k with
  | zero => exact ⟨rfl, nofun⟩
  | succ k ih =>
    have hk := run_ok_of_succ h
    obtain ⟨i, after, flow, hc, -, he⟩ := cycle_performs (run_last h).1
    rw [run_succ hk, he]
    exact (ih hk).snoc hc

/-- A run is one that goes well, on to its end or to a cycle that fails. -/
private theorem run_goes_well (m : Machine) (n : Nat) : ∃ k ≤ n, (m.run k).fault? = none ∧
    (k = n ∨ k < n ∧ m.run n = m.run (k + 1) ∧ ∃ f, (m.run k).machine.cycle.fault? = some f) := by
  induction n with
  | zero => exact ⟨0, Nat.le_refl 0, rfl, .inl rfl⟩
  | succ n ih =>
    obtain ⟨k, hk, hok, rfl | ⟨hlt, hrun, hfails⟩⟩ := ih
    · cases hf : (m.run k).machine.cycle.fault? with
      | none => exact ⟨k + 1, Nat.le_refl _, by rw [run_succ hok, hf], .inl rfl⟩
      | some f => exact ⟨k, Nat.le_succ k, hok, .inr ⟨Nat.lt_succ_self k, rfl, f, hf⟩⟩
    · obtain ⟨f, hf⟩ := hfails
      have hfailed : (m.run n).fault? = some f := by rw [hrun, run_succ hok, hf]
      exact ⟨k, Nat.le_succ_of_le hk, hok,
        .inr ⟨Nat.lt_succ_of_lt hlt, by rw [run_succ_of_failed hfailed, hrun], f, hf⟩⟩

private theorem log_of_failure (hc : m.current = .ok i) (hf : m.cycle.fault? = some f) :
    m.cycle.log = [.execute m.core.pc i, .aborted m.core.pc f] := by
  cases he : (m.effect i).2 with
  | ok flow => rw [cycle_of_flow hc he] at hf; cases hf
  | error g =>
    rw [cycle_of_failure hc he] at hf ⊢
    cases hf
    rfl

/-- The cycle that fails after `k` good ones. -/
private theorem mirrors_of_fault (hok : (m.run k).fault? = none) (hlt : k < n)
    (hf : (m.run k).machine.cycle.fault? = some f) : m.Mirrors n k (m.run (k + 1)) := by
  have hannounces := announces_of_ok hok
  rw [run_succ hok]
  dsimp only
  rw [hf]
  cases hc : (m.run k).machine.current with
  | error g =>
    have hlog : (m.run k).machine.cycle.log = [] := by rw [cycle_of_no_fetch hc]
    have hg : g = f := by rw [cycle_of_no_fetch hc] at hf; exact Option.some.inj hf
    rw [hlog, List.append_nil]
    exact .noFetch hlt (hg ▸ hc) hannounces
  | ok i =>
    have hmirrors := Mirrors.failure hlt hc hf (hannounces.snoc hc)
    rwa [List.append_assoc, List.singleton_append, ← log_of_failure hc hf] at hmirrors

theorem run_mirrors (m : Machine) (n : Nat) :
    ∃ k ≤ n, (m.run k).fault? = none ∧ m.Mirrors n k (m.run n) := by
  obtain ⟨k, hk, hok, rfl | ⟨hlt, hrun, f, hf⟩⟩ := run_goes_well m n
  · have hmirrors := Mirrors.success rfl (announces_of_ok hok)
    rw [← hok] at hmirrors
    exact ⟨k, hk, hok, hmirrors⟩
  · exact ⟨k, hk, hok, hrun ▸ mirrors_of_fault hok hlt hf⟩

theorem Mirrors.labels_of_no_failure {o : Outcome} (h : m.Mirrors n k o)
    (hn : o.fault? = none ∨ ∃ f, (m.run k).machine.current = .error f) :
    o.log.map Event.label = List.replicate k (.trace, "execute") := by
  cases h with
  | success _ ha => exact ha.labels
  | noFetch _ _ ha => exact ha.labels
  | failure _ hc _ _ =>
    rcases hn with hn | ⟨g, hg⟩
    · cases hn
    · cases hc.symm.trans hg

theorem Mirrors.labels_of_failure {o : Outcome} (h : m.Mirrors n k o) (hf : o.fault? = some f)
    (hc : (m.run k).machine.current = .ok i) :
    o.log.map Event.label = List.replicate (k + 1) (.trace, "execute") ++ [(.warn, "cycle aborted")] := by
  cases h with
  | success _ _ => cases hf
  | noFetch _ hg _ => cases hc.symm.trans hg
  | failure _ _ _ ha =>
    rw [List.map_append, ha.labels]
    rfl

/-- However many cycles are asked for, with `k` the number of those that succeed: the log announces these one by
one, then the instruction that fails, if it is not the fetch that does, and ends with the one complaint about it.
The outcome is that of the first failure, and after it nothing is executed. There is a TRACE event for each
instruction and a WARN event, the last of all, if and only if one of them has failed. -/
theorem log_mirrors_run (m : Machine) (n : Nat) :
    ∃ k ≤ n, (m.run k).fault? = none ∧ m.Mirrors n k (m.run n) ∧
      ((m.run n).fault? = none ∨ (∃ f, (m.run k).machine.current = .error f) →
        (m.run n).log.map Event.label = List.replicate k (.trace, "execute") ∧
        (m.run n).log.countP (·.level = .trace) = k ∧ (m.run n).log.countP (·.level = .warn) = 0) ∧
      ∀ i f, (m.run n).fault? = some f → (m.run k).machine.current = .ok i →
        (m.run n).log.map Event.label = List.replicate (k + 1) (.trace, "execute") ++ [(.warn, "cycle aborted")] ∧
        (m.run n).log.countP (·.level = .trace) = k + 1 ∧ (m.run n).log.countP (·.level = .warn) = 1 := by
  obtain ⟨k, hk, hok, hmirrors⟩ := run_mirrors m n
  refine ⟨k, hk, hok, hmirrors, fun hn => ?_, fun i f hf hc => ?_⟩
  · have hlabels := hmirrors.labels_of_no_failure hn
    rw [countP_level, countP_level, hlabels]
    simp [List.countP_replicate]
  · have hlabels := hmirrors.labels_of_failure hf hc
    rw [countP_level, countP_level, hlabels]
    simp [List.countP_replicate]

/-- One good cycle, one that fails and none after it. -/
example : (((Command.loadProgram [0x6105, 0xFFFF]).run (.new {} ⟨fun _ => 0, 0⟩)).run 9).log = [
    .execute 0x200 (.ofWord 0x6105), .execute 0x202 (.ofWord 0xFFFF),
    .aborted 0x202 (.unknownOperation 0xFFFF)] := by
  decide +kernel

end Machine
end Chip8
