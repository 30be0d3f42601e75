import Chip8.Proofs.Machine.Cycle

/-! The stages of a run, each the machine as one of the cycles finds it. A condition on what a run executes
is one on its stages; what every stage passes on holds in the end, and two runs are compared stage by
stage. -/
namespace Chip8

/-- Two outcomes with the same fault and the same log, and with related machines. -/
structure Outcome.Like (R : Machine → Machine → Prop) (o o' : Outcome) : Prop where
  fault : o'.fault? = o.fault?
  log : o'.log = o.log
  machine : R o.machine o'.machine

theorem Outcome.Like.mono {R S : Machine → Machine → Prop} {o o' : Outcome} (h : o.Like R o')
    (hs : ∀ m m', R m m' → S m m') : o.Like S o' :=
  ⟨h.fault, h.log, hs _ _ h.machine⟩

/-- All that can differ between them is the machine. -/
theorem Outcome.Like.eq {R : Machine → Machine → Prop} {o o' : Outcome} {m : Machine} (h : o.Like R o')
    (hm : o'.machine = m) : o' = { o with machine := m } := by
  obtain ⟨hfault, hlog, -⟩ := h
  cases o'
  cases hfault
  cases hlog
  cases hm
  rfl

namespace Machine
variable {m m' t : Machine} {i : Instruction} {f : Fault} {k n : Nat}

/-- The machine before each of the first `n` cycles, as far as they get. -/
def stages (m : Machine) (n : Nat) : List Machine :=
  (List.range n).filterMap fun k => if (m.run k).fault? = none then some (m.run k).machine else none

/-- The instructions that the first `n` cycles execute, one that fails included. -/
def executed (m : Machine) (n : Nat) : List Instruction := (m.stages n).filterMap (·.current.toOption)

/-- Cycles asked for after one that failed are not tried. -/
theorem run_succ_of_failed (h : (m.run n).fault? = some f) : m.run (n + 1) = m.run n := by
  induction n generalizing m with
  | zero => cases h
  | succ n ih =>
    cases hf : m.cycle.fault? with
    | some g => rw [run_succ_of_fault hf, run_succ_of_fault hf]
    | none =>
      rw [run_succ_of_ok hf] at h
      rw [run_succ_of_ok hf, ih h, run_succ_of_ok hf]

theorem mem_stages_iff : t ∈ m.stages n ↔ ∃ k < n, (m.run k).fault? = none ∧ (m.run k).machine = t := by
  simp [stages]

theorem mem_executed_iff : i ∈ m.executed n ↔ ∃ t ∈ m.stages n, t.current = .ok i := by
  rw [executed, List.mem_filterMap]
  constructor
  · rintro ⟨t, ht, hi⟩
    exact ⟨t, ht, current_of_toOption hi⟩
  · rintro ⟨t, ht, hi⟩
    exact ⟨t, ht, by rw [hi]; rfl⟩

theorem stages_succ_of_ok (h : (m.run n).fault? = none) :
    m.stages (n + 1) = m.stages n ++ [(m.run n).machine] := by
  simp [stages, List.range_succ, h]

theorem stages_succ_of_failed (h : (m.run n).fault? = some f) : m.stages (n + 1) = m.stages n := by
  simp [stages, List.range_succ, h]

theorem stages_prefix_of_le (h : k ≤ n) : m.stages k <+: m.stages n := by
  induction h with
  | refl => exact List.prefix_rfl
  | step _ ih =>
    refine ih.trans ?_
    rw [stages, stages, List.range_succ, List.filterMap_append]
    exact List.prefix_append _ _

/-- What each stage of a run passes on to the next holds in the end. -/
theorem run_keeps (P : Machine → Prop) (start : P m) (step : ∀ t ∈ m.stages n, P t → P t.cycle.machine) :
    P (m.run n).machine := by
  induction n with
  | zero => exact start
  | succ n ih =>
    have hn := ih fun t ht => step t ((stages_prefix_of_le (Nat.le_succ n)).subset ht)
    cases hf : (m.run n).fault? with
    | some f =>
      rw [run_succ_of_failed hf]
      exact hn
    | none =>
      rw [run_succ hf]
      exact step _ (mem_stages_iff.mpr ⟨n, Nat.lt_succ_self n, hf, rfl⟩) hn

/-- A run preserves what every cycle preserves. -/
theorem run_preserves (P : Machine → Prop) (hs : ∀ m : Machine, P m → P m.cycle.machine) (h : P m) (n : Nat) :
    P (m.run n).machine :=
  run_keeps P h fun t _ => hs t

theorem run_setup (m : Machine) (n : Nat) : (m.run n).machine.setup = m.setup :=
  run_preserves (fun t => t.setup = m.setup) (fun t ht => (cycle_setup t).trans ht) rfl n

/-- Two runs side by side. How the machines are related may change with the stages that the first run has
been through, as long as each cycle keeps up with it. -/
theorem run_like {R : List Machine → Machine → Machine → Prop} (start : R [] m m')
    (step : ∀ k < n, (m.run k).fault? = none → ∀ t, R (m.stages k) (m.run k).machine t →
      (m.run k).machine.cycle.Like (R (m.stages (k + 1))) t.cycle) :
    (m.run n).Like (R (m.stages n)) (m'.run n) := by
  induction n with
  | zero => exact ⟨rfl, rfl, start⟩
  | succ n ih =>
    have hn := ih fun k hk => step k (Nat.lt_succ_of_lt hk)
    cases hf : (m.run n).fault? with
    | some f =>
      rw [run_succ_of_failed hf, run_succ_of_failed (hn.fault.trans hf), stages_succ_of_failed hf]
      exact hn
    | none =>
      obtain ⟨hfault, hlog, hmachine⟩ := step n (Nat.lt_succ_self n) hf _ hn.machine
      rw [run_succ hf, run_succ (hn.fault.trans hf)]
      exact ⟨hfault, by rw [hn.log, hlog], hmachine⟩

end Machine
end Chip8
