import Chip8.Proofs.Machine.Randomness
import Chip8.Proofs.Machine.Reachable

/-! What a reset leaves of the past: memory and the rest of the random tape. Where a run has not stored to
memory, a reset brings back the machine that the run began with. -/
namespace Chip8

def Command.prepares : Command → Bool
  | loadProgram _ | loadImage _ | loadFile _ _ | write _ => true
  | setPc _ | setPixel _ _ _ | step _ | reset => false

/-- A new machine with no more done to it than loads and writes to memory. -/
inductive Machine.Prepared : Machine → Prop
  | new (setup : Setup) (tape : RandomTape) : Prepared (.new setup tape)
  | after {m : Machine} (c : Command) : c.prepares → m.Prepared → Prepared (c.run m)

/-- Equal but for how far along its tape each is: the bytes to come are the same. -/
structure Machine.Twin (m m' : Machine) : Prop where
  setup : m'.setup = m.setup
  core : m'.core = m.core
  upcoming : ∀ j, m'.tape.upcoming j = m.tape.upcoming j

namespace Machine
variable {m m' : Machine} {n : Nat}

private theorem run_of_prepares {c : Command} (h : c.prepares) (m : Machine) :
    ∃ memory, c.run m = { m with core.memory := memory } := by
  have load (program : List Word) :
      ∃ memory, (m.loadProgram program).machine = { m with core.memory := memory } := by
    rw [loadProgram]
    refine ⟨(m.core.memory.load m.setup.base program).1, ?_⟩
    cases (m.core.memory.load m.setup.base program).2 <;> rfl
  cases c with
  | loadProgram program => exact load program
  | loadImage image => exact load _
  | loadFile path contents =>
    cases contents with
    | error reason => exact ⟨m.core.memory, rfl⟩
    | ok image => exact load _
  | write w => exact ⟨_, rfl⟩
  | setPc | setPixel | step | reset => cases h

/-- There is nothing to reset in a machine that is just prepared. -/
theorem Prepared.core_reset (h : m.Prepared) : m.core.reset m.setup.base = m.core := by
  induction h with
  | new setup tape => rfl
  | @after m c hc _ ih =>
    obtain ⟨memory, he⟩ := run_of_prepares hc m
    rw [he]
    exact congrArg (fun core => { core with memory }) ih

theorem cycle_keeps_memory (h : ∀ i, m.current = .ok i → i.operation ≠ .storeBlock) :
    m.cycle.machine.core.memory = m.core.memory :=
  cycle_core (·.memory = m.core.memory) rfl
    (fun i hi => Instruction.effect_keeps_memory_of_ne_storeBlock (h i hi)) fun _ _ hc => hc

theorem run_keeps_memory (h : ∀ i ∈ m.executed n, i.operation ≠ .storeBlock) :
    (m.run n).machine.core.memory = m.core.memory := by
  refine run_keeps (fun t => t.core.memory = m.core.memory) rfl fun t ht hmemory => ?_
  rw [cycle_keeps_memory fun i hi => h i (mem_executed_iff.mpr ⟨t, ht, hi⟩), hmemory]

/-- A reset after a run that stores nothing brings back the core of a prepared machine. -/
theorem Prepared.core_reset_run (hp : m.Prepared) (h : ∀ i ∈ m.executed n, i.operation ≠ .storeBlock) :
    (m.run n).machine.reset.machine.core = m.core := by
  rw [reset, run_setup, Core.reset_eq, run_keeps_memory h]
  exact hp.core_reset

/-- What twins do and what they become is the same. -/
theorem run_twin (h : m.Twin m') (n : Nat) : (m.run n).Like Twin (m'.run n) := by
  have hm : { m with tape := m'.tape } = m' := by
    rw [← h.setup, ← h.core]
  have hrun := run_retaped (m := m) (n := n) (t := m'.tape) fun j mask _ => by rw [h.upcoming]
  rw [hm] at hrun
  rw [hrun]
  refine ⟨rfl, rfl, rfl, rfl, fun j => ?_⟩
  show (m'.tape.forward _).upcoming j = _
  rw [run_tape, RandomTape.upcoming_forward, RandomTape.upcoming_forward, h.upcoming]

/-- Let a prepared machine run without executing a store, up to a fault or not. Memory is then as it was
prepared, cell for cell, and a reset makes the rest so, too: with the same random bytes ahead any run goes as
it would have gone at first. In general what a run does after a reset follows from the setup, the memory and
the random bytes ahead. -/
theorem reset_makes_runs_repeatable :
    (∀ m : Machine, m.Prepared → ∀ k, (∀ i ∈ m.executed k, i.operation ≠ .storeBlock) →
      (m.run k).machine.core.memory = m.core.memory ∧
      (m.run k).machine.reset.machine.setup = m.setup ∧
      (m.run k).machine.reset.machine.core = m.core ∧
      ∀ t : RandomTape, (∀ j, t.upcoming j = m.tape.upcoming j) →
        ∀ n, (m.run n).Like Twin ({ (m.run k).machine.reset.machine with tape := t }.run n)) ∧
    ∀ m m' : Machine, m'.setup = m.setup → m'.core.memory = m.core.memory →
      (∀ j, m'.tape.upcoming j = m.tape.upcoming j) →
      ∀ n, (m.reset.machine.run n).Like Twin (m'.reset.machine.run n) := by
  constructor
  · intro m hm k hstores
    have hsetup : (m.run k).machine.reset.machine.setup = m.setup := run_setup m k
    have hcore := hm.core_reset_run hstores
    exact ⟨run_keeps_memory hstores, hsetup, hcore, fun t ht => run_twin ⟨hsetup, hcore, ht⟩⟩
  · intro m m' hsetup hmemory hahead
    refine run_twin ⟨hsetup, ?_, hahead⟩
    rw [reset, reset, Core.reset_eq, Core.reset_eq, hsetup, hmemory]

def returningNowhere : Machine :=
  (Command.write (.program 0x200 [0x60AB, 0xC1FF, 0x00EE])).run (.new {} ⟨fun _ => 0x15, 0⟩)

theorem reset_makes_runs_repeatable_returningNowhere :
    returningNowhere.Prepared ∧ (returningNowhere.run 3).fault? = some .noCaller ∧
      (∀ i ∈ returningNowhere.executed 3, i.operation ≠ .storeBlock) ∧
      (returningNowhere.run 3).machine.core.memory = returningNowhere.core.memory ∧
      (returningNowhere.run 3).machine.reset.machine.core = returningNowhere.core ∧
      (∀ n, (returningNowhere.run n).Like Twin
        ({ (returningNowhere.run 3).machine.reset.machine with tape := ⟨fun _ => 0x15, 9⟩ }.run n)) ∧
      ∀ pc n, ((returningNowhere.setPc pc).reset.machine.run n).Like Twin
        ((returningNowhere.run 3).machine.reset.machine.run n) := by
  have hp : returningNowhere.Prepared := .after _ rfl (.new _ _)
  have hfault : (returningNowhere.run 3).fault? = some .noCaller := by decide +kernel
  have hstores : ∀ i ∈ returningNowhere.executed 3, i.operation ≠ .storeBlock := by decide +kernel
  have hsetup := run_setup returningNowhere 3
  obtain ⟨hmemory, -, hcore, hagain⟩ := reset_makes_runs_repeatable.1 _ hp 3 hstores
  -- of any two machines, so that checking it does not run this one
  have hforgets {m m' : Machine} (hs : m.setup = m'.setup) (hm : m.core.memory = m'.core.memory)
      (ht : ∀ j, m.tape.upcoming j = m'.tape.upcoming j) (pc : UInt16) :=
    reset_makes_runs_repeatable.2 (m'.setPc pc) m hs hm ht
  refine ⟨hp, hfault, hstores, hmemory, hcore, hagain _ fun _ => rfl, hforgets hsetup hmemory fun j => ?_⟩
  rw [run_tape, RandomTape.upcoming_forward]
  rfl

end Machine
end Chip8
