import Chip8.Proofs.Effect.Blocks
import Chip8.Proofs.Machine.Footprint

/-! The two timers over whole runs. Each counts down by one in every cycle that succeeds, from what the latest
instruction to set it took from VX, and neither takes note of the other. -/
namespace Chip8

inductive Timer
  | delay
  | sound
  deriving DecidableEq, Repr

def Timer.setter : Timer → Operation
  | delay => .setDelay
  | sound => .setSound

namespace Core

def timer (c : Core) : Timer → UInt8
  | .delay => c.delay
  | .sound => c.sound

def setTimer (c : Core) (value : UInt8) : Timer → Core
  | .delay => { c with delay := value }
  | .sound => { c with sound := value }

@[simp] private theorem timer_pc (c : Core) (pc : UInt16) (which : Timer) :
    { c with pc }.timer which = c.timer which := rfl

@[simp] private theorem timer_drawing (c : Core) (drawing : Bool) (which : Timer) :
    { c with drawing }.timer which = c.timer which := rfl

private theorem timer_setTimer (c : Core) {which other : Timer} (h : other ≠ which) (value : UInt8) :
    (c.setTimer value other).timer which = c.timer which := by
  cases other <;> cases which <;> first | rfl | exact absurd rfl h

private theorem toNat_timer_tick (c : Core) (which : Timer) :
    (c.tick.timer which).toNat = (c.timer which).toNat - 1 := by
  cases which with
  | delay => exact toNat_countDown c.delay
  | sound => exact toNat_countDown c.sound

end Core

namespace Instruction
variable {setup : Setup} {random : UInt8} {i : Instruction} {c after : Core} {flow : Flow} {f : Fault}
  {which other : Timer}

/-- An instruction leaves a timer alone unless it is the one that sets it. -/
theorem Performs.timer_eq (h : i.Performs c after flow) :
    after.timer which = if i.operation = which.setter then c.registers.get i.word.x else c.timer which := by
  split
  · next ho =>
    cases which with
    | delay => exact h.delay_of_set ho
    | sound => exact h.sound_of_set ho
  · next ho =>
    cases which with
    | delay => exact h.delay_eq ho
    | sound => exact h.sound_eq ho

private theorem effect_timer_of_error (h : (i.effect setup random c).2 = .error f) :
    (i.effect setup random c).1.timer which = c.timer which := by
  rw [effect_rest_of_error h]
  cases which <;> rfl

/-- What an instruction makes of one timer, and how it goes on, does not depend on the other timer. -/
theorem effect_setTimer (ho : other ≠ which) (value : UInt8) :
    (i.effect setup random (c.setTimer value other)).1.timer which = (i.effect setup random c).1.timer which ∧
      (i.effect setup random (c.setTimer value other)).2 = (i.effect setup random c).2 := by
  unfold effect perform
  cases other <;> cases which
  case delay.delay | sound.sound => exact absurd rfl ho
  all_goals
    dsimp only [Core.setTimer]
    cases i.operation
    case leave => cases c.calls.pop <;> exact ⟨rfl, rfl⟩
    case call => cases c.calls.push (c.pc + 2) <;> exact ⟨rfl, rfl⟩
    case draw =>
      dsimp only [Core.drawSprite, RandomTape.run_pure]
      cases c.memory.readRange c.index.toNat i.word.n <;> exact ⟨rfl, rfl⟩
    all_goals exact ⟨rfl, rfl⟩

end Instruction

namespace Machine
variable {m : Machine} {i : Instruction} {f : Fault} {which other : Timer} {j n v : Nat}

def timer (m : Machine) (which : Timer) : Nat := (m.core.timer which).toNat

def withTimer (m : Machine) (which : Timer) (value : UInt8) : Machine :=
  { m with core := m.core.setTimer value which }

/-- What the next cycle sets a timer to, if it executes the instruction for it: VX as it is before the cycle. -/
def setting? (m : Machine) (which : Timer) : Option Nat :=
  match m.current with
  | .ok i => if i.operation = which.setter then some (m.core.registers.get i.word.x).toNat else none
  | .error _ => none

/-- A value that is set in a cycle is counted down for the first time in the same cycle. -/
theorem timer_cycle (h : m.cycle.fault? = none) (which : Timer) :
    m.cycle.machine.timer which = (m.setting? which).getD (m.timer which) - 1 := by
  obtain ⟨i, after, flow, hc, hp, he⟩ := cycle_performs h
  rw [he, timer, Core.toNat_timer_tick, Core.timer_pc, hp.timer_eq, Core.timer_drawing, setting?, hc]
  dsimp only
  split <;> rfl

/-- A cycle that fails does not tick. -/
theorem timer_of_fault (h : m.cycle.fault? = some f) (which : Timer) :
    m.cycle.machine.timer which = m.timer which := by
  cases hc : m.current with
  | error g => rw [cycle_of_no_fetch hc, timer, timer, Core.timer_drawing]
  | ok i =>
    cases he : (m.effect i).2 with
    | ok flow => rw [cycle_of_flow hc he] at h; cases h
    | error g =>
      have htimer : (m.effect i).1.timer which = m.core.timer which :=
        (Instruction.effect_timer_of_error he).trans (Core.timer_drawing _ _ _)
      rw [cycle_of_failure hc he, timer, timer, htimer]

/-- Until it is set again a timer counts down to zero and stays there. -/
theorem timer_runs_down (h : (m.run (j + n)).fault? = none)
    (hset : ∀ k < j + n, j ≤ k → (m.run k).machine.setting? which = none) :
    (m.run (j + n)).machine.timer which = (m.run j).machine.timer which - n := by
  induction n with
  | zero => rfl
  | succ n ih =>
    rw [← Nat.add_assoc] at h ⊢
    obtain ⟨hok, hlast⟩ := run_last h
    have hn := ih (run_ok_of_succ h) fun k hk => hset k (Nat.lt_succ_of_lt hk)
    have hnone := hset (j + n) (Nat.lt_succ_self _) (Nat.le_add_right j n)
    have hcycle := timer_cycle hok which
    rw [hnone, Option.getD_none, hn, ← hlast] at hcycle
    rw [hcycle, Nat.sub_sub]

/-- A value that is set in the cycle of stage `j` is counted down from then on, that cycle included. -/
theorem timer_runs_down_from_setting (h : (m.run n).fault? = none) (hj : j < n)
    (hv : (m.run j).machine.setting? which = some v)
    (hset : ∀ k < n, j < k → (m.run k).machine.setting? which = none) :
    (m.run n).machine.timer which = v - (n - j) := by
  obtain ⟨d, rfl⟩ : ∃ d, n = j + 1 + d := Nat.exists_eq_add_of_le hj
  obtain ⟨hok, hlast⟩ := run_last (run_ok_of_le h (Nat.le_add_right (j + 1) d))
  have hfirst := timer_cycle hok which
  rw [hv, Option.getD_some, ← hlast] at hfirst
  rw [timer_runs_down h hset, hfirst]
  omega

/-- An FX07 cannot fail, and takes what the delay timer shows before the cycle counts it down. -/
theorem cycle_readDelay (hc : m.current = .ok i) (ho : i.operation = .readDelay) :
    m.cycle.fault? = none ∧ (m.cycle.machine.core.registers.get i.word.x).toNat = m.timer .delay := by
  have heffect : m.effect i =
      ({ m.core with drawing := false }.setRegister i.word.x m.core.delay, .ok .next) :=
    Instruction.effect_readDelay ho
  rw [cycle_of_flow hc (by rw [heffect]), heffect]
  refine ⟨rfl, congrArg UInt8.toNat ?_⟩
  exact (Registers.get_set _ _ _ _).trans (if_pos rfl)

/-- What a timer comes to in a cycle, by the effect of what the cycle fetched: the tick is only for success. -/
private theorem timer_settle (m : Machine) (i : Instruction) (r : Core × Except Fault Flow) (which : Timer) :
    (m.settle i r).machine.timer which =
      match r.2 with
      | .error _ => (r.1.timer which).toNat
      | .ok _ => (r.1.timer which).toNat - 1 := by
  rw [settle]
  cases r.2 with
  | error f => rfl
  | ok flow =>
    dsimp only
    rw [timer, Core.toNat_timer_tick, Core.timer_pc]

/-- What a cycle makes of one timer does not depend on what the other shows. -/
theorem timer_cycle_withTimer (m : Machine) (ho : other ≠ which) (value : UInt8) :
    (m.withTimer other value).cycle.machine.timer which = m.cycle.machine.timer which := by
  have hcurrent : (m.withTimer other value).current = m.current := by cases other <;> rfl
  cases hc : m.current with
  | error f =>
    rw [cycle_of_no_fetch hc, cycle_of_no_fetch (hcurrent.trans hc)]
    exact congrArg UInt8.toNat (Core.timer_setTimer m.core ho value)
  | ok i =>
    have heffect : (m.withTimer other value).effect i =
        i.effect m.setup m.tape.head ({ m.core with drawing := false }.setTimer value other) := by
      cases other <;> rfl
    rw [cycle_of_fetch hc, cycle_of_fetch (hcurrent.trans hc), timer_settle, timer_settle, heffect,
      (Instruction.effect_setTimer ho value).1, (Instruction.effect_setTimer ho value).2, effect]

/-- As long as cycles succeed a timer that is never set counts down to zero, and one that is set counts down from
what it was set to last, beginning with the cycle that sets it. FX07 takes what the delay timer shows after the
cycle before. A failing cycle leaves both timers alone, and no cycle lets one of them affect the other. -/
theorem timers_count_down (m : Machine) :
    (∀ n, (m.run n).fault? = none → ∀ which,
      ((∀ k < n, (m.run k).machine.setting? which = none) →
        (m.run n).machine.timer which = m.timer which - n) ∧
      ∀ j < n, ∀ v, (m.run j).machine.setting? which = some v →
        (∀ k < n, j < k → (m.run k).machine.setting? which = none) →
        (m.run n).machine.timer which = v - (n - j)) ∧
    (∀ j i, (m.run j).fault? = none → (m.run j).machine.current = .ok i → i.operation = .readDelay →
      (m.run (j + 1)).fault? = none ∧
      ((m.run (j + 1)).machine.core.registers.get i.word.x).toNat = (m.run j).machine.timer .delay) ∧
    (∀ f which, m.cycle.fault? = some f → m.cycle.machine.timer which = m.timer which) ∧
    ∀ which other value, other ≠ which →
      (m.withTimer other value).cycle.machine.timer which = m.cycle.machine.timer which := by
  refine ⟨fun n h which => ⟨fun hset => ?unset, fun j hj v hv hset => ?set⟩, fun j i h hc ho => ?read,
    fun f which h => timer_of_fault h which, fun which other value ho => timer_cycle_withTimer m ho value⟩
  case unset =>
    rw [← Nat.zero_add n] at h ⊢
    rw [timer_runs_down h fun k hk _ => hset k (by omega), Nat.zero_add, run_zero]
  case set => exact timer_runs_down_from_setting h hj hv hset
  case read =>
    rw [run_succ h]
    exact cycle_readDelay hc ho

def ticking : Machine :=
  (Command.step 2).run ((Command.loadProgram [0x6009, 0xF015, 0x6103, 0xF118, 0xF207, 0xFFFF]).run
    (.new { base := 0 } ⟨fun _ => 0, 0⟩))

theorem timers_count_down_ticking :
    ticking.timer .delay = 8 ∧ (ticking.run 3).fault? = none ∧ (ticking.run 3).machine.timer .delay = 5 ∧
      (ticking.run 3).machine.timer .sound = 1 ∧
      ((ticking.run 3).machine.core.registers.get 2).toNat = 6 ∧
      (ticking.run 3).machine.cycle.fault? = some (.unknownOperation 0xFFFF) ∧
      (∀ which, (ticking.run 3).machine.cycle.machine.timer which = (ticking.run 3).machine.timer which) ∧
      ((ticking.run 3).machine.withTimer .delay 200).cycle.machine.timer .sound = 1 := by
  have hstart : ticking.timer .delay = 8 := by decide +kernel
  have hok : (ticking.run 3).fault? = none := by decide +kernel
  have hfault : (ticking.run 3).machine.cycle.fault? = some (.unknownOperation 0xFFFF) := by decide +kernel
  have hread : (ticking.run 2).machine.current = .ok (.ofWord 0xF207) := current_of_toOption (by decide +kernel)
  have hx : (Instruction.ofWord 0xF207).word.x = 2 := by decide
  obtain ⟨hcount, hdelay, -⟩ := timers_count_down ticking
  obtain ⟨-, -, hfailed, hother⟩ := timers_count_down (ticking.run 3).machine
  have hunset := (hcount 3 hok .delay).1 (by decide +kernel)
  have hset := (hcount 3 hok .sound).2 1 (by decide) 3 (by decide +kernel) (by decide +kernel)
  have htaken := (hdelay 2 _ (run_ok_of_le hok (by decide)) hread (by decide)).2
  have hbefore := (hcount 2 (run_ok_of_le hok (by decide)) .delay).1 (by decide +kernel)
  rw [hstart] at hunset hbefore
  simp only [hbefore, hx, Nat.reduceAdd, Nat.reduceSub] at htaken
  refine ⟨hstart, hok, hunset, hset, htaken, hfault, fun which => hfailed _ which hfault, ?_⟩
  rw [hother .sound .delay 200 (by decide), hfailed _ .sound hfault, hset]

end Machine
end Chip8
