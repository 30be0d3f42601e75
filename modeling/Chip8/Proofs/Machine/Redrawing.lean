import Mathlib.Data.Nat.Bits
import Chip8.Proofs.Machine.Drawing

/-! Draws one after the other. Each of them flips the pixels under its bits, so that a pixel only keeps the
parity of how often that happened: the order of the draws is of no account, and a draw made twice is as good as
none. The same law holds along a run, whatever else it executes but 00E0. -/
namespace Chip8

namespace Draw
variable {d : Draw} {draws : List Draw} {c after : Core} {memory : Memory} {px py : Nat}

def runAll : List Draw → Core → Except Fault Core
  | [], c => .ok c
  | d :: rest, c => do runAll rest (← d.run c)

private theorem runAll_cons :
    runAll (d :: draws) c = .ok after ↔ ∃ next, d.run c = .ok next ∧ runAll draws next = .ok after := by
  rw [runAll]
  cases d.run c with
  | error f => simp [bind, Except.bind]
  | ok next => simp [bind, Except.bind]

/-- One more draw flips a pixel once more if it has a bit for it. -/
private theorem bodd_countP_cons : ((d :: draws).countP (·.bit memory px py)).bodd =
    (d.bit memory px py ^^ (draws.countP (·.bit memory px py)).bodd) := by
  rw [List.countP_cons, Nat.bodd_add, Bool.xor_comm]
  cases d.bit memory px py <;> rfl

theorem runAll_ok (hm : c.memory.Coherent) (h : runAll draws c = .ok after) :
    after.memory = c.memory ∧ (∀ d ∈ draws, d.Fits) ∧ ∀ px < Screen.width, ∀ py < Screen.height,
      after.screen.get px py = (c.screen.get px py ^^ (draws.countP (·.bit c.memory px py)).bodd) := by
  induction draws generalizing c with
  | nil =>
    cases h
    refine ⟨rfl, nofun, fun px _ py _ => ?_⟩
    rw [List.countP_nil, Nat.bodd_zero, Bool.xor_false]
  | cons d rest ih =>
    obtain ⟨next, hrun, hrest⟩ := runAll_cons.mp h
    have hleaves := leaves_of_run hm hrun
    obtain ⟨hmemory, hfits, hpixel⟩ := ih (hleaves.memory ▸ hm) hrest
    refine ⟨hmemory.trans hleaves.memory, List.forall_mem_cons.mpr ⟨fits_of_run hm hrun, hfits⟩, ?_⟩
    intro px hx py hy
    rw [hpixel px hx py hy, hleaves.pixel hx hy, hleaves.memory, bodd_countP_cons, Bool.xor_assoc]

theorem runAll_of_fits (hm : c.memory.Coherent) (h : ∀ d ∈ draws, d.Fits) : ∃ after, runAll draws c = .ok after := by
  induction draws generalizing c with
  | nil => exact ⟨c, rfl⟩
  | cons d rest ih =>
    obtain ⟨hd, hrest⟩ := List.forall_mem_cons.mp h
    obtain ⟨next, hrun, hleaves⟩ := run_of_fits hm hd
    obtain ⟨after, hafter⟩ := ih (hleaves.memory ▸ hm) hrest
    exact ⟨after, runAll_cons.mpr ⟨next, hrun, hafter⟩⟩

private theorem runAll_binary (hc : c.screen.Binary) (h : runAll draws c = .ok after) : after.screen.Binary := by
  induction draws generalizing c with
  | nil =>
    cases h
    exact hc
  | cons d rest ih =>
    obtain ⟨next, hrun, hrest⟩ := runAll_cons.mp h
    exact ih (run_binary hc hrun) hrest

/-- Of two draws of the same sprite the first meets the lit pixels under its bits and the second the others. -/
theorem collides_once_or_twice (h : d.Leaves c after) : d.Collides c ∨ d.Collides after ↔
    ∃ px < Screen.width, ∃ py < Screen.height, d.bit c.memory px py = true := by
  simp only [Collides, h.memory]
  constructor
  · rintro (⟨px, hx, py, hy, -, hbit⟩ | ⟨px, hx, py, hy, -, hbit⟩) <;> exact ⟨px, hx, py, hy, hbit⟩
  · rintro ⟨px, hx, py, hy, hbit⟩
    have hpixel := h.pixel hx hy
    rw [hbit] at hpixel
    cases hlit : c.screen.get px py with
    | true => exact .inl ⟨px, hx, py, hy, hlit, hbit⟩
    | false => exact .inr ⟨px, hx, py, hy, by rw [hpixel, hlit]; rfl, hbit⟩

/-- Drawing the same again brings the screen back. -/
theorem run_again (hm : c.memory.Coherent) (hc : c.screen.Binary) (h : d.run c = .ok after) :
    ∃ again, d.run after = .ok again ∧ again.screen = c.screen ∧
    (after.registers.get Registers.flag = 1 ∨ again.registers.get Registers.flag = 1 ↔
      ∃ px < Screen.width, ∃ py < Screen.height, d.bit c.memory px py = true) := by
  have hleaves := leaves_of_run hm h
  obtain ⟨again, hagain, hleaves'⟩ := run_of_fits (hleaves.memory ▸ hm) (fits_of_run hm h)
  refine ⟨again, hagain, ?_, ?_⟩
  · apply (run_binary (run_binary hc h) hagain).ext_get hc
    intro px py hx hy
    rw [hleaves'.pixel hx hy, hleaves.pixel hx hy, hleaves.memory, Bool.xor_assoc, Bool.xor_self, Bool.xor_false]
  · rw [hleaves.flag_iff, hleaves'.flag_iff]
    exact collides_once_or_twice hleaves

end Draw

namespace Machine
variable {m : Machine} {n px py : Nat}

def flips (m : Machine) (px py : Nat) : Bool :=
  match m.current with
  | .error _ => false
  | .ok i => i.operation == .draw && decide (i.asDraw m.core).Fits && (i.asDraw m.core).bit m.core.memory px py

theorem cycle_screen (hm : m.core.memory.Coherent) (h : ∀ i, m.current = .ok i → i.operation ≠ .clearScreen)
    (hx : px < Screen.width) (hy : py < Screen.height) :
    m.cycle.machine.core.screen.get px py = (m.core.screen.get px py ^^ m.flips px py) := by
  cases hc : m.current with
  | error f =>
    rw [cycle_of_no_fetch hc, flips, hc]
    exact (Bool.xor_false _).symm
  | ok i =>
    by_cases hdraw : i.operation = .draw ∧ (i.asDraw m.core).Fits
    · obtain ⟨ho, hfit⟩ := hdraw
      rw [(cycle_draws hm hc ho hfit).2.pixel hx hy, flips, hc]
      simp [ho, hfit]
    · have hflips : m.flips px py = false := by
        rw [flips, hc]
        simpa using fun ho hfit => absurd ⟨ho, hfit⟩ hdraw
      have hscreen : m.cycle.machine.core.screen = m.core.screen := by
        refine cycle_core (fun c => c.screen = m.core.screen) rfl (fun j hj => ?_) fun _ _ hc => hc
        cases hc.symm.trans hj
        exact Instruction.effect_keeps_screen hm (h i hc) fun ho hfit => hdraw ⟨ho, hfit⟩
      rw [hscreen, hflips, Bool.xor_false]

/-- Along a run without 00E0 a pixel flips as often as a draw has a bit for it. -/
theorem run_screen (hm : m.Reachable) (h : ∀ i ∈ m.executed n, i.operation ≠ .clearScreen)
    (hx : px < Screen.width) (hy : py < Screen.height) :
    (m.run n).machine.core.screen.get px py =
      (m.core.screen.get px py ^^ ((m.stages n).countP (·.flips px py)).bodd) := by
  induction n with
  | zero =>
    rw [run_zero, stages, List.range_zero, List.filterMap_nil, List.countP_nil, Nat.bodd_zero, Bool.xor_false]
  | succ n ih =>
    have hearlier : m.executed n <+: m.executed (n + 1) := (stages_prefix_of_le (Nat.le_succ n)).filterMap _
    have hn := ih fun i hi => h i (hearlier.subset hi)
    cases hf : (m.run n).fault? with
    | some f =>
      rw [run_succ_of_failed hf, stages_succ_of_failed hf]
      exact hn
    | none =>
      have hcoherent : (m.run n).machine.core.memory.Coherent := (Reachable.after (.step n) hm).sound.coherent
      have hlast (i : Instruction) (hi : (m.run n).machine.current = .ok i) : i.operation ≠ .clearScreen :=
        h i (mem_executed_iff.mpr ⟨_, mem_stages_iff.mpr ⟨n, Nat.lt_succ_self n, hf, rfl⟩, hi⟩)
      rw [run_succ hf, stages_succ_of_ok hf, List.countP_append, Nat.bodd_add, ← Bool.xor_assoc, ← hn]
      refine (cycle_screen hcoherent hlast hx hy).trans ?_
      rw [List.countP_singleton]
      cases (m.run n).machine.flips px py <;> rfl

/-- Whatever is drawn, in whatever places and as often as one likes, each pixel of the screen is flipped once
for every draw that has a bit for it. The order of the draws makes no difference. A draw made once more is
undone, and reports a collision one time or the other if and only if some bit of it falls on the screen. -/
theorem draws_cancel_and_commute (hm : m.Reachable) {draws : List Draw} {after : Core}
    (h : Draw.runAll draws m.core = .ok after) :
    (∀ px < Screen.width, ∀ py < Screen.height, after.screen.get px py =
      (m.core.screen.get px py ^^ (draws.countP (·.bit m.core.memory px py)).bodd)) ∧
    (∀ draws', draws.Perm draws' →
      ∃ after', Draw.runAll draws' m.core = .ok after' ∧ after'.screen = after.screen) ∧
    ∀ d once, Draw.run d after = .ok once → ∃ twice, d.run once = .ok twice ∧ twice.screen = after.screen ∧
      (once.registers.get Registers.flag = 1 ∨ twice.registers.get Registers.flag = 1 ↔
        ∃ px < Screen.width, ∃ py < Screen.height, d.bit m.core.memory px py = true) := by
  obtain ⟨hcoherent, -, hbinary⟩ := hm.sound
  obtain ⟨hmemory, hfits, hpixel⟩ := Draw.runAll_ok hcoherent h
  refine ⟨hpixel, fun draws' hperm => ?_, fun d once honce => ?_⟩
  · have hfits' : ∀ d ∈ draws', d.Fits := fun d hd => hfits d (hperm.mem_iff.mpr hd)
    obtain ⟨after', hrun⟩ := Draw.runAll_of_fits hcoherent hfits'
    obtain ⟨-, -, hpixel'⟩ := Draw.runAll_ok hcoherent hrun
    refine ⟨after', hrun, ?_⟩
    apply (Draw.runAll_binary hbinary hrun).ext_get (Draw.runAll_binary hbinary h)
    intro px py hx hy
    rw [hpixel px hx py hy, hpixel' px hx py hy, hperm.countP_eq]
  · have hagain := Draw.run_again (hmemory ▸ hcoherent) (Draw.runAll_binary hbinary h) honce
    rwa [hmemory] at hagain

def withBars : Machine := (Command.loadProgram [0xFFF0]).run (.new {} ⟨fun _ => 0, 0⟩)

def bars : List Draw := [⟨0x200, 0, 0, 1⟩, ⟨0x200, 0, 31, 2⟩, ⟨0x201, 62, 0, 1⟩]

theorem draws_cancel_and_commute_bars :
    withBars.Reachable ∧ ∃ after once, Draw.runAll bars withBars.core = .ok after ∧
      Draw.run ⟨0x200, 4, 0, 1⟩ after = .ok once ∧
      after.screen.get 7 0 = true ∧ after.screen.get 63 0 = true ∧ after.screen.get 0 1 = false ∧
      (∃ after', Draw.runAll bars.reverse withBars.core = .ok after' ∧ after'.screen = after.screen) ∧
      ∃ twice, Draw.run ⟨0x200, 4, 0, 1⟩ once = .ok twice ∧ twice.screen = after.screen ∧
        (once.registers.get Registers.flag = 1 ∨ twice.registers.get Registers.flag = 1) := by
  have hm : withBars.Reachable := .after _ (.new _ _)
  have hcoherent := hm.sound.coherent
  have hfits : ∀ d ∈ bars, d.Fits := by decide +kernel
  have hfit : Draw.Fits ⟨0x200, 4, 0, 1⟩ := by decide +kernel
  obtain ⟨after, h⟩ := Draw.runAll_of_fits hcoherent hfits
  have hafter : after.memory.Coherent := by
    rw [(Draw.runAll_ok hcoherent h).1]
    exact hcoherent
  obtain ⟨once, honce, -⟩ := Draw.run_of_fits hafter hfit
  obtain ⟨hpixel, hperm, hagain⟩ := draws_cancel_and_commute hm h
  obtain ⟨twice, htwice, hscreen, hflag⟩ := hagain _ once honce
  refine ⟨hm, after, once, h, honce, ?_, ?_, ?_, hperm _ (List.reverse_perm bars).symm, twice, htwice, hscreen, ?_⟩
  · rw [hpixel 7 (by decide) 0 (by decide)]
    decide +kernel
  · rw [hpixel 63 (by decide) 0 (by decide)]
    decide +kernel
  · rw [hpixel 0 (by decide) 1 (by decide)]
    decide +kernel
  · exact hflag.mpr ⟨4, by decide, 0, by decide, by decide +kernel⟩

end Machine
end Chip8
