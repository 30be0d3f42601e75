import Chip8.Proofs.Effect.Draw
import Chip8.Proofs.Machine.Reachable

/-! A cycle that draws, seen pixel by pixel. -/
namespace Chip8.Machine
variable {m : Machine} {i : Instruction}

/-- A cycle draws what its instruction stands for, with the registers as they were before. -/
theorem cycle_draws (hm : m.core.memory.Coherent) (hi : m.current = .ok i) (ho : i.operation = .draw)
    (hfit : (i.asDraw m.core).Fits) :
    m.cycle.fault? = none ∧ (i.asDraw m.core).Leaves m.core m.cycle.machine.core := by
  obtain ⟨after, hrun, hleaves⟩ := Draw.run_of_fits (c := { m.core with drawing := false }) hm hfit
  obtain ⟨flow, he⟩ : ∃ flow, m.effect i = (after, .ok flow) := Instruction.effect_asDraw ho hrun
  rw [cycle_of_flow hi (congrArg Prod.snd he), he]
  exact ⟨rfl, hleaves.pixel, hleaves.collision, hleaves.no_collision, hleaves.drawing, hleaves.memory⟩

/-- Where two memories hold sprites that look the same on the screen, drawing makes no difference between
them. -/
theorem cycle_draws_congr {memory : Memory} (hm : m.core.Sound) (hm' : memory.Coherent)
    (hi : m.current = .ok i) (hi' : { m with core.memory := memory }.current = .ok i)
    (ho : i.operation = .draw) (hfit : (i.asDraw m.core).Fits)
    (hsame : ∀ px < Screen.width, ∀ py < Screen.height,
      (i.asDraw m.core).bit memory px py = (i.asDraw m.core).bit m.core.memory px py) :
    { m with core.memory := memory }.cycle.machine.core.screen = m.cycle.machine.core.screen ∧
      { m with core.memory := memory }.cycle.machine.core.registers.get Registers.flag =
        m.cycle.machine.core.registers.get Registers.flag := by
  have hsound' : Core.Sound { m.core with memory } := ⟨hm', hm.shallow, hm.binary⟩
  obtain ⟨-, hleaves⟩ := cycle_draws hm.coherent hi ho hfit
  obtain ⟨-, hleaves'⟩ := cycle_draws (m := { m with core.memory := memory }) hm' hi' ho hfit
  have hcollides : (i.asDraw m.core).Collides { m.core with memory } ↔ (i.asDraw m.core).Collides m.core := by
    simp only [Draw.Collides]
    constructor
    · rintro ⟨px, hx, py, hy, hlit, hbit⟩
      exact ⟨px, hx, py, hy, hlit, (hsame px hx py hy).symm.trans hbit⟩
    · rintro ⟨px, hx, py, hy, hlit, hbit⟩
      exact ⟨px, hx, py, hy, hlit, (hsame px hx py hy).trans hbit⟩
  constructor
  · apply (sound_cycle (m := { m with core.memory := memory }) hsound').binary.ext_get (sound_cycle hm).binary
    intro px py hx hy
    rw [hleaves.pixel hx hy, hleaves'.pixel hx hy]
    exact congrArg _ (hsame px hx py hy)
  · by_cases h : (i.asDraw m.core).Collides m.core
    · rw [hleaves.collision h, hleaves'.collision (hcollides.mpr h)]
    · rw [hleaves.no_collision h, hleaves'.no_collision (mt hcollides.mp h)]

/-- A cycle that executes DXYN with its sprite in memory succeeds. It xors the bits of the sprite into the
pixels that they fall on, tells in VF whether one of them fell on a lit pixel, and asks for a redraw. Bits
that fall off the screen change neither the screen nor VF. -/
theorem draw_is_clipped_xor (hm : m.Reachable) (hi : m.current = .ok i) (ho : i.operation = .draw)
    (hfit : i.word.n = 0 ∨ m.core.index.toNat + i.word.n ≤ Memory.size) :
    m.cycle.fault? = none ∧ (i.asDraw m.core).Leaves m.core m.cycle.machine.core ∧
    ∀ memory : Memory, memory.Reachable → { m with core.memory := memory }.current = .ok i →
      (∀ px < Screen.width, ∀ py < Screen.height,
        (i.asDraw m.core).bit memory px py = (i.asDraw m.core).bit m.core.memory px py) →
      { m with core.memory := memory }.cycle.machine.core.screen = m.cycle.machine.core.screen ∧
        { m with core.memory := memory }.cycle.machine.core.registers.get Registers.flag =
          m.cycle.machine.core.registers.get Registers.flag := by
  obtain ⟨hok, hleaves⟩ := cycle_draws hm.sound.coherent hi ho hfit
  refine ⟨hok, hleaves, fun memory hm' hi' hsame => ?_⟩
  exact cycle_draws_congr hm.sound hm'.coherent hi hi' ho hfit hsame

def atCorner : Machine :=
  (Command.setPixel 63 30 1).run
    ((Command.step 1).run ((Command.loadProgram [0x6F7E, 0xDFF3]).run (.new { base := 0 } ⟨fun _ => 0, 0⟩)))

def atCornerTrimmed : Machine := (Command.write (.instruction 0 0x4040)).run atCorner

theorem draw_is_clipped_xor_atCorner :
    atCorner.Reachable ∧ atCorner.current = .ok (.ofWord 0xDFF3) ∧
      atCorner.core.index.toNat + (Instruction.ofWord 0xDFF3).word.n ≤ Memory.size ∧
      atCorner.cycle.fault? = none ∧
      atCorner.cycle.machine.core.screen.get 63 30 = false ∧
      atCorner.cycle.machine.core.screen.get 63 31 = true ∧
      atCorner.cycle.machine.core.screen.get 0 0 = false ∧
      atCorner.cycle.machine.core.registers.get Registers.flag = 1 ∧
      { atCorner with core.memory := atCornerTrimmed.core.memory }.cycle.machine.core.screen =
        atCorner.cycle.machine.core.screen := by
  have hm : atCorner.Reachable := .after _ (.after _ (.after _ (.new _ _)))
  have htrimmed : atCornerTrimmed.Reachable := .after _ hm
  have hi : atCorner.current = .ok (.ofWord 0xDFF3) := current_of_toOption (by decide +kernel)
  have hi' : atCornerTrimmed.current = .ok (.ofWord 0xDFF3) := current_of_toOption (by decide +kernel)
  have hfit : atCorner.core.index.toNat + (Instruction.ofWord 0xDFF3).word.n ≤ Memory.size := by decide +kernel
  have hlit : atCorner.core.screen.get 63 30 = true := by decide +kernel
  have hbit : ((Instruction.ofWord 0xDFF3).asDraw atCorner.core).bit atCorner.core.memory 63 30 = true := by
    decide +kernel
  have hsame : ∀ px < Screen.width, ∀ py < Screen.height,
      ((Instruction.ofWord 0xDFF3).asDraw atCorner.core).bit atCornerTrimmed.core.memory px py =
        ((Instruction.ofWord 0xDFF3).asDraw atCorner.core).bit atCorner.core.memory px py := by
    decide +kernel
  obtain ⟨hok, hleaves, hblind⟩ := draw_is_clipped_xor hm hi (by decide +kernel) (.inr hfit)
  refine ⟨hm, hi, hfit, hok, ?_, ?_, ?_, hleaves.collision ⟨63, by decide, 30, by decide, hlit, hbit⟩,
    (hblind _ htrimmed.memory hi' hsame).1⟩
  · rw [hleaves.pixel (by decide) (by decide), hlit, hbit]
    rfl
  · rw [hleaves.pixel (by decide) (by decide)]
    decide +kernel
  · rw [hleaves.pixel (by decide) (by decide)]
    decide +kernel

end Chip8.Machine
