import Chip8.Proofs.Effect
import Chip8.Proofs.Screen.Sprite

/-! What drawing leaves of a core. The bits of the sprite are taken from memory as it is, the flag tells whether
one of them fell on a lit pixel, and the bits that fall off the screen are of no account. -/
namespace Chip8

/-- What there is to draw: the `rows` bytes from `index` on, with their corner at `x`, `y` modulo the screen. -/
structure Draw where
  index : UInt16
  x : UInt8
  y : UInt8
  rows : Nat

def Instruction.asDraw (i : Instruction) (c : Core) : Draw :=
  ⟨c.index, c.registers.get i.word.x, c.registers.get i.word.y, i.word.n⟩

namespace Draw
variable {d : Draw} {c after : Core} {memory : Memory}

def left (d : Draw) : Nat := d.x.toNat % Screen.width

def top (d : Draw) : Nat := d.y.toNat % Screen.height

/-- The sprite lies in memory. One without rows lies there anyway. -/
def Fits (d : Draw) : Prop := d.rows = 0 ∨ d.index.toNat + d.rows ≤ Memory.size

instance (d : Draw) : Decidable d.Fits := inferInstanceAs (Decidable (_ ∨ _))

/-- The bit that falls on a pixel. It belongs to the byte for the row of the pixel, the leftmost being the
highest. -/
def bit (d : Draw) (memory : Memory) (px py : Nat) : Bool :=
  if d.left ≤ px ∧ px < d.left + 8 ∧ d.top ≤ py ∧ py < d.top + d.rows then
    match memory.readByte (d.index.toNat + (py - d.top)) with
    | .ok b => b.toNat.testBit (7 - (px - d.left))
    | .error _ => false
  else false

def Collides (d : Draw) (c : Core) : Prop :=
  ∃ px < Screen.width, ∃ py < Screen.height, c.screen.get px py = true ∧ d.bit c.memory px py = true

/-- The core `after` is what drawing leaves of `c`. -/
structure Leaves (d : Draw) (c after : Core) : Prop where
  pixel {px py : Nat} : px < Screen.width → py < Screen.height →
    after.screen.get px py = (c.screen.get px py ^^ d.bit c.memory px py)
  collision : d.Collides c → after.registers.get Registers.flag = 1
  no_collision : ¬ d.Collides c → after.registers.get Registers.flag = 0
  drawing : after.drawing = true
  memory : after.memory = c.memory

theorem Leaves.flag_iff (h : d.Leaves c after) : after.registers.get Registers.flag = 1 ↔ d.Collides c := by
  constructor
  · intro hf
    apply Classical.byContradiction
    intro hn
    rw [h.no_collision hn] at hf
    cases hf
  · exact h.collision

def run (d : Draw) (c : Core) : Except Fault Core :=
  let r := { c with index := d.index }.drawSprite d.x d.y d.rows
  r.2.map fun _ => r.1

private theorem drawSprite_of_run (h : d.run c = .ok after) :
    ∃ flow, { c with index := d.index }.drawSprite d.x d.y d.rows = (after, .ok flow) := by
  rw [run] at h
  cases hr : { c with index := d.index }.drawSprite d.x d.y d.rows with
  | mk core result =>
    rw [hr] at h
    cases result with
    | error f => cases h
    | ok flow =>
      cases h
      exact ⟨flow, rfl⟩

theorem run_binary (hc : c.screen.Binary) (h : d.run c = .ok after) : after.screen.Binary := by
  obtain ⟨flow, hr⟩ := drawSprite_of_run h
  have hafter := Core.drawSprite_binary (c := { c with index := d.index }) hc d.x d.y d.rows
  rw [hr] at hafter
  exact hafter

private theorem bit_eq_sprite (hm : memory.Coherent) (hfit : d.Fits) : d.bit memory =
    (⟨d.left, d.top, (memory.bytes.toList.drop d.index.toNat).take d.rows⟩ : Sprite).bit := by
  funext px py
  rw [bit, Sprite.bit, List.getD_eq_getElem?_getD, Bytes.getElem?_take_drop]
  dsimp only
  by_cases hwindow : d.left ≤ px ∧ px < d.left + 8 ∧ d.top ≤ py
  · by_cases hrow : py < d.top + d.rows
    · have hin : d.index.toNat + (py - d.top) < Memory.size := by
        rcases hfit with hz | hle <;> omega
      rw [if_pos (by omega), decide_eq_true hwindow, if_pos (by omega), Memory.readByte_eq hm, Bytes.read,
        dif_pos hin, Vector.getElem?_eq_getElem hin]
      rfl
    · rw [if_neg (by omega), if_neg (by omega)]
      simp
  · rw [if_neg (by omega), decide_eq_false hwindow, Bool.false_and]

private theorem leaves_of_flips {s : Screen.Drawing}
    (h : (⟨c.screen, false⟩ : Screen.Drawing).Flips s (d.bit c.memory)) :
    d.Leaves c { { c with index := d.index }.setRegister Registers.flag s.collision.toUInt8 with
      screen := s.screen, drawing := true } := by
  have hcollision : s.collision = true ↔ d.Collides c := by simpa [Collides] using h.collision
  have hflag : (c.registers.set Registers.flag s.collision.toUInt8).get Registers.flag = s.collision.toUInt8 := by
    rw [Registers.get_set, if_pos rfl]
  refine ⟨h.pixel, fun hc => ?_, fun hc => ?_, rfl, rfl⟩
  · exact hflag.trans (by rw [hcollision.mpr hc]; rfl)
  · exact hflag.trans (by rw [Bool.eq_false_iff.mpr (mt hcollision.mp hc)]; rfl)

/-- A sprite that lies in memory is drawn. -/
theorem run_of_fits (hm : c.memory.Coherent) (hfit : d.Fits) : ∃ after, d.run c = .ok after ∧ d.Leaves c after := by
  have hread : c.memory.readRange d.index.toNat d.rows =
      .ok ((c.memory.bytes.toList.drop d.index.toNat).take d.rows) := by
    rw [Memory.readRange_eq hm]
    exact if_pos hfit
  have hflips := Screen.flips_draw c.screen
    ⟨d.left, d.top, (c.memory.bytes.toList.drop d.index.toNat).take d.rows⟩
  rw [← bit_eq_sprite hm hfit] at hflips
  refine ⟨_, ?_, leaves_of_flips hflips⟩
  rw [run, Core.drawSprite, hread]
  rfl

theorem readRange_of_not_fits (hm : memory.Coherent) (hfit : ¬ d.Fits) :
    memory.readRange d.index.toNat d.rows = .error (.outOfRange (max d.index.toNat Memory.size)) := by
  rw [Memory.readRange_eq hm]
  exact if_neg hfit

/-- Nothing else is. -/
theorem fits_of_run (hm : c.memory.Coherent) (h : d.run c = .ok after) : d.Fits := by
  apply Decidable.of_not_not
  intro hfit
  rw [run, Core.drawSprite, readRange_of_not_fits hm hfit] at h
  cases h

theorem leaves_of_run (hm : c.memory.Coherent) (h : d.run c = .ok after) : d.Leaves c after := by
  obtain ⟨after', hrun, hleaves⟩ := run_of_fits hm (fits_of_run hm h)
  cases h.symm.trans hrun
  exact hleaves

end Draw

namespace Instruction
variable {setup : Setup} {random : UInt8} {i : Instruction} {c after : Core}

/-- DXYN is carried out as the draw that it stands for. -/
theorem effect_asDraw (ho : i.operation = .draw) (h : (i.asDraw c).run c = .ok after) :
    ∃ flow, i.effect setup random c = (after, .ok flow) := by
  rw [effect_draw ho]
  exact Draw.drawSprite_of_run h

/-- The screen is left to the instructions that draw and that clear it. -/
theorem effect_keeps_screen (hm : c.memory.Coherent) (hclear : i.operation ≠ .clearScreen)
    (hdraw : i.operation = .draw → ¬ (i.asDraw c).Fits) : (i.effect setup random c).1.screen = c.screen := by
  unfold effect perform
  cases ho : i.operation
  case clearScreen => exact absurd ho hclear
  case draw =>
    have hread := Draw.readRange_of_not_fits hm (hdraw ho)
    rw [asDraw] at hread
    show (c.drawSprite _ _ _).1.screen = c.screen
    simp only [Core.drawSprite, hread]
  case leave => cases c.calls.pop <;> rfl
  case call => cases c.calls.push (c.pc + 2) <;> rfl
  all_goals rfl

end Instruction
end Chip8
