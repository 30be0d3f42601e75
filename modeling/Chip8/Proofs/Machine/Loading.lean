import Chip8.Proofs.Machine.Reachable
import Chip8.Proofs.Memory.Decodes

/-! Loading a program image is all or nothing. An image that fits replaces the bytes under it and nothing
else, whatever was decoded there, and all of its words are decoded at once; one that does not fit changes
nothing. -/
namespace Chip8

namespace Memory
variable {m : Memory}

/-- `m` is what was `before`, with the words of `image` decoded from `base` on. -/
structure Loaded (before : Memory) (base : Nat) (image : List UInt8) (m : Memory) : Prop where
  bytes : ∀ (k : Nat) (_ : k < 2 * (image.length / 2)), m.readByte (base + k) = .ok image[k]
  words : ∀ (i : Nat) (_ : i < image.length / 2),
    m.cell (base + 2 * i) = .ok (.instruction (.ofWord (.ofBytes image[2 * i] image[2 * i + 1])))
  rest : ∀ a, a < base ∨ base + 2 * (image.length / 2) ≤ a → m.readByte a = before.readByte a

/-- A program that fits replaces the bytes under it and is decoded throughout. -/
theorem Reachable.load (hm : m.Reachable) (base : UInt16) (program : List Word)
    (h : base.toNat + 2 * program.length ≤ size) :
    ∃ next, m.load base program = (next, none) ∧ next.Coherent ∧
      next.bytes = m.bytes.overlay base.toNat (Program.toBytes program) ∧
      ∀ (k : Nat) (hk : k < program.length),
        next.cell (base.toNat + 2 * k) = .ok (.instruction (.ofWord program[k])) := by
  obtain ⟨history, rfl⟩ := hm
  have hl : (after history).load base program = (after history).storeAll base.toNat program := if_pos h
  have hok : ((after history).load base program).2 = none := by rw [hl, storeAll_ok program h]
  obtain ⟨hc, hb⟩ := storeAll_spec (coherent_after history) program h
  have hk := keeps_run (coherent_after history) (keeps_after history) (.program base program) hok
  rw [← hl] at hc hb
  exact ⟨_, Prod.ext rfl hok, hc, hb, fun k hlt =>
    cell_ok_iff.mpr ((hk _ _).mpr ⟨program[k], Part.latest_ofProgram program hlt, rfl⟩)⟩

/-- The words of an image that fits bring all of its bytes with them but for an odd one. -/
theorem Reachable.load_ofBytes (hm : m.Reachable) (base : UInt16) (image : List UInt8)
    (h : base.toNat + 2 * (image.length / 2) ≤ size) :
    ∃ next, m.load base (Program.ofBytes image) = (next, none) ∧ m.Loaded base.toNat image next := by
  rw [← Program.length_ofBytes] at h
  obtain ⟨next, hl, hc, hb, hw⟩ := hm.load base (Program.ofBytes image) h
  rw [Program.length_ofBytes] at h
  rw [Program.toBytes_ofBytes] at hb
  have hlength : (image.take (2 * (image.length / 2))).length = 2 * (image.length / 2) := by
    rw [List.length_take]
    omega
  refine ⟨next, hl, ?_, ?_, ?_⟩
  · intro k hk
    have hin : base.toNat + k - base.toNat < (image.take (2 * (image.length / 2))).length := by omega
    rw [readByte_eq hc, hb, Bytes.read_overlay_of_inside _ (by omega) (Nat.le_add_right _ _) hin]
    simp
  · intro i hi
    have hlt : i < (Program.ofBytes image).length := by rwa [Program.length_ofBytes]
    rw [hw i hlt, Program.getElem_ofBytes hlt]
  · intro a ha
    rw [← hlength] at ha
    rw [readByte_eq hc, readByte_eq hm.coherent, hb, Bytes.read_overlay_of_outside _ ha]

end Memory

/-- An image made of words is taken apart into these words again, each with its operation, also when there
is an odd byte behind them. -/
private theorem Program.decoded_ofBytes (words : List Word) {tail : List UInt8} (h : tail.length ≤ 1) :
    (ofBytes (toBytes words ++ tail)).map Instruction.ofWord = words.map fun w => ⟨w, .decode w⟩ := by
  rw [ofBytes_toBytes_append words h]
  rfl

namespace Machine
variable {m : Machine} {image : List UInt8}

private theorem loadImage_of_fit (hm : m.core.memory.Reachable)
    (h : m.setup.base.toNat + 2 * (image.length / 2) ≤ Memory.size) :
    ∃ memory, m.core.memory.Loaded m.setup.base.toNat image memory ∧
      m.loadImage image =
        ⟨{ m with core.memory := memory }, none, [.loaded m.setup.base (image.length / 2)]⟩ := by
  obtain ⟨memory, hl, hb⟩ := hm.load_ofBytes m.setup.base image h
  refine ⟨memory, hb, ?_⟩
  rw [loadImage, loadProgram, hl, Program.length_ofBytes]

private theorem loadImage_of_not_fit (h : ¬ m.setup.base.toNat + 2 * (image.length / 2) ≤ Memory.size) :
    m.loadImage image = ⟨m, some (.programTooLarge m.setup.base (image.length / 2)), []⟩ := by
  have hl : m.core.memory.load m.setup.base (Program.ofBytes image) =
      (m.core.memory, some (.programTooLarge m.setup.base (image.length / 2))) := by
    rw [Memory.load, Program.length_ofBytes, if_neg h]
  rw [loadImage, loadProgram, hl]

/-- Loading an image succeeds if and only if its words fit between the base address and the end of memory.
It then changes memory alone, where it puts the words. Otherwise the fault says so, and nothing changes.
An image made of words is taken apart into these words again, also with an odd byte behind them. -/
theorem loadImage_exact (hm : m.core.memory.Reachable) (image : List UInt8) :
    ((m.loadImage image).fault? = none ↔
      m.setup.base.toNat + 2 * (image.length / 2) ≤ Memory.size) ∧
    ((m.loadImage image).fault? = none →
      ∃ memory, (m.loadImage image).machine = { m with core.memory := memory } ∧
        m.core.memory.Loaded m.setup.base.toNat image memory) ∧
    (∀ f, (m.loadImage image).fault? = some f →
      f = .programTooLarge m.setup.base (image.length / 2) ∧ (m.loadImage image).machine = m) ∧
    ∀ (words : List Word) (tail : List UInt8), tail.length ≤ 1 →
      (Program.ofBytes (Program.toBytes words ++ tail)).map Instruction.ofWord =
        words.map fun w => ⟨w, .decode w⟩ := by
  by_cases h : m.setup.base.toNat + 2 * (image.length / 2) ≤ Memory.size
  · obtain ⟨memory, hloaded, he⟩ := loadImage_of_fit hm h
    rw [he]
    refine ⟨iff_of_true rfl h, fun _ => ⟨memory, rfl, hloaded⟩, ?_, fun words _ => Program.decoded_ofBytes words⟩
    rintro f ⟨⟩
  · rw [loadImage_of_not_fit h]
    refine ⟨iff_of_false (Option.some_ne_none _) h, ?_, ?_, fun words _ => Program.decoded_ofBytes words⟩
    · rintro ⟨⟩
    · rintro f ⟨⟩
      exact ⟨rfl, rfl⟩

def laidAcross : Machine :=
  (Command.write (.instruction 0x204 0x1234)).run
    ((Command.write (.instruction 0x200 0x5678)).run (.new { base := 0x201 } ⟨fun _ => 0, 0⟩))

theorem loadImage_exact_laidAcross :
    laidAcross.core.memory.Reachable ∧ (laidAcross.loadImage [1, 2, 3, 4, 5]).fault? = none ∧
      ∃ memory, (laidAcross.loadImage [1, 2, 3, 4, 5]).machine = { laidAcross with core.memory := memory } ∧
        laidAcross.core.memory.Loaded 0x201 [1, 2, 3, 4, 5] memory ∧
        memory.readByte 0x200 = laidAcross.core.memory.readByte 0x200 ∧
        memory.readByte 0x205 = laidAcross.core.memory.readByte 0x205 := by
  have hm : laidAcross.Reachable := .after _ (.after _ (.new _ _))
  obtain ⟨hfits, hloads, -⟩ := loadImage_exact hm.memory [1, 2, 3, 4, 5]
  have hok := hfits.mpr (by decide)
  obtain ⟨memory, he, hl⟩ := hloads hok
  exact ⟨hm.memory, hok, memory, he, hl, hl.rest _ (.inl (by decide)), hl.rest _ (.inr (by decide))⟩

end Machine
end Chip8
