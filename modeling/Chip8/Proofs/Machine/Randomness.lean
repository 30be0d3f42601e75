import Chip8.Proofs.Effect
import Chip8.Proofs.Machine.Stages

/-! Randomness enters a run only through the bytes that CXKK takes off the tape, one each, and there only
through the bits that the mask lets pass. Tapes that agree in these bits make for the same run. -/
namespace Chip8

namespace RandomTape
variable {t : RandomTape} {j k : Nat}

def upcoming (t : RandomTape) (j : Nat) : UInt8 := t.bytes (t.position + j)

def forward (t : RandomTape) (k : Nat) : RandomTape := { t with position := t.position + k }

private theorem forward_forward : (t.forward j).forward k = t.forward (j + k) := by
  rw [forward, forward, forward, Nat.add_assoc]

theorem upcoming_forward : (t.forward k).upcoming j = t.upcoming (k + j) := by
  rw [upcoming, upcoming, forward, Nat.add_assoc]

end RandomTape

namespace Machine
variable {m : Machine} {t : RandomTape} {k n : Nat}

/-- The mask of the random byte that the next cycle takes, if it takes one. -/
def mask? (m : Machine) : Option UInt8 :=
  match m.current with
  | .ok i => if i.operation = .random then some i.word.kk else none
  | .error _ => none

/-- The masks of the random bytes that the first `n` cycles take, in order. -/
def masks (m : Machine) (n : Nat) : List UInt8 := (m.stages n).filterMap mask?

private theorem masks_succ_of_ok (h : (m.run n).fault? = none) :
    m.masks (n + 1) = m.masks n ++ (m.run n).machine.mask?.toList := by
  rw [masks, masks, stages_succ_of_ok h, List.filterMap_append]
  cases hmask : (m.run n).machine.mask? <;> simp [hmask]

/-- A mask stands where those of the cycles before it end. -/
private theorem getElem?_masks {mask : UInt8} (hk : k < n) (hok : (m.run k).fault? = none)
    (hmask : (m.run k).machine.mask? = some mask) : (m.masks n)[(m.masks k).length]? = some mask := by
  have hprefix : m.masks k ++ [mask] <+: m.masks n := by
    have hnext := masks_succ_of_ok hok
    rw [hmask, Option.toList_some] at hnext
    rw [← hnext]
    exact (stages_prefix_of_le hk).filterMap _
  obtain ⟨rest, hrest⟩ := hprefix
  rw [← hrest, List.append_assoc, List.getElem?_append_right (Nat.le_refl _), Nat.sub_self]
  rfl

/-- A cycle takes a byte off the tape for its mask, and looks at no bit of it that the mask hides. -/
theorem cycle_retaped (h : ∀ mask, m.mask? = some mask → m.tape.head &&& mask = t.head &&& mask) :
    { m with tape := t }.cycle = { m.cycle with machine.tape := t.forward m.mask?.toList.length } := by
  cases hc : m.current with
  | error f =>
    have hc' : { m with tape := t }.current = .error f := hc
    rw [cycle_of_no_fetch hc, cycle_of_no_fetch hc', mask?, hc]
    rfl
  | ok i =>
    have hc' : { m with tape := t }.current = .ok i := hc
    have hmask : m.mask? = if i.operation = .random then some i.word.kk else none := by rw [mask?, hc]
    have he : { m with tape := t }.effect i = m.effect i :=
      Instruction.effect_congr (fun _ => rfl) fun ho => (h i.word.kk (hmask.trans (if_pos ho))).symm
    have ht : { m with tape := t }.tapeAfter i = t.forward m.mask?.toList.length := by
      rw [tapeAfter, hmask]
      cases i.operation <;> rfl
    rw [cycle_of_fetch hc, cycle_of_fetch hc', he, settle, settle, ht]
    cases (m.effect i).2 <;> rfl

theorem cycle_tape (m : Machine) : m.cycle.machine.tape = m.tape.forward m.mask?.toList.length :=
  congrArg (·.machine.tape) (cycle_retaped (m := m) (t := m.tape) fun _ _ => rfl)

/-- On another tape with the same bits under the masks a run leaves that tape as far forward as it would the
first, and is the same in all the rest. -/
theorem run_retaped
    (h : ∀ (j : Nat) (mask : UInt8), (m.masks n)[j]? = some mask →
      m.tape.upcoming j &&& mask = t.upcoming j &&& mask) :
    { m with tape := t }.run n = { m.run n with machine.tape := t.forward (m.masks n).length } := by
  have hlike : (m.run n).Like (fun a b => a.tape = m.tape.forward (m.masks n).length ∧
      b = { a with tape := t.forward (m.masks n).length }) ({ m with tape := t }.run n) := by
    refine run_like (R := fun stages a b => a.tape = m.tape.forward (stages.filterMap mask?).length ∧
      b = { a with tape := t.forward (stages.filterMap mask?).length }) ⟨rfl, rfl⟩ ?_
    intro k hk hok b hb
    obtain ⟨ha, rfl⟩ : (m.run k).machine.tape = m.tape.forward (m.masks k).length ∧
      b = { (m.run k).machine with tape := t.forward (m.masks k).length } := hb
    have hcycle := cycle_retaped (m := (m.run k).machine) (t := t.forward (m.masks k).length)
      fun mask hmask => ha ▸ h _ mask (getElem?_masks hk hok hmask)
    have htape := cycle_tape (m.run k).machine
    rw [RandomTape.forward_forward, ← List.length_append, ← masks_succ_of_ok hok] at hcycle
    rw [ha, RandomTape.forward_forward, ← List.length_append, ← masks_succ_of_ok hok] at htape
    rw [hcycle]
    exact ⟨rfl, rfl, htape, rfl⟩
  exact hlike.eq hlike.machine.2

/-- A run takes as many bytes off the tape as it has masks for. -/
theorem run_tape (m : Machine) (n : Nat) : (m.run n).machine.tape = m.tape.forward (m.masks n).length :=
  congrArg (·.machine.tape) (run_retaped (m := m) (t := m.tape) fun _ _ _ => rfl)

/-- Let two machines differ in nothing but their tapes. If the bytes of both tapes agree under the masks of the
random bytes that the first takes in its run, mask by mask, the runs differ in nothing but their tapes. In
particular they do so if the run takes no byte but under masks that hide it all. -/
theorem randomness_enters_masked (m : Machine) (t : RandomTape) (n : Nat) :
    ((∀ (j : Nat) (mask : UInt8), (m.masks n)[j]? = some mask →
        m.tape.upcoming j &&& mask = t.upcoming j &&& mask) →
      { m with tape := t }.run n = { m.run n with machine.tape := t.forward (m.masks n).length }) ∧
    ((∀ mask ∈ m.masks n, mask = 0) →
      { m with tape := t }.run n = { m.run n with machine.tape := t.forward (m.masks n).length }) := by
  refine ⟨run_retaped, fun hzero => run_retaped ?_⟩
  intro j mask hj
  rw [hzero mask (List.mem_of_getElem? hj), UInt8.and_zero, UInt8.and_zero]

def tossing : Machine := ((new {} ⟨fun _ => 0x15, 0⟩).loadProgram [0xC100, 0xC00F, 0x3005]).machine

theorem randomness_enters_masked_tossing :
    tossing.masks 3 = [0x00, 0x0F] ∧
      { tossing with tape := ⟨fun _ => 0xA5, 7⟩ }.run 3 =
        { tossing.run 3 with machine.tape := ⟨fun _ => 0xA5, 9⟩ } ∧
      tossing.masks 1 = [0x00] ∧
      ∀ t, { tossing with tape := t }.run 1 = { tossing.run 1 with machine.tape := t.forward 1 } := by
  have hmasks : tossing.masks 3 = [0x00, 0x0F] := by decide +kernel
  have hmask : tossing.masks 1 = [0x00] := by decide +kernel
  have hrun := (randomness_enters_masked tossing ⟨fun _ => 0xA5, 7⟩ 3).1 ?same
  case same =>
    intro j mask hj
    rw [hmasks] at hj
    match j, hj with
    | 0, rfl => decide +kernel
    | 1, rfl => decide +kernel
  have hzero : ∀ mask ∈ tossing.masks 1, mask = 0 := by
    rw [hmask]
    simp
  have hblind (t : RandomTape) := (randomness_enters_masked tossing t 1).2 hzero
  rw [hmasks] at hrun
  rw [hmask] at hblind
  exact ⟨hmasks, hrun, hmask, hblind⟩

end Machine
end Chip8
