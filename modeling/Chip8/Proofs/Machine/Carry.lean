import Chip8.Proofs.Effect
import Chip8.Proofs.Machine.Stages

/-! The two ways to take the carry of an addition. They answer differently for few sums, so that machines set up
one way and the other run alike until one of these sums comes up, and then differ in VF alone. -/
namespace Chip8

/-- The sum of `a` and `b` has a carry by one test and none by the other. -/
def Setup.CarryDisputed (a b : UInt8) : Prop :=
  (1 ≤ a.toNat + b.toNat ∧ a.toNat + b.toNat ≤ 254) ∨ a.toNat + b.toNat = 510

instance (a b : UInt8) : Decidable (Setup.CarryDisputed a b) := inferInstanceAs (Decidable (_ ∨ _))

theorem Setup.carry_ne_iff {setup : Setup} {a b : UInt8} :
    { setup with legacyCarry := true }.carry a b ≠ { setup with legacyCarry := false }.carry a b ↔
      CarryDisputed a b := by
  have ha := a.toNat_lt
  have hb := b.toNat_lt
  simp only [carry, CarryDisputed, if_true, Bool.false_eq_true, if_false, ne_eq, decide_eq_decide]
  omega

private theorem Setup.carry_eq_of_not_disputed {setup : Setup} {a b : UInt8} (h : ¬ CarryDisputed a b) (on : Bool) :
    { setup with legacyCarry := on }.carry a b = setup.carry a b := by
  have he : { setup with legacyCarry := true }.carry a b = { setup with legacyCarry := false }.carry a b :=
    Decidable.of_not_not (mt carry_ne_iff.mp h)
  obtain ⟨base, legacyCarry⟩ := setup
  cases on <;> cases legacyCarry
  case false.true => exact he.symm
  case true.false => exact he
  all_goals rfl

namespace Machine
variable {m : Machine} {n : Nat}

def withLegacyCarry (m : Machine) (on : Bool) : Machine := { m with setup.legacyCarry := on }

def DisputesCarry (m : Machine) : Prop :=
  ∃ i, m.current = .ok i ∧ i.operation = .add ∧
    Setup.CarryDisputed (m.core.registers.get i.word.x) (m.core.registers.get i.word.y)

instance (m : Machine) : Decidable m.DisputesCarry :=
  match hc : m.current with
  | .error _ => isFalse fun ⟨_, h, _⟩ => nomatch hc.symm.trans h
  | .ok i => decidable_of_iff
    (i.operation = .add ∧
      Setup.CarryDisputed (m.core.registers.get i.word.x) (m.core.registers.get i.word.y))
    ⟨fun h => ⟨i, hc, h⟩, fun ⟨_, h, hd⟩ => Except.ok.inj (hc.symm.trans h) ▸ hd⟩

/-- The second machine takes the carry the other way and has another VF; all the rest is the same. -/
structure DiffersInFlag (m m' : Machine) : Prop where
  flag : m'.core.registers.get Registers.flag ≠ m.core.registers.get Registers.flag
  rest : m' = { m.withLegacyCarry true with
    core.registers := m.core.registers.set Registers.flag (m'.core.registers.get Registers.flag) }

theorem cycle_withLegacyCarry (h : ¬ m.DisputesCarry) (on : Bool) :
    m.cycle.Like (fun s t => t = s.withLegacyCarry on) (m.withLegacyCarry on).cycle := by
  cases hc : m.current with
  | error f =>
    have hc' : (m.withLegacyCarry on).current = .error f := hc
    rw [cycle_of_no_fetch hc, cycle_of_no_fetch hc']
    exact ⟨rfl, rfl, rfl⟩
  | ok i =>
    have hc' : (m.withLegacyCarry on).current = .ok i := hc
    have he : (m.withLegacyCarry on).effect i = m.effect i :=
      Instruction.effect_congr (fun ho => Setup.carry_eq_of_not_disputed (fun hd => h ⟨i, hc, ho, hd⟩) on)
        fun _ => rfl
    rw [cycle_of_fetch hc, cycle_of_fetch hc', he, settle, settle]
    cases (m.effect i).2 <;> exact ⟨rfl, rfl, rfl⟩

theorem run_withLegacyCarry (h : ∀ t ∈ m.stages n, ¬ t.DisputesCarry) (on : Bool) :
    (m.run n).Like (fun s t => t = s.withLegacyCarry on) ((m.withLegacyCarry on).run n) := by
  refine run_like (R := fun _ s t => t = s.withLegacyCarry on) rfl ?_
  rintro k hk hok _ rfl
  exact cycle_withLegacyCarry (h _ (mem_stages_iff.mpr ⟨k, hk, hok, rfl⟩)) on

/-- An addition with a disputed carry leaves a flag either way, and not the same one. -/
theorem cycle_disputed (h : m.DisputesCarry) :
    (m.withLegacyCarry false).cycle.fault? = none ∧
      (m.withLegacyCarry false).cycle.Like DiffersInFlag (m.withLegacyCarry true).cycle := by
  obtain ⟨i, hc, ho, hd⟩ := h
  have hcycle (on : Bool) : (m.withLegacyCarry on).cycle = (m.withLegacyCarry on).settle i
      ({ m.core with drawing := false }.setWithFlag i.word.x
        (m.core.registers.get i.word.x + m.core.registers.get i.word.y)
        ((m.withLegacyCarry on).setup.carry (m.core.registers.get i.word.x) (m.core.registers.get i.word.y)),
        .ok .next) := by
    have hc' : (m.withLegacyCarry on).current = .ok i := hc
    rw [cycle_of_fetch hc', effect, Instruction.effect_add ho]
    rfl
  have toUInt8_inj : ∀ a b : Bool, a.toUInt8 = b.toUInt8 → a = b := by decide
  have hcarry : (m.withLegacyCarry true).setup.carry _ _ ≠ (m.withLegacyCarry false).setup.carry _ _ :=
    Setup.carry_ne_iff.mpr hd
  rw [hcycle, hcycle]
  refine ⟨rfl, rfl, rfl, ?flag, ?rest⟩
  case flag =>
    simp only [settle, Core.tick, Core.setWithFlag, Core.setRegister, Registers.get_set, if_true]
    exact fun he => hcarry (toUInt8_inj _ _ he)
  case rest =>
    -- the flag is written last, so that setting VF again undoes all the difference, also where X is F
    simp only [settle, Core.tick, Core.setWithFlag, Core.setRegister, Registers.get_set, if_true,
      Registers.set_set]
    rfl

private theorem withLegacyCarry_eq_self {on : Bool} (h : m.setup.legacyCarry = on) : m.withLegacyCarry on = m := by
  subst h
  rfl

/-- Run a machine once with the carry taken the one way and once the other. As long as no addition with a
disputed carry has come up, both runs have gone the same way. In the first cycle that executes one, neither
fails, and all that differs afterwards is VF. -/
theorem legacy_carry_confined (m : Machine) (n : Nat)
    (h : ∀ t ∈ (m.withLegacyCarry false).stages n, ¬ t.DisputesCarry) :
    (∀ k ≤ n, ((m.withLegacyCarry false).run k).Like (fun s t => t = s.withLegacyCarry true)
      ((m.withLegacyCarry true).run k)) ∧
    (((m.withLegacyCarry false).run n).fault? = none →
      ((m.withLegacyCarry false).run n).machine.DisputesCarry →
      ((m.withLegacyCarry false).run (n + 1)).fault? = none ∧
        ((m.withLegacyCarry false).run (n + 1)).Like DiffersInFlag ((m.withLegacyCarry true).run (n + 1))) := by
  have hlike (k : Nat) (hk : k ≤ n) : ((m.withLegacyCarry false).run k).Like
      (fun s t => t = s.withLegacyCarry true) ((m.withLegacyCarry true).run k) :=
    run_withLegacyCarry (fun t ht => h t ((stages_prefix_of_le hk).subset ht)) true
  refine ⟨hlike, fun hok hd => ?_⟩
  obtain ⟨hfault, hlog, hmachine⟩ := hlike n (Nat.le_refl n)
  have hoff : ((m.withLegacyCarry false).run n).machine.setup.legacyCarry = false := by
    rw [run_setup]
    rfl
  obtain ⟨hcycle, hnext⟩ := cycle_disputed hd
  rw [withLegacyCarry_eq_self hoff] at hcycle hnext
  rw [← hmachine] at hnext
  rw [run_succ hok, run_succ (hfault.trans hok), hlog]
  exact ⟨hcycle, hnext.fault, congrArg (_ ++ ·) hnext.log, hnext.machine⟩

def addingToFlag : Machine := ((new {} ⟨fun _ => 0, 0⟩).loadProgram [0x6001, 0x8F04]).machine

theorem legacy_carry_confined_addingToFlag :
    (∀ t ∈ (addingToFlag.withLegacyCarry false).stages 1, ¬ t.DisputesCarry) ∧
      ((addingToFlag.withLegacyCarry false).run 1).fault? = none ∧
      ((addingToFlag.withLegacyCarry false).run 1).machine.DisputesCarry ∧
      ((addingToFlag.withLegacyCarry false).run 1).Like (fun s t => t = s.withLegacyCarry true)
        ((addingToFlag.withLegacyCarry true).run 1) ∧
      ((addingToFlag.withLegacyCarry false).run 2).fault? = none ∧
      ((addingToFlag.withLegacyCarry false).run 2).Like DiffersInFlag
        ((addingToFlag.withLegacyCarry true).run 2) := by
  have h : ∀ t ∈ (addingToFlag.withLegacyCarry false).stages 1, ¬ t.DisputesCarry := by decide +kernel
  have hok : ((addingToFlag.withLegacyCarry false).run 1).fault? = none := by decide +kernel
  have hd : ((addingToFlag.withLegacyCarry false).run 1).machine.DisputesCarry := by decide +kernel
  obtain ⟨hlike, hdiffer⟩ := legacy_carry_confined addingToFlag 1 h
  exact ⟨h, hok, hd, hlike 1 (Nat.le_refl 1), hdiffer hok hd⟩

end Machine
end Chip8
