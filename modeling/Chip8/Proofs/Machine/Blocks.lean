import Chip8.Proofs.Effect.Blocks
import Chip8.Proofs.Machine.Reachable

/-! Block transfers there and back. With room for all registers FX55 and FX65 undo each other, wherever I points
and whatever is kept decoded there. -/
namespace Chip8.Machine
variable {m t : Machine} {i : Instruction} {x : Fin registerCount}

/-- The machine `t` is `m` with V0 to VX in memory, one byte each from I on. -/
structure Stores (m : Machine) (x : Fin registerCount) (t : Machine) : Prop where
  inside (k : Fin registerCount) : k ≤ x →
    t.core.memory.readByte (m.core.index.toNat + k) = .ok (m.core.registers.get k)
  outside (a : Nat) : a < m.core.index.toNat ∨ m.core.index.toNat + x < a →
    t.core.memory.readByte a = m.core.memory.readByte a
  rest : t = { m with core.memory := t.core.memory }

/-- The machine `t` is `m` with the bytes from I on in V0 to VX. -/
structure Loads (m : Machine) (x : Fin registerCount) (t : Machine) : Prop where
  inside (k : Fin registerCount) : k ≤ x →
    m.core.memory.readByte (m.core.index.toNat + k) = .ok (t.core.registers.get k)
  outside (k : Fin registerCount) : x < k → t.core.registers.get k = m.core.registers.get k
  rest : t = { m with core.registers := t.core.registers }

private theorem execute_storeBlock (ho : i.operation = .storeBlock) :
    m.execute i = ({ m with core := (m.core.storeBlock i.word.x).1 }, (m.core.storeBlock i.word.x).2) := by
  have hn : i.operation ≠ .random := by rw [ho]; decide
  rw [execute_eq, Instruction.effect_storeBlock ho, tapeAfter, if_neg hn]

private theorem execute_loadBlock (ho : i.operation = .loadBlock) :
    m.execute i = ({ m with core := (m.core.loadBlock i.word.x).1 }, (m.core.loadBlock i.word.x).2) := by
  have hn : i.operation ≠ .random := by rw [ho]; decide
  rw [execute_eq, Instruction.effect_loadBlock ho, tapeAfter, if_neg hn]

theorem execute_stores (hm : m.core.memory.Coherent) (ho : i.operation = .storeBlock)
    (hfit : m.core.index.toNat + i.word.x < Memory.size) :
    ∃ t, m.execute i = (t, .ok .next) ∧ t.core.memory.Coherent ∧ m.Stores i.word.x t := by
  refine ⟨{ m with core := (m.core.storeBlock i.word.x).1 }, ?_, (Memory.writeUpTo_spec hm _).1, ?inside, ?outside,
    rfl⟩
  · rw [execute_storeBlock ho, (Core.blocks_of_fit hm hfit).1]
  case inside =>
    intro k hk
    exact Core.readByte_storeBlock hm hk (by omega)
  case outside =>
    intro a ha
    refine Core.readByte_storeBlock_of_outside hm fun hmem => ?_
    have hspan := Memory.mem_span_iff.mp hmem
    omega

theorem execute_loads (hm : m.core.memory.Coherent) (ho : i.operation = .loadBlock)
    (hfit : m.core.index.toNat + i.word.x < Memory.size) :
    ∃ t, m.execute i = (t, .ok .next) ∧ m.Loads i.word.x t := by
  refine ⟨{ m with core := (m.core.loadBlock i.word.x).1 }, ?_, ?inside, ?outside, rfl⟩
  · rw [execute_loadBlock ho, (Core.blocks_of_fit hm hfit).2]
  case inside =>
    intro k hk
    exact Core.get_loadBlock hm hk (by omega)
  case outside =>
    intro k hk
    exact Core.get_loadBlock_of_outside hm (.inl hk)

/-- What has been stored is what is loaded, as long as memory and I stay. -/
theorem Stores.loads {s u : Machine} (h : m.Stores x t) (hload : s.Loads x u)
    (hmemory : s.core.memory = t.core.memory) (hindex : s.core.index = m.core.index)
    {k : Fin registerCount} (hk : k ≤ x) :
    u.core.registers.get k = m.core.registers.get k := by
  have hread := hload.inside k hk
  rw [hmemory, hindex, h.inside k hk] at hread
  exact (Except.ok.inj hread).symm

/-- What has been loaded is stored where it came from. -/
theorem Loads.stores {s : Machine} (h : m.Loads x t) (hstore : t.Stores x s) (a : Nat) :
    s.core.memory.readByte a = m.core.memory.readByte a := by
  have hmemory : t.core.memory = m.core.memory := by rw [h.rest]
  have hindex : t.core.index = m.core.index := by rw [h.rest]
  by_cases hin : m.core.index.toNat ≤ a ∧ a ≤ m.core.index.toNat + x
  · obtain ⟨k, rfl⟩ : ∃ k, a = m.core.index.toNat + k := ⟨_, (Nat.add_sub_cancel' hin.1).symm⟩
    have hk : k ≤ x := by omega
    have hstored := hstore.inside ⟨k, by omega⟩ hk
    rw [hindex] at hstored
    exact hstored.trans (h.inside ⟨k, by omega⟩ hk).symm
  · rw [hstore.outside a (by rw [hindex]; omega), hmemory]

/-- With room for V0 to VX from I on, whatever lies there: FX55 puts each register into its byte and changes
nothing else; FX65 then brings back what was stored, whatever the registers have become, and changes nothing
else; and a load that is stored again leaves every byte as it was. -/
theorem blocks_come_back (hm : m.Reachable) {store load : Instruction} (hstore : store.operation = .storeBlock)
    (hload : load.operation = .loadBlock) (hx : load.word.x = store.word.x)
    (hfit : m.core.index.toNat + store.word.x ≤ 4094) :
    (∃ t, m.execute store = (t, .ok .next) ∧ m.Stores store.word.x t ∧
      ∀ registers, ∃ u, { t with core.registers := registers }.execute load = (u, .ok .next) ∧
        { t with core.registers := registers }.Loads store.word.x u ∧
        ∀ k ≤ store.word.x, u.core.registers.get k = m.core.registers.get k) ∧
    ∃ t, m.execute load = (t, .ok .next) ∧ m.Loads store.word.x t ∧
      ∃ u, t.execute store = (u, .ok .next) ∧ t.Stores store.word.x u ∧
        ∀ a, u.core.memory.readByte a = m.core.memory.readByte a := by
  have hroom : m.core.index.toNat + store.word.x < Memory.size := Nat.lt_succ_of_le hfit
  have hcoherent := hm.sound.coherent
  constructor
  · obtain ⟨t, ht, hafter, hstores⟩ := execute_stores hcoherent hstore hroom
    have hindex : t.core.index = m.core.index := by rw [hstores.rest]
    refine ⟨t, ht, hstores, fun registers => ?_⟩
    obtain ⟨u, hu, hloads⟩ := execute_loads (m := { t with core.registers := registers }) hafter hload
      (by rwa [hx, hindex])
    rw [hx] at hloads
    exact ⟨u, hu, hloads, fun k => hstores.loads hloads rfl hindex⟩
  · obtain ⟨t, ht, hloads⟩ := execute_loads hcoherent hload (by rwa [hx])
    rw [hx] at hloads
    have hmemory : t.core.memory = m.core.memory := by rw [hloads.rest]
    have hindex : t.core.index = m.core.index := by rw [hloads.rest]
    obtain ⟨u, hu, -, hstores⟩ := execute_stores (hmemory ▸ hcoherent) hstore (by rwa [hindex])
    exact ⟨t, ht, hloads, u, hu, hstores, hloads.stores hstores⟩

def straddling : Machine :=
  (Command.step 3).run ((Command.loadProgram [0x6011, 0x6122, 0xA201]).run (.new {} ⟨fun _ => 0, 0⟩))

theorem blocks_come_back_straddling :
    straddling.Reachable ∧ straddling.core.index.toNat + (Instruction.ofWord 0xF255).word.x ≤ 4094 ∧
      (∃ t, straddling.execute (.ofWord 0xF255) = (t, .ok .next) ∧
        t.core.memory.readByte 0x200 = .ok 0x60 ∧ t.core.memory.readByte 0x202 = .ok 0x22 ∧
        ∃ u, { t with core.registers := .zero }.execute (.ofWord 0xF265) = (u, .ok .next) ∧
          u.core.registers.get 1 = 0x22) ∧
      ∃ t, straddling.execute (.ofWord 0xF265) = (t, .ok .next) ∧ t.core.registers.get 1 = 0x61 ∧
        ∃ u, t.execute (.ofWord 0xF255) = (u, .ok .next) ∧
          ∀ a, u.core.memory.readByte a = straddling.core.memory.readByte a := by
  have hm : straddling.Reachable := .after _ (.after _ (.new _ _))
  have hindex : straddling.core.index.toNat = 0x201 := by decide +kernel
  have hfirst : straddling.core.memory.readByte 0x200 = .ok 0x60 := ok_of_toOption (by decide +kernel)
  have hsecond : straddling.core.memory.readByte 0x202 = .ok 0x61 := ok_of_toOption (by decide +kernel)
  have hregister : straddling.core.registers.get 1 = 0x22 := by decide +kernel
  have hfit : straddling.core.index.toNat + (Instruction.ofWord 0xF255).word.x ≤ 4094 := by
    rw [hindex]
    decide
  have hx : (1 : Fin registerCount) ≤ (Instruction.ofWord 0xF255).word.x := by decide
  have hstore : (Instruction.ofWord 0xF255).operation = .storeBlock := by decide
  have hload : (Instruction.ofWord 0xF265).operation = .loadBlock := by decide
  obtain ⟨⟨t, ht, hstores, hback⟩, s, hs, hloads, v, hv, -, hbytes⟩ :=
    blocks_come_back hm hstore hload rfl hfit
  obtain ⟨u, hu, -, hrestored⟩ := hback .zero
  have hbefore := hstores.outside 0x200
  have hstored := hstores.inside 1 hx
  have hloaded := hloads.inside 1 hx
  rw [hindex, hfirst] at hbefore
  rw [hindex, hregister] at hstored
  rw [hindex] at hloaded
  have hsame := hsecond.symm.trans hloaded
  refine ⟨hm, hfit, ⟨t, ht, hbefore (.inl (by decide)), hstored, u, hu, ?_⟩, s, hs, ?_, v, hv, hbytes⟩
  · rw [hrestored 1 hx, hregister]
  · exact (Except.ok.inj hsame).symm

end Chip8.Machine
