import Chip8.Proofs.Memory.History

/-! A decode is kept exactly as long as its bytes. A history of writes is taken apart into single stores,
and a cell holds a decoded instruction if and only if the latest store that wrote either of its two bytes
is the one that put it there. -/
namespace Chip8

inductive Part
  | byte (a : Nat)
  | instruction (a : Nat) (w : Word)
  deriving DecidableEq

namespace Part

def covers : Part → Nat → Bool
  | byte a, k => k = a
  | instruction a _, k => k = a || k = a + 1

def touches (p : Part) (a : Nat) : Bool := p.covers a || p.covers (a + 1)

/-- The latest of the stores, in order, that wrote byte `a` or the one after it. -/
def latest (a : Nat) (parts : List Part) : Option Part := parts.reverse.find? (·.touches a)

variable {a b : Nat} {w : Word} {parts : List Part} {p : Part}

private theorem touches_byte_iff : (byte b).touches a = true ↔ b = a ∨ a + 1 = b := by
  simp only [touches, covers, Bool.or_eq_true, decide_eq_true_eq]
  omega

private theorem touches_instruction_iff : (instruction b w).touches a = true ↔ b = a ∨ b + 1 = a ∨ a + 1 = b := by
  simp only [touches, covers, Bool.or_eq_true, decide_eq_true_eq]
  omega

private theorem latest_nil : latest a [] = none := rfl

private theorem latest_concat : latest a (parts ++ [p]) = if p.touches a then some p else latest a parts := by
  rw [latest, List.reverse_append, List.reverse_singleton, List.singleton_append, List.find?_cons]
  cases p.touches a <;> rfl

def ofProgram (a : Nat) : List Word → List Part
  | [] => []
  | w :: rest => instruction a w :: ofProgram (a + 2) rest

/-- A program reaches no byte below its base. -/
private theorem latest_ofProgram_of_lt {base : Nat} (words : List Word) (h : a + 1 < base) :
    latest a (parts ++ ofProgram base words) = latest a parts := by
  induction words generalizing base parts with
  | nil => rw [ofProgram, List.append_nil]
  | cons w rest ih =>
    have hfar : ¬ (instruction base w).touches a = true := by
      rw [touches_instruction_iff]
      omega
    rw [ofProgram, List.append_cons, ih (by omega), latest_concat, if_neg hfar]

/-- No word of a program is written over by a later one. -/
theorem latest_ofProgram {base : Nat} (words : List Word) {k : Nat} (hk : k < words.length) :
    latest (base + 2 * k) (parts ++ ofProgram base words) = some (instruction (base + 2 * k) words[k]) := by
  induction words generalizing base parts k with
  | nil => cases hk
  | cons w rest ih =>
    rw [ofProgram, List.append_cons]
    cases k with
    | zero =>
      have hself : (instruction base w).touches (base + 2 * 0) = true := touches_instruction_iff.mpr (.inl rfl)
      rw [latest_ofProgram_of_lt rest (by omega), latest_concat, if_pos hself]
      rfl
    | succ k =>
      have ha : base + 2 * (k + 1) = base + 2 + 2 * k := by omega
      rw [ha, ih (Nat.lt_of_succ_lt_succ hk)]
      rfl

end Part

def Write.parts : Write → List Part
  | byte a _ => [.byte a]
  | instruction a w => [.instruction a w]
  | program base words => Part.ofProgram base.toNat words

namespace Memory
variable {m next : Memory} {parts : List Part} {a : Nat}

/-- The stores that take place when the writes are tried one after the other. A write that fails makes
none. -/
def stores (m : Memory) : List Write → List Part
  | [] => []
  | w :: rest =>
    match w.run m with
    | (next, none) => w.parts ++ next.stores rest
    | (same, some _) => same.stores rest

/-- The instructions kept in memory are those that the latest stores put there. -/
def Keeps (m : Memory) (parts : List Part) : Prop :=
  ∀ a i, m.cells[a]? = some (.instruction i) ↔
    ∃ w, Part.latest a parts = some (.instruction a w) ∧ i = .ofWord w

private theorem keeps_blank : blank.Keeps [] := by
  intro a i
  rw [Part.latest_nil]
  constructor
  · intro hc
    obtain ⟨ha, hc⟩ := Vector.getElem?_eq_some_iff.mp hc
    simp [blank] at hc
  · rintro ⟨w, hw, _⟩
    cases hw

theorem keeps_setByte (hm : m.Coherent) (hp : m.Keeps parts) (value : UInt8) (h : a < size) :
    (m.setByte a value h).Keeps (parts ++ [.byte a]) := by
  intro k i
  rw [cells_setByte hm, Part.latest_concat]
  by_cases ht : (Part.byte a).touches k = true
  · rw [if_pos ht]
    refine iff_of_false ?_ (by rintro ⟨w, hw, _⟩; cases hw)
    by_cases hk : a = k
    · rw [if_pos hk]
      exact nofun
    · have hb : k + 1 = a := (Part.touches_byte_iff.mp ht).resolve_left hk
      rw [if_neg hk, if_pos hb]
      exact not_plain
  · rw [if_neg ht]
    rw [Part.touches_byte_iff, not_or] at ht
    rw [if_neg ht.1, if_neg ht.2]
    exact hp k i

theorem keeps_setInstruction (hm : m.Coherent) (hp : m.Keeps parts) (w : Word) (h : a + 1 < size) :
    (m.setInstruction a (.ofWord w) h).Keeps (parts ++ [.instruction a w]) := by
  intro k i
  rw [cells_setInstruction hm, Part.latest_concat]
  by_cases hk : a = k
  · subst hk
    rw [if_pos rfl, if_pos (Part.touches_instruction_iff.mpr (.inl rfl))]
    constructor
    · rintro ⟨⟩
      exact ⟨w, rfl, rfl⟩
    · rintro ⟨_, ⟨⟩, rfl⟩
      rfl
  · rw [if_neg hk]
    by_cases ht : (Part.instruction a w).touches k = true
    · rw [if_pos ht]
      refine iff_of_false ?_ (by rintro ⟨v, hv, _⟩; cases hv; exact hk rfl)
      by_cases hn : a + 1 = k
      · rw [if_pos hn]
        exact nofun
      · have hb : k + 1 = a := ((Part.touches_instruction_iff.mp ht).resolve_left hk).resolve_left hn
        rw [if_neg hn, if_pos hb]
        exact not_plain
    · rw [if_neg ht]
      rw [Part.touches_instruction_iff, not_or, not_or] at ht
      rw [if_neg ht.2.1, if_neg ht.2.2]
      exact hp k i

private theorem fits_of_store {w : Word} (h : (m.store a w).2 = none) : a + 1 < size := by
  apply Decidable.of_not_not
  intro hw
  rw [store_of_not_fit w hw] at h
  cases h

theorem keeps_storeAll (hm : m.Coherent) (hp : m.Keeps parts) (words : List Word)
    (h : a + 2 * words.length ≤ size) : (m.storeAll a words).1.Keeps (parts ++ Part.ofProgram a words) := by
  induction words generalizing m parts a with
  | nil => rwa [Part.ofProgram, List.append_nil]
  | cons w rest ih =>
    rw [List.length_cons] at h
    have hw : a + 1 < size := by omega
    rw [storeAll_cons w rest hw, Part.ofProgram, List.append_cons]
    exact ih (coherent_setInstruction hm w hw) (keeps_setInstruction hm hp w hw) (by omega)

theorem keeps_run (hm : m.Coherent) (hp : m.Keeps parts) (w : Write) (h : (w.run m).2 = none) :
    (w.run m).1.Keeps (parts ++ w.parts) := by
  cases w with
  | byte a value =>
    rw [Write.run, writeByte] at h ⊢
    split at h
    · next ha =>
      rw [dif_pos ha]
      exact keeps_setByte hm hp _ ha
    · cases h
  | instruction a w =>
    have hw := fits_of_store h
    rw [Write.run, store_of_fit w hw]
    exact keeps_setInstruction hm hp w hw
  | program base words =>
    rw [Write.run, load] at h ⊢
    split at h
    · next hfit =>
      rw [if_pos hfit]
      exact keeps_storeAll hm hp words hfit
    · cases h

private theorem stores_cons_of_ok {w : Write} {rest : List Write} (h : (w.run m).2 = none) :
    m.stores (w :: rest) = w.parts ++ (w.run m).1.stores rest := by
  rw [stores]
  split
  · next hr => rw [hr]
  · next hr => rw [hr] at h; cases h

private theorem stores_cons_of_fault {w : Write} {rest : List Write} {f : Fault} (h : (w.run m).2 = some f) :
    m.stores (w :: rest) = m.stores rest := by
  rw [stores]
  split
  · next hr => rw [hr] at h; cases h
  · next hr =>
    rw [← Write.run_of_fault h, hr]

private theorem keeps_replay (hm : m.Coherent) (hp : m.Keeps parts) (history : List Write) :
    (history.foldl (fun m w => (w.run m).1) m).Keeps (parts ++ m.stores history) := by
  induction history generalizing m parts with
  | nil => rwa [stores, List.append_nil]
  | cons w rest ih =>
    rw [List.foldl_cons]
    cases hr : (w.run m).2 with
    | none =>
      rw [stores_cons_of_ok hr, ← List.append_assoc]
      exact ih (Write.run_coherent hm w) (keeps_run hm hp w hr)
    | some f =>
      rw [stores_cons_of_fault hr, Write.run_of_fault hr]
      exact ih hm hp

theorem keeps_after (history : List Write) : (after history).Keeps (blank.stores history) :=
  keeps_replay coherent_blank keeps_blank history

theorem cell_ok_iff {c : Cell} : m.cell a = .ok c ↔ m.cells[a]? = some c := by
  rw [cell]
  cases m.cells[a]? <;> simp

/-- A cell without a decode shows the byte that reads as its own. -/
theorem cell_eq_readByte (hm : m.Coherent) (h : ∀ i, m.cell a ≠ .ok (.instruction i)) :
    m.cell a = (m.readByte a).map .byte := by
  rw [readByte_eq hm, Bytes.read]
  by_cases ha : a < size
  · have hcell : m.cell a = .ok m.cells[a] := cell_ok_iff.mpr (Vector.getElem?_eq_getElem ha)
    rw [dif_pos ha, hcell]
    cases hc : m.cells[a] with
    | instruction i => exact absurd (hcell.trans (congrArg Except.ok hc)) (h i)
    | byte value => simp [bytes, hc, Cell.leading, Except.map]
  · rw [dif_neg ha, cell, Vector.getElem?_eq_none (Nat.le_of_not_lt ha)]
    rfl

/-- After any history of writes a cell holds a decoded instruction if and only if the latest store that
wrote either of its bytes stored that instruction there; otherwise it holds the byte that reads as its own.
A decode is that of its word and has a cell of plain low byte behind it, so that none lies on the last byte
or next to another, and a program that is loaded is decoded throughout. -/
theorem decodes_are_latest_stores (history : List Write) :
    (∀ a i, (after history).cell a = .ok (.instruction i) ↔
      ∃ w, Part.latest a (blank.stores history) = some (.instruction a w) ∧ i = .ofWord w) ∧
    (∀ a, (∀ w, Part.latest a (blank.stores history) ≠ some (.instruction a w)) →
      (after history).cell a = ((after history).readByte a).map .byte) ∧
    (∀ a i, (after history).cell a = .ok (.instruction i) →
      i.operation = .decode i.word ∧ a + 1 < size ∧ (after history).cell (a + 1) = .ok (.byte i.word.low)) ∧
    ∀ base words next, (after history).load base words = (next, none) →
      ∀ (k : Nat) (hk : k < words.length),
        next.cell (base.toNat + 2 * k) = .ok (.instruction (.ofWord words[k])) := by
  have hc := coherent_after history
  have hk := keeps_after history
  refine ⟨fun a i => cell_ok_iff.trans (hk a i), ?_, ?_, ?_⟩
  · intro a hn
    refine cell_eq_readByte hc fun i hi => ?_
    obtain ⟨w, hw, _⟩ := (hk a i).mp (cell_ok_iff.mp hi)
    exact hn w hw
  · intro a i hi
    obtain ⟨hd, hn⟩ := hc a i (cell_ok_iff.mp hi)
    exact ⟨congrArg Instruction.operation hd, (Vector.getElem?_eq_some_iff.mp hn).1, cell_ok_iff.mpr hn⟩
  · intro base words next hl k hlt
    have hkeeps := keeps_run hc hk (.program base words) (congrArg Prod.snd hl)
    rw [Write.run, hl] at hkeeps
    exact cell_ok_iff.mpr ((hkeeps _ _).mpr ⟨words[k], Part.latest_ofProgram words hlt, rfl⟩)

def overlapping : List Write :=
  [.instruction 0x200 0x1234, .instruction 0x202 0x5678, .instruction 0x201 0x9ABC]

theorem decodes_are_latest_stores_overlapping :
    (after overlapping).cell 0x201 = .ok (.instruction (.ofWord 0x9ABC)) ∧
      (after overlapping).cell 0x200 = ((after overlapping).readByte 0x200).map .byte ∧
      (after overlapping).cell 0x202 = .ok (.byte (Instruction.ofWord 0x9ABC).word.low) := by
  have hafter := decodes_are_latest_stores overlapping
  have hacross : Part.latest 0x201 (blank.stores overlapping) = some (.instruction 0x201 0x9ABC) := by
    decide +kernel
  have hbefore : Part.latest 0x200 (blank.stores overlapping) = some (.instruction 0x201 0x9ABC) := by
    decide +kernel
  have hkept := (hafter.1 _ _).mpr ⟨_, hacross, rfl⟩
  refine ⟨hkept, hafter.2.1 _ fun w hw => ?_, (hafter.2.2.1 _ _ hkept).2.2⟩
  rw [hbefore] at hw
  cases hw

end Memory
end Chip8
