import Chip8.Proofs.Memory.Coherence

/-! Histories of writes, replayed on cells and on bare bytes. After any history the cells are
coherent and show the same bytes, so every read answers alike, faults included. -/
namespace Chip8

/-- Everything outside the machine that can change a memory. -/
inductive Write
  | byte (a : Nat) (value : Int)
  | instruction (a : Nat) (w : Word)
  | program (base : UInt16) (words : List Word)

namespace Write
variable {m : Memory} {f : Fault} {a : Nat}

/-- The memory that a write leaves, and why it failed if it did. -/
def run : Write → Memory → Memory × Option Fault
  | byte a value, m => m.writeByte a value
  | instruction a w, m => m.store a w
  | program base words, m => m.load base words

/-- What a write means where nothing is decoded: which bytes it replaces, or why it cannot. -/
def onBytes : Write → Bytes → Bytes × Option Fault
  | byte a value, b =>
    if a < Memory.size then (b.overlay a [UInt8.ofNat (max 0 (min value 255)).toNat], none)
    else (b, some (.outOfRange a))
  | instruction a w, b =>
    if a + 1 < Memory.size then (b.overlay a [w.high, w.low], none)
    else (b, some (.outOfRange (max a Memory.size)))
  | program base words, b =>
    if base.toNat + 2 * words.length ≤ Memory.size then (b.overlay base.toNat (Program.toBytes words), none)
    else (b, some (.programTooLarge base words.length))

end Write

namespace Memory
variable {m : Memory} {f : Fault} {a : Nat}

theorem store_of_fit (w : Word) (h : a + 1 < size) : m.store a w = (m.setInstruction a (.ofWord w) h, none) := by
  rw [store, if_pos (Nat.lt_of_succ_lt h), dif_pos h]

theorem store_of_not_fit (w : Word) (h : ¬ a + 1 < size) : m.store a w = (m, some (.outOfRange (max a size))) := by
  rw [store]
  by_cases ha : a < size
  · have hl : max a size = a + 1 := by omega
    rw [if_pos ha, dif_neg h, hl]
  · rw [if_neg ha, Nat.max_eq_left (Nat.le_of_not_lt ha)]

theorem storeAll_cons (w : Word) (rest : List Word) (h : a + 1 < size) :
    m.storeAll a (w :: rest) = (m.setInstruction a (.ofWord w) h).storeAll (a + 2) rest := by
  rw [storeAll, store_of_fit w h]

/-- A program that fits is stored to its end: no store on the way fails. -/
theorem storeAll_ok (words : List Word) (h : a + 2 * words.length ≤ size) : (m.storeAll a words).2 = none := by
  induction words generalizing m a with
  | nil => rfl
  | cons w rest ih =>
    rw [List.length_cons] at h
    rw [storeAll_cons w rest (by omega)]
    exact ih (by omega)

theorem storeAll_spec (hm : m.Coherent) (words : List Word) (h : a + 2 * words.length ≤ size) :
    (m.storeAll a words).1.Coherent ∧
      (m.storeAll a words).1.bytes = m.bytes.overlay a (Program.toBytes words) := by
  induction words generalizing m a with
  | nil => exact ⟨hm, Bytes.overlay_nil.symm⟩
  | cons w rest ih =>
    rw [List.length_cons] at h
    have hw : a + 1 < size := by omega
    obtain ⟨hc, hb⟩ := ih (coherent_setInstruction hm w hw) (a := a + 2) (by omega)
    rw [storeAll_cons w rest hw]
    refine ⟨hc, ?_⟩
    rw [hb, bytes_setInstruction hm]
    exact (Bytes.overlay_append [w.high, w.low] (Program.toBytes rest)).symm

theorem writeByte_of_fault {value : Int} (h : (m.writeByte a value).2 = some f) : (m.writeByte a value).1 = m := by
  rw [writeByte] at h ⊢
  split at h
  · cases h
  · next ha => rw [dif_neg ha]

theorem store_of_fault {w : Word} (h : (m.store a w).2 = some f) : (m.store a w).1 = m := by
  by_cases hw : a + 1 < size
  · rw [store_of_fit w hw] at h
    cases h
  · rw [store_of_not_fit w hw]

theorem load_of_fault {base : UInt16} {words : List Word} (h : (m.load base words).2 = some f) :
    (m.load base words).1 = m := by
  rw [load] at h ⊢
  split at h
  · next hfit =>
    rw [storeAll_ok words hfit] at h
    cases h
  · next hfit => rw [if_neg hfit]

end Memory

namespace Write
variable {m : Memory} {f : Fault}

/-- A write that fails changes nothing, not even where instructions are decoded. -/
theorem run_of_fault {w : Write} (h : (w.run m).2 = some f) : (w.run m).1 = m := by
  cases w with
  | byte a value => exact Memory.writeByte_of_fault h
  | instruction a w => exact Memory.store_of_fault h
  | program base words => exact Memory.load_of_fault h

private theorem clamp_eq (value : Int) : min value.toNat 255 = (max 0 (min value 255)).toNat := by
  omega

/-- A write does to coherent memory what it means for the bytes. -/
theorem run_spec (hm : m.Coherent) (w : Write) :
    (w.run m).1.Coherent ∧ ((w.run m).1.bytes, (w.run m).2) = w.onBytes m.bytes := by
  cases w with
  | byte a value =>
    rw [run, Memory.writeByte, onBytes]
    by_cases h : a < Memory.size
    · rw [dif_pos h, if_pos h]
      exact ⟨Memory.coherent_setByte hm _ h, by rw [Memory.bytes_setByte hm, clamp_eq]⟩
    · rw [dif_neg h, if_neg h]
      exact ⟨hm, rfl⟩
  | instruction a w =>
    rw [run, onBytes]
    by_cases h : a + 1 < Memory.size
    · rw [Memory.store_of_fit w h, if_pos h]
      exact ⟨Memory.coherent_setInstruction hm w h, by rw [Memory.bytes_setInstruction hm]; rfl⟩
    · rw [Memory.store_of_not_fit w h, if_neg h]
      exact ⟨hm, rfl⟩
  | program base words =>
    rw [run, Memory.load, onBytes]
    by_cases h : base.toNat + 2 * words.length ≤ Memory.size
    · obtain ⟨hc, hb⟩ := Memory.storeAll_spec hm words h
      rw [if_pos h, if_pos h]
      exact ⟨hc, by rw [hb, Memory.storeAll_ok words h]⟩
    · rw [if_neg h, if_neg h]
      exact ⟨hm, rfl⟩

theorem run_coherent (hm : m.Coherent) (w : Write) : (w.run m).1.Coherent := (run_spec hm w).1

theorem run_bytes (hm : m.Coherent) (w : Write) : (w.run m).1.bytes = (w.onBytes m.bytes).1 :=
  congrArg Prod.fst (run_spec hm w).2

theorem run_fault (hm : m.Coherent) (w : Write) : (w.run m).2 = (w.onBytes m.bytes).2 :=
  congrArg Prod.snd (run_spec hm w).2

end Write

namespace Memory

def after (history : List Write) : Memory := history.foldl (fun m w => (w.run m).1) blank

theorem after_concat (history : List Write) (w : Write) :
    after (history ++ [w]) = (w.run (after history)).1 := by
  rw [after, after, List.foldl_append]
  rfl

def Reachable (m : Memory) : Prop := ∃ history, m = after history

theorem reachable_after (history : List Write) : (after history).Reachable := ⟨history, rfl⟩

end Memory

def Bytes.after (history : List Write) : Bytes := history.foldl (fun b w => (w.onBytes b).1) zero

namespace Memory
variable {m : Memory}

private theorem replay_spec (hm : m.Coherent) (history : List Write) :
    (history.foldl (fun m w => (w.run m).1) m).Coherent ∧
      (history.foldl (fun m w => (w.run m).1) m).bytes =
        history.foldl (fun b w => (w.onBytes b).1) m.bytes := by
  induction history generalizing m with
  | nil => exact ⟨hm, rfl⟩
  | cons w rest ih =>
    rw [List.foldl_cons, List.foldl_cons, ← Write.run_bytes hm]
    exact ih (Write.run_coherent hm w)

theorem coherent_after (history : List Write) : (after history).Coherent :=
  (replay_spec coherent_blank history).1

theorem Reachable.coherent (h : m.Reachable) : m.Coherent := by
  obtain ⟨history, rfl⟩ := h
  exact coherent_after history

/-- Whatever is written to a memory that writes have led to, another write has led there. -/
theorem Reachable.write (h : m.Reachable) (w : Write) : (w.run m).1.Reachable := by
  obtain ⟨history, rfl⟩ := h
  exact ⟨history ++ [w], (after_concat history w).symm⟩

theorem Reachable.setByte (h : m.Reachable) {a : Nat} (value : UInt8) (ha : a < size) :
    (m.setByte a value ha).Reachable := by
  have hw := h.write (.byte a value.toNat)
  have hvalue : UInt8.ofNat (min value.toNat 255) = value := by
    rw [Nat.min_eq_left (Nat.le_of_lt_succ value.toNat_lt), UInt8.ofNat_toNat]
  rw [Write.run, writeByte, dif_pos ha, Int.toNat_natCast, hvalue] at hw
  exact hw

theorem Reachable.writeUpTo (h : m.Reachable) (a : Nat) (data : List UInt8) :
    (m.writeUpTo a data).1.Reachable := by
  induction data generalizing m a with
  | nil => exact h
  | cons b rest ih =>
    rw [Memory.writeUpTo]
    by_cases ha : a < size
    · rw [dif_pos ha]
      exact ih (h.setByte b ha) (a + 1)
    · rw [dif_neg ha]
      exact h

theorem bytes_after (history : List Write) : (after history).bytes = Bytes.after history := by
  have h := (replay_spec coherent_blank history).2
  rw [bytes_blank] at h
  exact h

/-- After any history of writes every read of the cells answers as the bare bytes do, whatever is
decoded where. Every further write does to the cells what it means for the bytes, fails on both for the
same reason or on neither, and if it fails might as well not have been tried. -/
theorem history_refines_bytes (history : List Write) :
    (∀ a, (after history).readByte a = (Bytes.after history).read a) ∧
    (∀ a, (after history).readWord a = (Bytes.after history).readWord a) ∧
    (∀ a count, (after history).readRange a count = (Bytes.after history).readRange a count) ∧
    (∀ a, (after history).fetch a = (Bytes.after history).fetch a) ∧
    (∀ w : Write, ((w.run (after history)).1.bytes, (w.run (after history)).2) =
      w.onBytes (Bytes.after history)) ∧
    (∀ (w : Write) (f : Fault),
      (w.run (after history)).2 = some f ↔ (w.onBytes (Bytes.after history)).2 = some f) ∧
    (∀ (w : Write) (f : Fault),
      (w.run (after history)).2 = some f → after (history ++ [w]) = after history) := by
  have hc := coherent_after history
  rw [← bytes_after]
  refine ⟨readByte_eq hc, readWord_eq hc, readRange_eq hc, fetch_eq hc, fun w => (Write.run_spec hc w).2, ?_, ?_⟩
  · intro w f
    rw [Write.run_fault hc]
  · intro w f hf
    rw [after_concat]
    exact Write.run_of_fault hf

end Memory
end Chip8
