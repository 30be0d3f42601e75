import Chip8.Instruction

/-! Which operations a pattern can answer with: those at its leaves. No leaf of the instruction set
is unknown, so an unknown operation always carries the word that was decoded. -/
namespace Chip8

inductive Pattern.Offers : Pattern → Operation → Prop
  | leaf (operation : Operation) : (Pattern.leaf operation).Offers operation
  | exact {exact : List (Nat × Pattern)} {other : Option Pattern} {d : Nat} {p : Pattern}
      {operation : Operation} : (d, p) ∈ exact → p.Offers operation → (branch exact other).Offers operation
  | other {exact : List (Nat × Pattern)} {p : Pattern} {operation : Operation} :
      p.Offers operation → (branch exact (some p)).Offers operation

namespace Pattern
variable {exact : List (Nat × Pattern)} {other : Option Pattern} {operation : Operation}

private theorem mem_of_lookup {d : Nat} {p : Pattern} (h : exact.lookup d = some p) : (d, p) ∈ exact := by
  induction exact with
  | nil => cases h
  | cons entry rest ih =>
    rw [List.lookup_cons] at h
    split at h
    · next he =>
      cases h
      rw [eq_of_beq he]
      exact List.mem_cons_self
    · exact List.mem_cons_of_mem _ (ih h)

theorem offers_of_search {p : Pattern} {digits : List Nat} (h : p.search digits = some operation) :
    p.Offers operation := by
  induction digits generalizing p with
  | nil =>
    cases p with
    | leaf o => cases h; exact .leaf operation
    | branch exact other => cases h
  | cons d rest ih =>
    cases p with
    | leaf o => cases h; exact .leaf operation
    | branch exact other =>
      rw [search] at h
      cases he : exact.lookup d with
      | some q =>
        have hq : q.search rest = some operation := by simpa [he] using h
        exact .exact (mem_of_lookup he) (ih hq)
      | none =>
        cases other with
        | none => simp [he] at h
        | some q =>
          have hq : q.search rest = some operation := by simpa [he] using h
          exact .other (ih hq)

private theorem offers_leaf_iff {o : Operation} : (leaf o).Offers operation ↔ operation = o := by
  constructor
  · intro h
    cases h
    rfl
  · rintro rfl
    exact .leaf operation

private theorem offers_branch_iff : (branch exact other).Offers operation ↔
    (∃ entry ∈ exact, entry.2.Offers operation) ∨ ∃ p, other = some p ∧ p.Offers operation := by
  constructor
  · intro h
    cases h with
    | exact hm hp => exact .inl ⟨_, hm, hp⟩
    | other hp => exact .inr ⟨_, rfl, hp⟩
  · rintro (⟨entry, hm, hp⟩ | ⟨p, rfl, hp⟩)
    · exact .exact hm hp
    · exact .other hp

private theorem instructionSet_known (w : Word) : ¬ instructionSet.Offers (.unknown w) := by
  simp [instructionSet, screenAndReturn, arithmetic, keys, timersAndBlocks, oneOf, skip,
    offers_branch_iff, offers_leaf_iff]

end Pattern

theorem Operation.decode_eq_unknown {w v : Word} (h : decode w = .unknown v) : v = w := by
  unfold decode at h
  cases hs : Pattern.instructionSet.search w.digits with
  | none =>
    rw [hs] at h
    exact (Operation.unknown.inj h).symm
  | some o =>
    rw [hs, Option.getD_some] at h
    rw [h] at hs
    exact absurd (Pattern.offers_of_search hs) (Pattern.instructionSet_known v)

end Chip8
