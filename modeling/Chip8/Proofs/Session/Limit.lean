import Chip8.Proofs.Session.Pacing

/-! A limit on the cycles ends a session as soon as its frames have more cycles than the limit allows. The
limit is looked at only when a cycle is due, so that frames without cycles never come to it. -/
namespace Chip8

/-- How many cycles a session has executed that ends after `k` good ones. A failing cycle counts. -/
def Ending.cycles (e : Ending) (k : Nat) : Nat :=
  match e with
  | failed _ => k + 1
  | _ => k

namespace Machine
variable {o : Options} {m : Machine} {k limit : Nat} {e : Ending}

private theorem played_eq (m : Machine) (k : Nat) (e : Ending) : m.played k e = m.run (e.cycles k) := by
  cases e <;> rfl

/-- Once the limit is reached no cycle is tried any more, so none can fail. -/
private theorem stop?_of_limit_ne_failed {failure : Failure} (hl : o.maxCycles = some k) :
    m.stop? o k ≠ some (.failed failure) := by
  rw [stop?, if_pos hl]
  intro h
  split at h <;> cases h

theorem StopsAt.cycles_le (h : m.StopsAt o k e) (hl : o.maxCycles = some limit) : e.cycles k ≤ limit := by
  have hk : k ≤ limit := by
    apply Nat.le_of_not_lt
    intro hlt
    exact stop?_of_limit hl (h.first limit hlt)
  cases e with
  | finished => exact hk
  | cycleLimit => exact hk
  | failed failure =>
    rcases Nat.lt_or_eq_of_le hk with hlt | rfl
    · exact hlt
    · exact absurd h.stop (stop?_of_limit_ne_failed hl)

end Machine

namespace Session
variable {o : Options} {s : Session} {limit : Nat}

theorem play_of_no_cycles (hc : o.cyclesPerFrame = 0) (s : Session) (n : Nat) : (s.play o n).2 = none := by
  induction n generalizing s with
  | zero => rfl
  | succ n ih =>
    have hframe : s.frame o = ({ s with redraw := false }, none) := by simp [frame, hc, cycles]
    rw [play, hframe]
    exact ih _

/-- A session under a limit ends if and only if its frames have any cycles. It has then ended after the
first frames that have more cycles than the limit between them, at the latest, and has executed no more
cycles than the limit, one that failed included. -/
theorem limit_ends_play_iff (h : s.executed = 0) (hl : o.maxCycles = some limit) :
    ((∃ n, (s.play o n).2 ≠ none) ↔ 0 < o.cyclesPerFrame) ∧
    ∀ n, limit < n * o.cyclesPerFrame → ∃ k e t, s.play o n = (t, some e) ∧
      Ended o s.machine s.log k e t ∧ t.machine = (s.machine.run (e.cycles k)).machine ∧
      e.cycles k ≤ limit := by
  have hends (n : Nat) (hn : limit < n * o.cyclesPerFrame) : ∃ k e t, s.play o n = (t, some e) ∧
      Ended o s.machine s.log k e t ∧ t.machine = (s.machine.run (e.cycles k)).machine ∧
      e.cycles k ≤ limit := by
    have hp := progress_play (onCourse_zero (o := o) h) n
    rcases hs : s.play o n with ⟨t, _ | e⟩
    · -- still on course it would have gone past the limit
      rw [hs] at hp
      exact absurd (hp.unstopped limit (by omega)) (Machine.stop?_of_limit hl)
    · rw [hs] at hp
      obtain ⟨k, ht⟩ := hp
      have hm := ht.machine
      rw [Machine.played_eq] at hm
      exact ⟨k, e, t, rfl, ht, hm, ht.stops.cycles_le hl⟩
  refine ⟨⟨?_, ?_⟩, hends⟩
  · rintro ⟨n, hn⟩
    apply Nat.pos_of_ne_zero
    intro hc
    exact hn (play_of_no_cycles hc s n)
  · intro hc
    obtain ⟨k, e, t, hs, _⟩ := hends (limit + 1) (Nat.lt_of_lt_of_le (Nat.lt_succ_self limit)
      (Nat.le_mul_of_pos_right (limit + 1) hc))
    refine ⟨limit + 1, ?_⟩
    rw [hs]
    exact Option.some_ne_none e

def circling : Session where
  machine := (Command.loadProgram [0x1200]).run (.new {} ⟨fun _ => 0, 0⟩)

def curbed : Options := { rom := "rom", cyclesPerFrame := 2, maxCycles := some 5 }

theorem limit_ends_play_iff_circling :
    circling.executed = 0 ∧ curbed.maxCycles = some 5 ∧ 5 < 3 * curbed.cyclesPerFrame ∧
      ∃ k e t, circling.play curbed 3 = (t, some e) ∧ Ended curbed circling.machine [] k e t ∧
        t.machine = (circling.machine.run (e.cycles k)).machine ∧ e.cycles k ≤ 5 :=
  ⟨rfl, rfl, by decide, (limit_ends_play_iff (s := circling) (o := curbed) rfl rfl).2 3 (by decide)⟩

def idling : Options := { rom := "rom", cyclesPerFrame := 0, maxCycles := some 0 }

/-- A session of empty frames that is allowed no cycle starts, and never ends. -/
theorem limit_never_met_in_empty_frames :
    (start idling (.ok [0x60, 0x05]) ⟨fun _ => 0, 0⟩).2 = none ∧
      ∀ n, ((start idling (.ok [0x60, 0x05]) ⟨fun _ => 0, 0⟩).1.play idling n).2 = none :=
  ⟨by decide +kernel, play_of_no_cycles rfl _⟩

end Session
end Chip8
