import Chip8.Proofs.Effect.Frame
import Chip8.Proofs.Session.Pacing

/-! What a session shows: of every frame that it completes at most one picture, the screen after the last
cycle of the frame, and this only if a cycle of the frame drew a sprite. A frame that is left in the middle
shows nothing. -/
namespace Chip8

namespace Machine
variable {o : Options} {m : Machine} {j k n : Nat}

def drawsNext (m : Machine) : Bool :=
  match m.current with
  | .ok i => i.operation = .draw
  | .error _ => false

/-- There is a draw among the `n` cycles that follow the first `k`. -/
def drawsWithin (m : Machine) (k n : Nat) : Bool :=
  (List.range n).any fun d => (m.run (k + d)).machine.drawsNext

/-- What the frame after the first `j` sends to the terminal once it is complete. -/
def picture (o : Options) (m : Machine) (j : Nat) : String :=
  let c := o.cyclesPerFrame
  if m.drawsWithin (j * c) c && !o.headless then
    Session.clear ++ (m.run ((j + 1) * c)).machine.core.screen.render
  else ""

def pictures (o : Options) (m : Machine) (j : Nat) : String := String.join ((List.range j).map (m.picture o))

private theorem pictures_succ : m.pictures o (j + 1) = m.pictures o j ++ m.picture o j := by
  simp [pictures, List.range_succ, String.join_append]

private theorem drawsWithin_succ :
    m.drawsWithin k (n + 1) = ((m.run k).machine.drawsNext || m.drawsWithin (k + 1) n) := by
  have hshift : (fun d => (m.run (k + d)).machine.drawsNext) ∘ Nat.succ =
      fun d => (m.run (k + 1 + d)).machine.drawsNext := by
    funext d
    rw [Function.comp_apply, Nat.add_succ, Nat.succ_add]
  rw [drawsWithin, List.range_succ_eq_map, List.any_cons, List.any_map, hshift]
  rfl

/-- The draw flag that a good cycle leaves tells whether the cycle drew. -/
private theorem drawing_of_cycle (h : m.cycle.fault? = none) : m.cycle.machine.core.drawing = m.drawsNext := by
  obtain ⟨i, after, flow, hc, hp, he⟩ := cycle_performs h
  rw [he, drawsNext, hc]
  by_cases ho : i.operation = .draw
  · exact (hp.drawing_of_draw ho).trans (decide_eq_true ho).symm
  · exact (hp.drawing_eq ho).trans (decide_eq_false ho).symm

end Machine

namespace Session
variable {o : Options} {m : Machine} {earlier : List Event} {j k n : Nat} {s t : Session} {e : Ending}

private theorem output_show (s : Session) (screen : Screen) :
    { s with shown := screen :: s.shown }.output = s.output ++ (clear ++ screen.render) := by
  simp [output, String.join_append]

/-- Cycles that come to an end on the way have not all been executed, and have shown nothing. -/
private theorem cycles_of_ending (hs : cycles o n s = (t, some e)) :
    s.executed ≤ t.executed ∧ t.executed < s.executed + n ∧ t.output = s.output := by
  induction n generalizing s with
  | zero => cases hs
  | succ n ih =>
    rw [cycles] at hs
    cases hd : s.due o with
    | some e' =>
      rw [hd] at hs
      cases hs
      exact ⟨Nat.le_refl _, by omega, rfl⟩
    | none =>
      rw [hd] at hs
      cases hf : s.machine.cycle.fault? with
      | some f =>
        rw [cycle_of_fault hf] at hs
        cases hs
        exact ⟨Nat.le_refl _, Nat.lt_add_of_pos_right (Nat.succ_pos n), rfl⟩
      | none =>
        rw [cycle_of_ok hf] at hs
        obtain ⟨hle, hlt, ho⟩ := ih hs
        dsimp only at hle hlt
        exact ⟨by omega, by omega, ho⟩

/-- Cycles that all go well leave it in the redraw flag whether one of them drew. -/
theorem OnCourse.cycles_redraw (h : OnCourse o m earlier k s) (hs : cycles o n s = (t, none)) :
    t.output = s.output ∧ t.redraw = (s.redraw || m.drawsWithin k n) := by
  induction n generalizing k s with
  | zero =>
    cases hs
    exact ⟨rfl, (Bool.or_false _).symm⟩
  | succ n ih =>
    rw [cycles] at hs
    cases hd : s.due o with
    | some e => rw [hd] at hs; cases hs
    | none =>
      rw [hd] at hs
      have hc := h.cycle hd
      cases hf : s.machine.cycle.fault? with
      | some f => rw [cycle_of_fault hf] at hs; cases hs
      | none =>
        rw [cycle_of_ok hf] at hs hc
        obtain ⟨ho, hr⟩ := ih hc hs
        refine ⟨ho, ?_⟩
        rw [hr, Machine.drawing_of_cycle hf, h.machine, Bool.or_assoc, Machine.drawsWithin_succ]

/-- A frame that is completed shows its picture, and the course goes on behind it. -/
theorem OnCourse.frame_completed (h : OnCourse o m earlier (j * o.cyclesPerFrame) s)
    (hs : s.frame o = (t, none)) :
    OnCourse o m earlier ((j + 1) * o.cyclesPerFrame) t ∧ t.output = s.output ++ m.picture o j := by
  have hnext := progress_frame h
  rw [hs, ← Nat.succ_mul] at hnext
  refine ⟨hnext, ?_⟩
  have hmachine := hnext.machine
  rw [frame] at hs
  rcases hc : cycles o o.cyclesPerFrame { s with redraw := false } with ⟨u, _ | e⟩
  · obtain ⟨ho, hr⟩ := h.begun.cycles_redraw hc
    rw [Bool.false_or] at hr
    rw [hc] at hs
    cases hs
    rw [Machine.picture, ← hr]
    by_cases hshow : (u.redraw && !o.headless) = true
    · rw [if_pos hshow] at hmachine ⊢
      rw [if_pos hshow, ← hmachine, output_show, ho]
      rfl
    · rw [if_neg hshow, if_neg hshow, String.append_empty]
      exact ho
  · rw [hc] at hs
    cases hs

/-- A frame that is left in the middle shows nothing. -/
private theorem frame_of_ending (hs : s.frame o = (t, some e)) :
    s.executed ≤ t.executed ∧ t.executed < s.executed + o.cyclesPerFrame ∧ t.output = s.output := by
  rw [frame] at hs
  rcases hc : cycles o o.cyclesPerFrame { s with redraw := false } with ⟨u, _ | e'⟩
  · rw [hc] at hs
    cases hs
  · rw [hc] at hs
    cases hs
    exact cycles_of_ending (s := { s with redraw := false }) hc

/-- By its end a session has shown the pictures of as many frames as it has completed. -/
theorem OnCourse.play_output (h : OnCourse o m earlier (j * o.cyclesPerFrame) s)
    (ho : s.output = m.pictures o j) (hs : s.play o n = (t, some e)) :
    t.output = m.pictures o (t.executed / o.cyclesPerFrame) := by
  -- on the frames still to be played; the pictures of the `j` behind are carried along in `ho`
  induction n generalizing j s with
  | zero => cases hs
  | succ n ih =>
    rw [play] at hs
    rcases hf : s.frame o with ⟨u, _ | e'⟩
    · rw [hf] at hs
      obtain ⟨hu, hshown⟩ := h.frame_completed hf
      refine ih hu ?_ hs
      rw [hshown, ho, Machine.pictures_succ]
    · rw [hf] at hs
      cases hs
      obtain ⟨hle, hlt, hshown⟩ := frame_of_ending hf
      rw [h.executed] at hle hlt
      have hj : t.executed / o.cyclesPerFrame = j :=
        Nat.div_eq_of_lt_le hle (by rw [Nat.succ_mul]; exact hlt)
      rw [hj, hshown, ho]

/-- A session that has ended after `t.executed` good cycles has printed one picture, on a cleared terminal,
for each frame among them that is complete and in which a sprite was drawn, unless pictures are turned off;
then how it ended, or nothing further if it failed. -/
theorem output_of_ended_play (h : s.executed = 0) (hshown : s.shown = [])
    (hs : s.play o n = (t, some e)) :
    (s.machine.run t.executed).fault? = none ∧ s.machine.StopsAt o t.executed e ∧
    t.output ++ e.farewell =
      String.join ((List.range (t.executed / o.cyclesPerFrame)).map (s.machine.picture o)) ++
      match e with
      | .finished => "\nProgram finished. Exiting.\n"
      | .cycleLimit => "\nCycle limit reached. Exiting.\n"
      | .failed _ => "" := by
  obtain ⟨k, hk⟩ := ended_of_play h hs
  have hstops := hk.stops
  rw [← hk.executed] at hstops
  have hbegun : OnCourse o s.machine s.log (0 * o.cyclesPerFrame) s := by
    rw [Nat.zero_mul]
    exact onCourse_zero h
  have hnone : s.output = s.machine.pictures o 0 := by rw [output, hshown]; rfl
  refine ⟨Machine.run_ok_of_unstopped hstops.first, hstops, ?_⟩
  rw [hbegun.play_output hnone hs]
  cases e <;> rfl

def drawingTwice : Session where
  machine := (Command.loadProgram [0xA200, 0xD001, 0x6001, 0x6002, 0xD001, 0x00EE]).run (.new {} ⟨fun _ => 0, 0⟩)

def byTwos : Options := { rom := "rom", cyclesPerFrame := 2 }

/-- Two of its three frames are completed, the first of them with a draw. -/
theorem output_of_ended_play_drawingTwice :
    ∃ t e, drawingTwice.executed = 0 ∧ drawingTwice.shown = [] ∧ drawingTwice.play byTwos 3 = (t, some e) ∧
      t.executed = 5 ∧ drawingTwice.machine.StopsAt byTwos 5 e ∧
      t.output ++ e.farewell = clear ++ (drawingTwice.machine.run 2).machine.core.screen.render := by
  have hplay : (drawingTwice.play byTwos 3).1.executed = 5 ∧
      (drawingTwice.play byTwos 3).2 = some (.failed (.execution .noCaller)) := by decide +kernel
  have hdraws : drawingTwice.machine.drawsWithin 0 2 = true ∧
      drawingTwice.machine.drawsWithin 2 2 = false := by decide +kernel
  rcases hs : drawingTwice.play byTwos 3 with ⟨t, e⟩
  rw [hs] at hplay
  obtain ⟨hk, rfl⟩ := hplay
  obtain ⟨-, hstops, hout⟩ := output_of_ended_play rfl rfl hs
  rw [hk] at hstops hout
  refine ⟨t, _, rfl, rfl, rfl, hk, hstops, hout.trans ?_⟩
  simp [Machine.picture, byTwos, hdraws, List.range_succ]

end Session
end Chip8
