import Chip8.Proofs.Machine.Reachable
import Chip8.Session

/-! A session ends at the first cycle that gives a reason to, wherever its frames begin and end. Playing
frame by frame stays on the course of one flat run of the machine until this run meets a reason to stop;
how many cycles a frame has and whether it is shown make no difference to what is left in the end. -/
namespace Chip8

def Options.repaced (o : Options) (cyclesPerFrame fps : Nat) (headless : Bool) : Options :=
  { o with cyclesPerFrame, fps, headless }

def Event.isHalt : Event → Bool
  | halted .. => true
  | _ => false

namespace Machine
variable {o : Options} {m : Machine} {j k n : Nat} {e e' : Ending}

/-- Why a session that starts from `m` ends once `k` cycles have gone well, if it does. The exit address
counts before the limit, and the limit before a failure. -/
def stop? (o : Options) (m : Machine) (k : Nat) : Option Ending :=
  if (m.run k).machine.core.pc = o.exitAddress then some .finished
  else if o.maxCycles = some k then some .cycleLimit
  else (m.run k).machine.cycle.fault?.map fun f => .failed (.execution f)

/-- The least number of cycles after which there is a reason to end, and that reason. -/
structure StopsAt (o : Options) (m : Machine) (k : Nat) (e : Ending) : Prop where
  stop : m.stop? o k = some e
  first : ∀ j < k, m.stop? o j = none

/-- The cycles of a session that ends after `k` good ones. A failing cycle comes on top of them. -/
def played (m : Machine) (k : Nat) : Ending → Outcome
  | .failed _ => m.run (k + 1)
  | _ => m.run k

private theorem stop?_congr {o' : Options} (hexit : o'.exitAddress = o.exitAddress)
    (hlimit : o'.maxCycles = o.maxCycles) : m.stop? o' k = m.stop? o k := by
  simp only [stop?, hexit, hlimit]

theorem stop?_of_limit (h : o.maxCycles = some k) : m.stop? o k ≠ none := by
  rw [stop?]
  split
  · exact nofun
  · exact nofun

theorem StopsAt.unique (h : m.StopsAt o k e) (h' : m.StopsAt o j e') : k = j ∧ e = e' := by
  have hkj : k = j := by
    rcases Nat.lt_trichotomy k j with hlt | heq | hgt
    · cases (h'.first k hlt).symm.trans h.stop
    · exact heq
    · cases (h.first j hgt).symm.trans h'.stop
  subst hkj
  exact ⟨rfl, Option.some.inj (h.stop.symm.trans h'.stop)⟩

theorem run_ok_of_unstopped (h : ∀ j < k, m.stop? o j = none) : (m.run k).fault? = none := by
  induction k with
  | zero => rfl
  | succ k ih =>
    have hok := ih fun j hj => h j (Nat.lt_succ_of_lt hj)
    have hstop := h k (Nat.lt_succ_self k)
    rw [run_succ hok]
    rw [stop?] at hstop
    split at hstop
    · cases hstop
    · split at hstop
      · cases hstop
      · exact Option.map_eq_none_iff.mp hstop

private theorem cycle_logs_no_halt (m : Machine) : ∀ event ∈ m.cycle.log, event.isHalt = false := by
  cases hc : m.current with
  | error f =>
    rw [cycle_of_no_fetch hc]
    exact nofun
  | ok i =>
    cases he : (m.effect i).2 with
    | error f => rw [cycle_of_failure hc he]; simp [Event.isHalt]
    | ok flow => rw [cycle_of_flow hc he]; simp [Event.isHalt]

private theorem run_logs_no_halt (m : Machine) (n : Nat) : ∀ event ∈ (m.run n).log, event.isHalt = false := by
  induction n generalizing m with
  | zero => exact nofun
  | succ n ih =>
    cases hf : m.cycle.fault? with
    | some f =>
      rw [run_succ_of_fault hf]
      exact cycle_logs_no_halt m
    | none =>
      rw [run_succ_of_ok hf]
      intro event he
      rcases List.mem_append.mp he with he | he
      · exact cycle_logs_no_halt m event he
      · exact ih _ event he

private theorem played_logs_no_halt (k : Nat) (e : Ending) :
    ∀ event ∈ (m.played k e).log, event.isHalt = false := by
  cases e with
  | failed _ => exact run_logs_no_halt m (k + 1)
  | _ => exact run_logs_no_halt m k

end Machine

def Ending.lastWords (e : Ending) (c : Core) : List Event :=
  match e with
  | .failed _ => [.halted c.pc c.index c.registers c.calls]
  | _ => []

namespace Session
variable {o o' : Options} {m : Machine} {earlier : List Event} {k n : Nat} {s : Session} {e : Ending}
  {f : Fault}

/-- The session has gone through the first `k` cycles from `m`, none of which gave a reason to end. -/
structure OnCourse (o : Options) (m : Machine) (earlier : List Event) (k : Nat) (s : Session) : Prop where
  unstopped : ∀ j < k, m.stop? o j = none
  ok : (m.run k).fault? = none
  machine : s.machine = (m.run k).machine
  executed : s.executed = k
  log : s.log = (m.run k).log.reverse ++ earlier

structure Ended (o : Options) (m : Machine) (earlier : List Event) (k : Nat) (e : Ending) (s : Session) :
    Prop where
  stops : m.StopsAt o k e
  executed : s.executed = k
  machine : s.machine = (m.played k e).machine
  log : s.log = e.lastWords s.machine.core ++ (m.played k e).log.reverse ++ earlier

def Progress (o : Options) (m : Machine) (earlier : List Event) (k : Nat) : Session × Option Ending → Prop
  | (s, none) => OnCourse o m earlier k s
  | (s, some e) => ∃ j, Ended o m earlier j e s

theorem onCourse_zero (h : s.executed = 0) : OnCourse o s.machine s.log 0 s :=
  ⟨nofun, rfl, rfl, h, rfl⟩

theorem cycle_of_fault (h : s.machine.cycle.fault? = some f) :
    s.cycle =
      ({ s with
          machine := s.machine.cycle.machine
          log := (Ending.failed (.execution f)).lastWords s.machine.cycle.machine.core ++
            (s.machine.cycle.log.reverse ++ s.log) },
        some (.failed (.execution f))) := by
  simp only [cycle, h]
  rfl

theorem cycle_of_ok (h : s.machine.cycle.fault? = none) :
    s.cycle =
      ({ s with
          machine := s.machine.cycle.machine
          executed := s.executed + 1
          redraw := s.redraw || s.machine.cycle.machine.core.drawing
          log := s.machine.cycle.log.reverse ++ s.log },
        none) := by
  simp only [cycle, h]

/-- On course the limit is used up exactly when it is the number of cycles so far. -/
theorem OnCourse.due_eq (h : OnCourse o m earlier k s) :
    s.due o =
      if (m.run k).machine.core.pc = o.exitAddress then some .finished
      else if o.maxCycles = some k then some .cycleLimit
      else none := by
  have hlimit : o.maxCycles.any (· ≤ s.executed) = true ↔ o.maxCycles = some k := by
    rw [h.executed]
    cases hl : o.maxCycles with
    | none => simp
    | some l =>
      have hge : ¬ l < k := fun hlt => Machine.stop?_of_limit hl (h.unstopped l hlt)
      simp
      omega
  rw [due, h.machine]
  simp only [hlimit]

theorem OnCourse.of_due (h : OnCourse o m earlier k s) (hd : s.due o = some e) :
    Ended o m earlier k e s := by
  rw [h.due_eq] at hd
  by_cases hexit : (m.run k).machine.core.pc = o.exitAddress
  · rw [if_pos hexit] at hd
    cases hd
    exact ⟨⟨if_pos hexit, h.unstopped⟩, h.executed, h.machine, h.log⟩
  · rw [if_neg hexit] at hd
    by_cases hlimit : o.maxCycles = some k
    · rw [if_pos hlimit] at hd
      cases hd
      refine ⟨⟨?_, h.unstopped⟩, h.executed, h.machine, h.log⟩
      rw [Machine.stop?, if_neg hexit, if_pos hlimit]
    · rw [if_neg hlimit] at hd
      cases hd

theorem OnCourse.stop?_eq (h : OnCourse o m earlier k s) (hd : s.due o = none) :
    m.stop? o k = s.machine.cycle.fault?.map fun f => .failed (.execution f) := by
  rw [h.due_eq] at hd
  rw [Machine.stop?, h.machine]
  split at hd
  · cases hd
  · next hexit =>
    split at hd
    · cases hd
    · next hlimit => rw [if_neg hexit, if_neg hlimit]

/-- When nothing is due the next cycle goes on with the flat run. -/
theorem OnCourse.cycle (h : OnCourse o m earlier k s) (hd : s.due o = none) :
    Progress o m earlier (k + 1) s.cycle := by
  have hstop := h.stop?_eq hd
  have hrun := Machine.run_succ h.ok
  rw [← h.machine] at hrun
  cases hf : s.machine.cycle.fault? with
  | some f =>
    rw [hf] at hstop
    rw [cycle_of_fault hf]
    refine ⟨k, ⟨hstop, h.unstopped⟩, h.executed, ?_, ?_⟩
    · rw [Machine.played, hrun]
    · simp [Machine.played, hrun, h.log]
  | none =>
    rw [hf] at hstop
    rw [cycle_of_ok hf]
    refine ⟨?_, ?_, ?_, congrArg (· + 1) h.executed, ?_⟩
    · intro j hj
      rcases Nat.lt_succ_iff_lt_or_eq.mp hj with hlt | rfl
      · exact h.unstopped j hlt
      · exact hstop
    · rw [hrun]
      exact hf
    · rw [hrun]
    · simp [hrun, h.log]

theorem progress_cycles (h : OnCourse o m earlier k s) (n : Nat) :
    Progress o m earlier (k + n) (cycles o n s) := by
  induction n generalizing k s with
  | zero => exact h
  | succ n ih =>
    rw [cycles]
    cases hd : s.due o with
    | some e => exact ⟨k, h.of_due hd⟩
    | none =>
      have hc := h.cycle hd
      rcases hs : s.cycle with ⟨t, _ | e⟩
      · rw [hs] at hc
        have ht := ih hc
        rwa [Nat.add_right_comm, Nat.add_assoc] at ht
      · rw [hs] at hc
        exact hc

/-- Where a frame begins does not matter to the course. -/
theorem OnCourse.begun (h : OnCourse o m earlier k s) : OnCourse o m earlier k { s with redraw := false } :=
  ⟨h.unstopped, h.ok, h.machine, h.executed, h.log⟩

/-- Neither does whether it is shown. -/
theorem progress_frame (h : OnCourse o m earlier k s) :
    Progress o m earlier (k + o.cyclesPerFrame) (s.frame o) := by
  have hp := progress_cycles h.begun o.cyclesPerFrame
  rw [frame]
  rcases hs : cycles o o.cyclesPerFrame { s with redraw := false } with ⟨t, _ | e⟩
  · rw [hs] at hp
    dsimp only
    split
    · exact ⟨hp.unstopped, hp.ok, hp.machine, hp.executed, hp.log⟩
    · exact hp
  · rw [hs] at hp
    exact hp

theorem progress_play (h : OnCourse o m earlier k s) (n : Nat) :
    Progress o m earlier (k + n * o.cyclesPerFrame) (s.play o n) := by
  induction n generalizing k s with
  | zero =>
    rw [Nat.zero_mul]
    exact h
  | succ n ih =>
    have hp := progress_frame h
    rw [play]
    rcases hs : s.frame o with ⟨t, _ | e⟩
    · rw [hs] at hp
      have ht := ih hp
      rwa [Nat.add_assoc, Nat.add_comm o.cyclesPerFrame, ← Nat.succ_mul] at ht
    · rw [hs] at hp
      exact hp

/-- With at least one cycle to a frame every reason to end is met in time. -/
theorem play_ends (h : s.executed = 0) (hc : 0 < o.cyclesPerFrame) (hk : s.machine.StopsAt o k e)
    (hn : k < n) : ∃ t, s.play o n = (t, some e) ∧ Ended o s.machine s.log k e t := by
  have hp := progress_play (onCourse_zero (o := o) h) n
  rcases hs : s.play o n with ⟨t, _ | e'⟩
  · rw [hs] at hp
    have hlt : k < 0 + n * o.cyclesPerFrame := by
      have hmul := Nat.le_mul_of_pos_right n hc
      omega
    cases (hp.unstopped k hlt).symm.trans hk.stop
  · rw [hs] at hp
    obtain ⟨j, ht⟩ := hp
    obtain ⟨rfl, rfl⟩ := ht.stops.unique hk
    exact ⟨t, rfl, ht⟩

theorem ended_of_play {t : Session} (h : s.executed = 0) (hs : s.play o n = (t, some e)) :
    ∃ k, Ended o s.machine s.log k e t := by
  have hp := progress_play (onCourse_zero (o := o) h) n
  rw [hs] at hp
  exact hp

private theorem executed_of_start {contents : Except String (List UInt8)} {tape : RandomTape} {e? : Option Ending}
    (h : start o contents tape = (s, e?)) : s.executed = 0 := by
  have hzero : (start o contents tape).1.executed = 0 := by
    unfold start
    dsimp only
    split <;> rfl
  rwa [h] at hzero

/-- What is left of a session that has ended. -/
structure Verdict where
  code : Nat
  report? : Option String
  log : List Event
  machine : Machine

def verdict (s : Session) (e : Ending) : Verdict := ⟨e.code, e.report?, s.log.reverse, s.machine⟩

/-- A session with these options, from its start on, comes to this verdict. -/
def ComesTo (o : Options) (contents : Except String (List UInt8)) (tape : RandomTape) (v : Verdict) : Prop :=
  ∃ s e, v = s.verdict e ∧ (start o contents tape = (s, some e) ∨
    ∃ begun n, start o contents tape = (begun, none) ∧ begun.play o n = (s, some e))

variable {contents : Except String (List UInt8)} {tape : RandomTape} {v v' : Verdict} {c f : Nat}
  {headless : Bool}

private theorem start_repaced (hf : 0 < o.fps) (hf' : 0 < f) :
    start (o.repaced c f headless) contents tape = start o contents tape := by
  have hn : ¬ o.fps = 0 := Nat.ne_of_gt hf
  have hn' : ¬ (o.repaced c f headless).fps = 0 := Nat.ne_of_gt hf'
  unfold start
  rw [if_neg hn, if_neg hn']
  rfl

theorem Ended.verdict_eq {t t' : Session} (h : Ended o m earlier k e t) (h' : Ended o' m earlier k e t') :
    t.verdict e = t'.verdict e := by
  have hm : t.machine = t'.machine := h.machine.trans h'.machine.symm
  have hl : t.log = t'.log := by rw [h.log, h'.log, hm]
  rw [verdict, verdict, hm, hl]

/-- However many frames are played, the verdict is one. -/
theorem ComesTo.unique (h : ComesTo o contents tape v) (h' : ComesTo o contents tape v') : v = v' := by
  obtain ⟨s, e, rfl, hs⟩ := h
  obtain ⟨s', e', rfl, hs'⟩ := h'
  rcases hs with hs | ⟨begun, n, hs, hp⟩
  · rcases hs' with hs' | ⟨begun', n', hs', -⟩
    · cases hs.symm.trans hs'
      rfl
    · cases hs.symm.trans hs'
  · rcases hs' with hs' | ⟨begun', n', hs', hp'⟩
    · cases hs.symm.trans hs'
    · cases hs.symm.trans hs'
      have hzero : begun.executed = 0 := executed_of_start hs
      obtain ⟨k, hk⟩ := ended_of_play hzero hp
      obtain ⟨j, hj⟩ := ended_of_play hzero hp'
      obtain ⟨rfl, rfl⟩ := hk.stops.unique hj.stops
      exact hk.verdict_eq hj

theorem comesTo_repaced (hf : 0 < o.fps) (hf' : 0 < f) (hc' : 0 < c) (h : ComesTo o contents tape v) :
    ComesTo (o.repaced c f headless) contents tape v := by
  obtain ⟨s, e, hv, hs⟩ := h
  have hstart : start (o.repaced c f headless) contents tape = start o contents tape := start_repaced hf hf'
  rcases hs with hs | ⟨begun, n, hs, hp⟩
  · exact ⟨s, e, hv, .inl (hstart.trans hs)⟩
  · have hzero : begun.executed = 0 := executed_of_start hs
    obtain ⟨k, hk⟩ := ended_of_play hzero hp
    have hstops : begun.machine.StopsAt (o.repaced c f headless) k e :=
      ⟨(Machine.stop?_congr rfl rfl).trans hk.stops.stop, fun j hj =>
        (Machine.stop?_congr rfl rfl).trans (hk.stops.first j hj)⟩
    obtain ⟨t, ht, hended⟩ := play_ends hzero hc' hstops (Nat.lt_succ_self k)
    exact ⟨t, e, hv.trans (hk.verdict_eq hended), .inr ⟨begun, k + 1, hstart.trans hs, ht⟩⟩

/-- A session that has not executed a cycle goes on for exactly as many good cycles as come before the
first reason to end, and ends for that reason; a failing cycle is logged as the halt of the core that it
left, once. Without a reason it never ends. So exit code, error message, log and machine are the same for
all paces, shown or not. -/
theorem play_ends_at_first_stop (h : s.executed = 0) (hc : 0 < o.cyclesPerFrame) (hf : 0 < o.fps) :
    (∀ k e, s.machine.StopsAt o k e → (s.machine.run k).fault? = none ∧
      (∀ event ∈ (s.machine.played k e).log, event.isHalt = false) ∧
      ∀ n, k < n → ∃ t, s.play o n = (t, some e) ∧ t.executed = k ∧
        t.machine = (s.machine.played k e).machine ∧
        t.log = e.lastWords t.machine.core ++ (s.machine.played k e).log.reverse ++ s.log) ∧
    ((∀ k e, ¬ s.machine.StopsAt o k e) → ∀ n, (s.play o n).2 = none) ∧
    ∀ c f headless contents tape v, 0 < c → 0 < f →
      (ComesTo o contents tape v ↔ ComesTo (o.repaced c f headless) contents tape v) := by
  refine ⟨?_, ?_, ?_⟩
  · intro k e hk
    refine ⟨Machine.run_ok_of_unstopped hk.first, Machine.played_logs_no_halt k e, fun n hn => ?_⟩
    obtain ⟨t, ht, hended⟩ := play_ends h hc hk hn
    exact ⟨t, ht, hended.executed, hended.machine, hended.log⟩
  · intro hnever n
    rcases hs : s.play o n with ⟨t, _ | e⟩
    · rfl
    · obtain ⟨k, hended⟩ := ended_of_play h hs
      exact absurd hended.stops (hnever k e)
  · intro c f headless contents tape v hc' hf'
    exact ⟨comesTo_repaced hf hf' hc', comesTo_repaced (o := o.repaced c f headless) hf' hf hc⟩

def callerless : Session where
  machine := (Command.loadProgram [0x6005, 0x00EE]).run (.new {} ⟨fun _ => 0, 0⟩)

theorem play_ends_at_first_stop_callerless :
    callerless.machine.StopsAt { rom := "rom", cyclesPerFrame := 1 } 1 (.failed (.execution .noCaller)) ∧
      ∃ t, callerless.play { rom := "rom", cyclesPerFrame := 1 } 2 =
          (t, some (.failed (.execution .noCaller))) ∧
        t.executed = 1 ∧ t.machine = (callerless.machine.run 2).machine := by
  have hstops : callerless.machine.StopsAt { rom := "rom", cyclesPerFrame := 1 } 1
      (.failed (.execution .noCaller)) := ⟨by decide +kernel, by decide +kernel⟩
  have hends := (play_ends_at_first_stop (s := callerless) rfl (by decide) (by decide)).1 _ _ hstops
  obtain ⟨t, ht, hexecuted, hmachine, _⟩ := hends.2.2 2 (by decide)
  exact ⟨hstops, t, ht, hexecuted, hmachine⟩

end Session
end Chip8
