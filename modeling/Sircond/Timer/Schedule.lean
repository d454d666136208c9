import Sircond.Timer.Impl
import Mathlib.Data.List.Forall2

/-!
This module contains when the callbacks of the timers are to be called, and under which condition the
timer manager keeps to it.
-/

open Machine

namespace CTimer

/--
A live timer as its owner sees it: `passes` is the number of passes since it was created, restarted or
called, whichever was last.
-/
structure Scheduled where
  handle : HTimer
  interval : UInt32
  inst : Nat
  callback : Nat
  passes : Nat
  deriving DecidableEq, Repr

namespace Scheduled

def period (t : Scheduled) : Nat := max 1 (t.interval.toNat / minSleepTime.toNat)

def due (t : Scheduled) : Bool := t.passes + 1 = t.period

def restart (h : HTimer) (t : Scheduled) : Scheduled :=
  if t.handle = h then { t with passes := 0 } else t

def pass (t : Scheduled) : Scheduled := { t with passes := if t.due then 0 else t.passes + 1 }

end Scheduled

abbrev Schedule := List Scheduled

namespace Schedule

def calls (ts : Schedule) : List Output :=
  (ts.filter Scheduled.due).map fun t => .call t.callback t.inst

def next (ts : Schedule) : Input → List Output → Schedule
  | .create interval inst callback, [.created handle] =>
    ts ++ [{ handle, interval, inst, callback, passes := 0 }]
  | .restart h, _ => ts.map (Scheduled.restart h)
  | .destroy h, _ => ts.filter fun t => t.handle ≠ h
  | .pass, _ => ts.map Scheduled.pass
  | _, _ => ts

end Schedule

def scheduling : Machine (CTimer × Schedule) Input Output where
  step s a := (machine.step s.1 a).map fun r => ((r.1, s.2.next a r.2), r.2)

/--
A record counts what is left of the period of its timer, which is at least one pass.
-/
structure OnTime (r : TimerRec) (t : Scheduled) : Prop where
  handle : r.handle = t.handle
  interval : r.interval = t.interval
  inst : r.inst = t.inst
  callback : r.callback = t.callback
  count : r.count.toNat + t.passes = t.period
  pos : 1 ≤ r.count.toNat

def Output.isCall : Output → Bool
  | .created _ => false
  | .call _ _ => true

abbrev SEntry := Entry (CTimer × Schedule) Input Output

structure Kept (e : SEntry) : Prop where
  calls : e.out.filter Output.isCall = if e.input = .pass then e.pre.2.calls else []
  onTime : List.Forall₂ OnTime e.post.1.timers e.post.2

/--
The timers have an interval of at least one pass, and none is meant by a handle that a timer before it
has: if one is to be destroyed, or to be restarted after a pass.
-/
def Allowed (e : SEntry) : Prop :=
  match e.input with
  | .create interval _ _ => minSleepTime ≤ interval
  | .restart h => ∀ t ∈ (e.pre.2.filter fun t => t.handle = h).tail, t.passes = 0
  | .destroy h => (e.pre.2.filter fun t => t.handle = h).length ≤ 1
  | .pass => True

instance (e : SEntry) : Decidable (Allowed e) :=
  match e with
  | ⟨_, .create interval _ _, _, _⟩ => inferInstanceAs (Decidable (minSleepTime ≤ interval))
  | ⟨s, .restart h, _, _⟩ =>
    inferInstanceAs (Decidable (∀ t ∈ (s.2.filter fun t => t.handle = h).tail, t.passes = 0))
  | ⟨s, .destroy h, _, _⟩ =>
    inferInstanceAs (Decidable ((s.2.filter fun t => t.handle = h).length ≤ 1))
  | ⟨_, .pass, _, _⟩ => inferInstanceAs (Decidable True)

def Undisturbed (e : SEntry) : Prop :=
  match e.input with
  | .create _ _ _ => e.pre.1.timers <+: e.post.1.timers
  | .restart h | .destroy h =>
    e.post.1.timers.filter (fun r => r.handle ≠ h) = e.pre.1.timers.filter fun r => r.handle ≠ h
  | .pass => True

namespace Scheduled

theorem toNat_interval_div {t : Scheduled} (h : minSleepTime ≤ t.interval)
    : (t.interval / minSleepTime).toNat = t.period := by
  have hsleep : minSleepTime.toNat = 100 := rfl
  rw [UInt32.le_iff_toNat_le] at h
  unfold period
  rw [UInt32.toNat_div, hsleep]
  omega

theorem one_le_period (t : Scheduled) : 1 ≤ t.period := Nat.le_max_left ..

theorem interval_restart (h : HTimer) (t : Scheduled) : (t.restart h).interval = t.interval := by
  unfold restart
  split <;> rfl

end Scheduled

theorem OnTime.arm {r : TimerRec} {t : Scheduled} (h : OnTime r t)
    (hinterval : minSleepTime ≤ t.interval)
    : OnTime { r with count := r.interval / minSleepTime } { t with passes := 0 } where
  handle := h.handle
  interval := h.interval
  inst := h.inst
  callback := h.callback
  count := by
    rw [h.interval]
    exact t.toNat_interval_div hinterval
  pos := by
    rw [h.interval, t.toNat_interval_div hinterval]
    apply t.one_le_period

/--
Either the timer is due, and its record counts down to zero, or the record counts what is left.
-/
theorem OnTime.pass {r : TimerRec} {t : Scheduled} (h : OnTime r t)
    : (t.due = true ∧ r.count - 1 = 0)
        ∨ (t.due = false ∧ r.count - 1 ≠ 0
          ∧ OnTime { r with count := r.count - 1 } { t with passes := t.passes + 1 }) := by
  have hcount := h.count
  have hpos := h.pos
  have hone : (1 : UInt32).toNat = 1 := rfl
  have hsub : (r.count - 1).toNat = r.count.toNat - 1 := by
    rw [UInt32.toNat_sub_of_le]
    . rfl
    . rw [UInt32.le_iff_toNat_le]
      exact hpos
  have hzero : r.count - 1 = 0 ↔ t.due = true := by
    rw [← UInt32.toNat_inj, hsub, Scheduled.due, decide_eq_true_iff]
    change r.count.toNat - 1 = 0 ↔ _
    omega
  cases hdue : t.due with
  | true =>
    left
    exact ⟨rfl, hzero.mpr hdue⟩
  | false =>
    right
    have hne : r.count - 1 ≠ 0 := by
      rw [ne_eq, hzero, hdue]
      simp
    have hlt : r.count.toNat - 1 ≠ 0 := by
      rw [← hsub]
      intro h
      exact hne (UInt32.toNat_inj.mp h)
    refine ⟨rfl, hne, h.handle, h.interval, h.inst, h.callback, ?_, ?_⟩
    . rw [hsub]
      change r.count.toNat - 1 + (t.passes + 1) = t.period
      omega
    . rw [hsub]
      omega

theorem OnTime.restart_iff {r : TimerRec} {t : Scheduled} (h : OnTime r t) (handle : HTimer)
    : OnTime r (t.restart handle) ↔ (t.handle = handle → t.passes = 0) := by
  unfold Scheduled.restart
  split
  . next hhandle =>
    constructor
    . intro h' _
      have hcount := h.count
      have hcount' : r.count.toNat + 0 = t.period := h'.count
      omega
    . intro hpasses
      rw [← hpasses hhandle]
      exact h
  . next hhandle => simp [h, hhandle]

section Steps

variable {rs : List TimerRec} {ts : Schedule}

theorem onTime_onRunGo (hontime : List.Forall₂ OnTime rs ts)
    (hinterval : ∀ t ∈ ts, minSleepTime ≤ t.interval)
    : List.Forall₂ OnTime (onRun.go minSleepTime rs).1 (ts.map Scheduled.pass)
        ∧ (onRun.go minSleepTime rs).2 = Schedule.calls ts := by
  induction hontime with
  | nil => exact ⟨.nil, rfl⟩
  | @cons r t rs ts h _ ih =>
    simp only [List.mem_cons, forall_eq_or_imp] at hinterval
    obtain ⟨hrest, hcalls⟩ := ih hinterval.2
    rw [List.map_cons]
    unfold onRun.go Schedule.calls
    dsimp only
    cases h.pass with
    | inl hdue =>
      have hcall : Output.call r.callback r.inst = .call t.callback t.inst := by
        rw [h.callback, h.inst]
      rw [if_pos hdue.2, List.filter_cons_of_pos hdue.1, List.map_cons, hcalls, hcall]
      refine ⟨.cons ?_ hrest, rfl⟩
      unfold Scheduled.pass
      rw [hdue.1]
      exact h.arm hinterval.1
    | inr hdue =>
      rw [if_neg hdue.2.1, List.filter_cons_of_neg (by simp [hdue.1])]
      refine ⟨.cons ?_ hrest, hcalls⟩
      unfold Scheduled.pass
      rw [hdue.1]
      exact hdue.2.2

theorem onTime_map_restart_iff (h : HTimer) (hontime : List.Forall₂ OnTime rs ts)
    : List.Forall₂ OnTime rs (ts.map (Scheduled.restart h))
        ↔
      ∀ t ∈ ts.filter fun t => t.handle = h, t.passes = 0 := by
  induction hontime with
  | nil => simp
  | @cons r t rs ts hr _ ih =>
    rw [List.map_cons, List.forall₂_cons, hr.restart_iff, ih]
    simp [List.mem_filter]

theorem onTime_restartGo_iff (h : HTimer) (hontime : List.Forall₂ OnTime rs ts)
    (hinterval : ∀ t ∈ ts, minSleepTime ≤ t.interval)
    : List.Forall₂ OnTime (restart.go minSleepTime h rs) (ts.map (Scheduled.restart h))
        ↔
      ∀ t ∈ (ts.filter fun t => t.handle = h).tail, t.passes = 0 := by
  induction hontime with
  | nil => simp [restart.go]
  | @cons r t rs ts hr hrest ih =>
    simp only [List.mem_cons, forall_eq_or_imp] at hinterval
    unfold restart.go
    rw [List.map_cons]
    by_cases hhandle : t.handle = h
    . rw [if_pos (by rw [hr.handle, hhandle]), List.forall₂_cons,
        List.filter_cons_of_pos (by simpa using hhandle), List.tail_cons,
        onTime_map_restart_iff h hrest]
      have harm : OnTime { r with count := r.interval / minSleepTime } (t.restart h) := by
        rw [Scheduled.restart, if_pos hhandle]
        exact hr.arm hinterval.1
      simp only [harm, true_and]
    . have hkeep : t.restart h = t := if_neg hhandle
      rw [if_neg (by rw [hr.handle]; exact Ne.symm hhandle), List.forall₂_cons,
        List.filter_cons_of_neg (by simpa using hhandle), ih hinterval.2, hkeep]
      simp only [hr, true_and]

theorem onTime_destroyGo_iff (h : HTimer) (hontime : List.Forall₂ OnTime rs ts)
    : List.Forall₂ OnTime (destroy.go h rs) (ts.filter fun t => t.handle ≠ h)
        ↔
      (ts.filter fun t => t.handle = h).length ≤ 1 := by
  induction hontime with
  | nil => simp [destroy.go]
  | @cons r t rs ts hr hrest ih =>
    unfold destroy.go
    by_cases hhandle : t.handle = h
    . rw [if_pos (by rw [hr.handle, hhandle]), List.filter_cons_of_neg (by simpa using hhandle),
        List.filter_cons_of_pos (by simpa using hhandle), List.length_cons]
      constructor
      . intro hrest'
        have hlen := hrest.length_eq
        have hlen' := hrest'.length_eq
        have hsplit := List.length_eq_length_filter_add (l := ts) fun t => decide (t.handle = h)
        simp only [← decide_not] at hsplit
        simp only [ne_eq] at hlen'
        omega
      . intro hle
        have hnone : ts.filter (fun t => t.handle = h) = [] := by
          apply List.eq_nil_of_length_eq_zero
          omega
        rw [List.filter_eq_nil_iff] at hnone
        rw [List.filter_eq_self.mpr (by simpa using hnone)]
        exact hrest
    . rw [if_neg (by rw [hr.handle]; exact Ne.symm hhandle),
        List.filter_cons_of_pos (by simpa using hhandle),
        List.filter_cons_of_neg (by simpa using hhandle), List.forall₂_cons, ih]
      simp only [hr, true_and]

theorem onTime_append_iff (hontime : List.Forall₂ OnTime rs ts) (r : TimerRec) (t : Scheduled)
    : List.Forall₂ OnTime (rs ++ [r]) (ts ++ [t]) ↔ OnTime r t := by
  constructor
  . intro h
    have hlast := List.forall₂_drop_append _ _ _ h
    rw [← hontime.length_eq, List.drop_left] at hlast
    simpa using hlast
  . intro h
    exact List.rel_append hontime (.cons h .nil)

end Steps

theorem onTime_create_iff (handle : HTimer) (interval : UInt32) (inst callback : Nat)
    : OnTime ⟨handle, interval / minSleepTime, interval, inst, callback⟩
          ⟨handle, interval, inst, callback, 0⟩
        ↔
      minSleepTime ≤ interval := by
  constructor
  . intro h
    have hsleep : minSleepTime.toNat = 100 := rfl
    have hpos := h.pos
    dsimp only at hpos
    rw [UInt32.toNat_div, hsleep] at hpos
    rw [UInt32.le_iff_toNat_le, hsleep]
    omega
  . intro h
    have hcount := Scheduled.toNat_interval_div (t := ⟨handle, interval, inst, callback, 0⟩) h
    refine ⟨rfl, rfl, rfl, rfl, hcount, ?_⟩
    dsimp only
    rw [hcount]
    apply Scheduled.one_le_period

structure Inv (s : CTimer × Schedule) : Prop where
  sleepTime : s.1.sleepTime = minSleepTime
  onTime : List.Forall₂ OnTime s.1.timers s.2
  interval_le : ∀ t ∈ s.2, minSleepTime ≤ t.interval

theorem inv_new : Inv (new, []) where
  sleepTime := rfl
  onTime := .nil
  interval_le := by simp

section Step

variable {s s' : CTimer × Schedule} {a : Input} {out : List Output}

theorem scheduling_step (hstep : scheduling.step s a = some (s', out))
    : machine.step s.1 a = some (s'.1, out) ∧ s'.2 = s.2.next a out := by
  simp only [scheduling, Option.map_eq_some_iff, Prod.mk.injEq] at hstep
  obtain ⟨r, hr, rfl, rfl⟩ := hstep
  exact ⟨hr, rfl⟩

theorem sleepTime_step (hstep : scheduling.step s a = some (s', out))
    : s'.1.sleepTime = s.1.sleepTime := by
  obtain ⟨hstep, -⟩ := scheduling_step hstep
  cases a with
  | create interval inst callback | restart h | destroy h | pass =>
    obtain ⟨hstate, -⟩ := Prod.mk.inj (Option.some.inj hstep)
    exact (congrArg sleepTime hstate).symm

theorem onTime_step_iff (hinv : Inv s) (hstep : scheduling.step s a = some (s', out))
    : List.Forall₂ OnTime s'.1.timers s'.2 ↔ Allowed ⟨s, a, out, s'⟩ := by
  have hsleep := hinv.sleepTime
  obtain ⟨hstep, hnext⟩ := scheduling_step hstep
  rw [hnext]
  cases a with
  | create interval inst callback =>
    obtain ⟨hstate, rfl⟩ := Prod.mk.inj (Option.some.inj hstep)
    rw [← hstate]
    dsimp only [create, Schedule.next, Allowed]
    rw [hsleep, onTime_append_iff hinv.onTime, onTime_create_iff]
  | restart h =>
    obtain ⟨hstate, rfl⟩ := Prod.mk.inj (Option.some.inj hstep)
    rw [← hstate]
    dsimp only [restart, Schedule.next, Allowed]
    rw [hsleep]
    exact onTime_restartGo_iff h hinv.onTime hinv.interval_le
  | destroy h =>
    obtain ⟨hstate, rfl⟩ := Prod.mk.inj (Option.some.inj hstep)
    rw [← hstate]
    exact onTime_destroyGo_iff h hinv.onTime
  | pass =>
    obtain ⟨hstate, rfl⟩ := Prod.mk.inj (Option.some.inj hstep)
    rw [← hstate]
    dsimp only [Schedule.next, Allowed]
    rw [hsleep, iff_true]
    exact (onTime_onRunGo hinv.onTime hinv.interval_le).1

theorem interval_le_step (hinv : Inv s) (hstep : scheduling.step s a = some (s', out))
    (hallowed : Allowed ⟨s, a, out, s'⟩)
    : ∀ t ∈ s'.2, minSleepTime ≤ t.interval := by
  obtain ⟨hstep, hnext⟩ := scheduling_step hstep
  rw [hnext]
  intro t ht
  cases a with
  | create interval inst callback =>
    obtain ⟨-, rfl⟩ := Prod.mk.inj (Option.some.inj hstep)
    dsimp only [Schedule.next] at ht
    rw [List.mem_append, List.mem_singleton] at ht
    cases ht with
    | inl ht => exact hinv.interval_le t ht
    | inr ht =>
      rw [ht]
      exact hallowed
  | restart h =>
    obtain ⟨t, hmem, rfl⟩ := List.mem_map.mp ht
    rw [Scheduled.interval_restart]
    exact hinv.interval_le t hmem
  | destroy h => exact hinv.interval_le t (List.mem_of_mem_filter ht)
  | pass =>
    obtain ⟨t, hmem, rfl⟩ := List.mem_map.mp ht
    exact hinv.interval_le t hmem

theorem calls_step (hinv : Inv s) (hstep : scheduling.step s a = some (s', out))
    : out.filter Output.isCall = if a = .pass then s.2.calls else [] := by
  obtain ⟨hstep, -⟩ := scheduling_step hstep
  cases a with
  | create interval inst callback | restart h | destroy h =>
    obtain ⟨-, rfl⟩ := Prod.mk.inj (Option.some.inj hstep)
    rfl
  | pass =>
    obtain ⟨-, rfl⟩ := Prod.mk.inj (Option.some.inj hstep)
    have hcalls := (onTime_onRunGo hinv.onTime hinv.interval_le).2
    rw [← hinv.sleepTime] at hcalls
    rw [if_pos rfl, hcalls, List.filter_eq_self]
    intro o ho
    simp only [Schedule.calls, List.mem_map] at ho
    obtain ⟨t, -, rfl⟩ := ho
    rfl

/--
A step keeps to the schedule if and only if it is allowed, and then further steps can.
-/
theorem kept_iff_allowed (hinv : Inv s) (hstep : scheduling.step s a = some (s', out))
    : (Kept ⟨s, a, out, s'⟩ ↔ Allowed ⟨s, a, out, s'⟩) ∧ (Allowed ⟨s, a, out, s'⟩ → Inv s') := by
  have hiff := onTime_step_iff hinv hstep
  constructor
  . constructor
    . intro h
      exact hiff.mp h.onTime
    . intro h
      exact ⟨calls_step hinv hstep, hiff.mpr h⟩
  . intro h
    refine ⟨?_, hiff.mpr h, interval_le_step hinv hstep h⟩
    rw [sleepTime_step hstep, hinv.sleepTime]

theorem filter_restartGo (sleepTime : UInt32) (h : HTimer) (rs : List TimerRec)
    : (restart.go sleepTime h rs).filter (fun r => r.handle ≠ h)
        = rs.filter fun r => r.handle ≠ h := by
  induction rs with
  | nil => rfl
  | cons r rs ih =>
    unfold restart.go
    split
    . next hhandle => simp [hhandle]
    . rw [List.filter_cons, List.filter_cons, ih]

theorem filter_destroyGo (h : HTimer) (rs : List TimerRec)
    : (destroy.go h rs).filter (fun r => r.handle ≠ h) = rs.filter fun r => r.handle ≠ h := by
  induction rs with
  | nil => rfl
  | cons r rs ih =>
    unfold destroy.go
    split
    . next hhandle => simp [hhandle]
    . rw [List.filter_cons, List.filter_cons, ih]

theorem undisturbed_step (hstep : scheduling.step s a = some (s', out))
    : Undisturbed ⟨s, a, out, s'⟩ := by
  obtain ⟨hstep, -⟩ := scheduling_step hstep
  unfold Undisturbed
  cases a with
  | create interval inst callback =>
    obtain ⟨hstate, -⟩ := Prod.mk.inj (Option.some.inj hstep)
    dsimp only
    rw [← hstate]
    exact ⟨_, rfl⟩
  | restart h =>
    obtain ⟨hstate, -⟩ := Prod.mk.inj (Option.some.inj hstep)
    dsimp only
    rw [← hstate]
    apply filter_restartGo
  | destroy h =>
    obtain ⟨hstate, -⟩ := Prod.mk.inj (Option.some.inj hstep)
    dsimp only
    rw [← hstate]
    apply filter_destroyGo
  | pass => trivial

end Step

/--
No operation on a handle touches a timer with another handle. The timers are called exactly when they
are due if and only if every timer has an interval of at least one pass, and no handle that several
timers have is destroyed, or restarted after a pass.
-/
theorem schedule_iff {tr : List SEntry} {s : CTimer × Schedule}
    (hrun : scheduling.Run (new, []) tr s)
    : (∀ e ∈ tr, Undisturbed e) ∧ ((∀ e ∈ tr, Kept e) ↔ ∀ e ∈ tr, Allowed e) := by
  constructor
  . intro e he
    obtain ⟨-, -, hstep⟩ := hrun.of_mem he
    exact undisturbed_step hstep
  . exact hrun.forall_iff inv_new fun _ _ _ _ => kept_iff_allowed

theorem schedule_iff_twoTimers
    : ∃ tr s,
        scheduling.Run (new, []) tr s
          ∧ inputs tr = [.create 250 7 1, .create 100 8 1, .pass, .restart 0, .pass, .pass, .destroy 0,
              .pass]
          ∧ outputs tr = [.created 0, .created 1, .call 1 8, .call 1 8, .call 1 7, .call 1 8, .call 1 8]
          ∧ ∀ e ∈ tr, Kept e := by
  obtain ⟨tr, s, hrun, hin, hcheck⟩ := exists_run (show (scheduling.exec (new, [])
    [.create 250 7 1, .create 100 8 1, .pass, .restart 0, .pass, .pass, .destroy 0, .pass]).any
    (fun r => outputs r.1
        = [.created 0, .created 1, .call 1 8, .call 1 8, .call 1 7, .call 1 8, .call 1 8]
      ∧ ∀ e ∈ r.1, Allowed e) = true by decide +kernel)
  exact ⟨tr, s, hrun, hin, hcheck.1, (schedule_iff hrun).2.mpr hcheck.2⟩

theorem timer_wrapped
    : ∃ tr s,
        scheduling.Run (new, []) tr s ∧ inputs tr = [.create 50 7 1, .pass]
          ∧ outputs tr = [.created 0] ∧ s.1.timers.map TimerRec.count = [4294967295]
          ∧ ¬ ∀ e ∈ tr, Kept e := by
  obtain ⟨tr, s, hrun, hin, hcheck⟩ := exists_run (show (scheduling.exec (new, [])
    [.create 50 7 1, .pass]).any
    (fun r => outputs r.1 = [.created 0] ∧ r.2.1.timers.map TimerRec.count = [4294967295]
      ∧ ∃ e ∈ r.1, e.out.filter Output.isCall ≠ if e.input = .pass then e.pre.2.calls else [])
    = true by decide +kernel)
  obtain ⟨hout, hcount, e, he, hne⟩ := hcheck
  refine ⟨tr, s, hrun, hin, hout, hcount, ?_⟩
  intro hkept
  exact hne (hkept e he).calls

end CTimer
