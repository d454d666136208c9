import Sircond.Launch.Draining

/-!
This module contains how a process comes to wait for a request that is left unanswered: the timer is
told to stop too early for a request under way, or a request is made after that.
-/

open Machine Scp CSirCon

namespace CDaemon

def Careful (d : CDaemon) : Input → Prop
  | .thread (.request _) => d.timerShutdown = false
  | .radioExit =>
    (∃ started, d.radio = .onExit started .stopping) → Responsive { d with timerShutdown := true }
  | .thread .lock | .thread .resume | .thread .unlock | .thread (.receive _ _) | .thread .notify
  | .thread .acquire | .thread .release | .thread .finish | .thread .keepalive | .thread .timerProc
  | .init | .signal | .join | .delete | .poll | .getPower | .check | .serverExit | .onStart _
  | .leave _ | .tick | .get => True

section Step

variable {d d' : CDaemon} {a : Input} {acts : List Action}

theorem responsive_iff
    : Responsive d ↔ ∀ id, d.threads.server = .waiting id → d.timerShutdown = true →
        id ∈ d.threads.done.map Prod.fst
          ∨ d.timer = .pass ∧ id ∈ (resolved d.threads.sircon.timerProc.2).map Prod.fst := by
  unfold Responsive
  cases d.threads.server with
  | select | processing => simp
  | waiting id => simp

theorem responsive_of_timer (htimer : d.timerShutdown = false) : Responsive d := by
  rw [responsive_iff]
  simp [htimer]

theorem Responsive.answered (h : Responsive d) (hpass : d.timer ≠ .pass) {id : Nat}
    (hwaiting : d.threads.server = .waiting id) (htimer : d.timerShutdown = true)
    : id ∈ d.threads.done.map Prod.fst := by
  apply (responsive_iff.mp h id hwaiting htimer).resolve_right
  intro hcase
  exact hpass hcase.1

theorem not_resolved_send {threads : Daemon} (h : Daemon.Distinct threads) (data : Payload)
    : threads.sircon.allocs
        ∉ (resolved (threads.sircon.send data).1.timerProc.2).map Prod.fst := by
  intro hmem
  have hqueue : (threads.sircon.send data).1.link.queue
      = threads.sircon.link.queue ++ [(threads.sircon.composeFrame data).1] := rfl
  have heffect := queueEffect_timerProc (threads.sircon.send data).1
  generalize (threads.sircon.send data).1.timerProc.1.link.queue = queue',
    transmitted (threads.sircon.send data).1.timerProc.2 = tx,
    resolved (threads.sircon.send data).1.timerProc.2 = res at heffect hmem
  cases heffect with
  | keep | transmit => simp at hmem
  | timeout front rest hfront _ hretries =>
    have hid : threads.sircon.allocs = front.id := by simpa using hmem
    rw [hqueue] at hfront
    cases hold : threads.sircon.link.queue with
    | nil =>
      rw [hold, List.nil_append, List.cons.injEq] at hfront
      rw [← hfront.1] at hretries
      simp [composeFrame, maxRetries] at hretries
    | cons bufptr queue =>
      rw [hold, List.cons_append, List.cons.injEq] at hfront
      have hqueued : front.id ∈ queued threads.sircon := by
        rw [queued, hold, ← hfront.1]
        exact List.mem_cons_self
      have hlt := h.lt front.id (List.mem_append_right _ hqueued)
      omega

theorem Sane.timer_of_onRun (h : Sane d) (hrun : d.radio = .onRun) : d.timerShutdown = false := by
  rw [h.timerShutdown, hrun]
  rfl

theorem responsive_thread_iff (h : Sane d) (hresponsive : Responsive d) {a : Daemon.Input}
    {threads : Daemon} {acts : List Action} (hruns : d.Runs a)
    (hstep : Daemon.machine.step d.threads a = some (threads, acts))
    : Responsive (d.setThreads a threads) ↔ Careful d (.thread a) := by
  have hrunning : d.radio = .onRun → Responsive (d.setThreads a threads) := by
    intro hrun
    apply responsive_of_timer
    obtain ⟨-, -, -, -, htimer, -⟩ := d.setThreads_eq a threads
    rw [htimer]
    apply h.timer_of_onRun hrun
  cases a with
  | request data =>
    simp only [Daemon.machine, Option.ite_none_right_eq_some, Option.some.injEq, Prod.mk.injEq] at hstep
    obtain ⟨-, rfl, -⟩ := hstep
    constructor
    . intro hafter
      by_contra htimer
      rw [Careful, Bool.not_eq_false] at htimer
      rcases responsive_iff.mp hafter _ rfl htimer with hanswered | ⟨-, hresolved⟩
      . have hlt := h.distinct.lt _ (List.mem_append_left _ hanswered)
        exact absurd hlt (Nat.lt_irrefl _)
      . exact not_resolved_send h.distinct data hresolved
    . intro htimer
      apply responsive_of_timer
      exact htimer
  | lock | unlock =>
    simp only [Daemon.machine, Option.ite_none_right_eq_some, Option.some.injEq, Prod.mk.injEq] at hstep
    obtain ⟨-, rfl, -⟩ := hstep
    exact iff_of_true (responsive_iff.mpr (by simp [setThreads])) trivial
  | resume =>
    simp only [Daemon.machine] at hstep
    split at hstep
    . simp only [Option.ite_none_right_eq_some, Option.some.injEq, Prod.mk.injEq] at hstep
      obtain ⟨-, rfl, -⟩ := hstep
      exact iff_of_true (responsive_iff.mpr (by simp [setThreads])) trivial
    all_goals simp at hstep
  | receive | notify | acquire | release | finish | keepalive =>
    exact iff_of_true (hrunning hruns) trivial
  | timerProc =>
    obtain ⟨rfl, -⟩ := Prod.mk.inj (Option.some.inj hstep)
    refine iff_of_true (responsive_iff.mpr ?_) trivial
    intro id hwaiting htimer
    left
    rcases responsive_iff.mp hresponsive id hwaiting htimer with hanswered | ⟨-, hresolved⟩
    . change id ∈ (d.threads.done ++ resolved d.threads.sircon.timerProc.2).map Prod.fst
      rw [List.map_append]
      exact List.mem_append_left _ hanswered
    . exact answered_of_resolved hresolved

theorem responsive_radioExit_iff (h : Sane d) (hresponsive : Responsive d) {started : Bool}
    {point : ExitPoint} (hpoint : d.radio = .onExit started point)
    (hexit : d.radioExit started point = some d')
    : Responsive d' ↔ Careful d .radioExit := by
  have hcareful : point ≠ .stopping → Careful d .radioExit := by
    rintro hne ⟨started', hstopping⟩
    rw [hpoint, RadioThread.onExit.injEq] at hstopping
    exact absurd hstopping.2 hne
  have hallows := h.timer
  rw [hpoint] at hallows
  cases point with
  | notifying =>
    simp only [CDaemon.radioExit, Option.ite_none_right_eq_some, Option.some.injEq] at hexit
    obtain ⟨-, rfl⟩ := hexit
    exact iff_of_true hresponsive (hcareful (by simp))
  | broadcasting | flagging =>
    obtain rfl := Option.some.inj hexit
    exact iff_of_true hresponsive (hcareful (by simp))
  | stopping =>
    obtain rfl := Option.some.inj hexit
    constructor
    . exact fun hafter _ => hafter
    . exact fun hbefore => hbefore ⟨started, hpoint⟩
  | joining =>
    simp only [CDaemon.radioExit] at hexit
    split at hexit
    . obtain rfl := Option.some.inj hexit
      exact iff_of_true hresponsive (hcareful (by simp))
    . simp only [Option.ite_none_right_eq_some, Option.some.injEq] at hexit
      obtain ⟨hfinished, rfl⟩ := hexit
      refine iff_of_true (responsive_iff.mpr ?_) (hcareful (by simp))
      intro id hwaiting htimer
      left
      exact hresponsive.answered (by simp [hfinished]) hwaiting htimer
  | freeing =>
    obtain rfl := Option.some.inj hexit
    refine iff_of_true (responsive_iff.mpr ?_) (hcareful (by simp))
    intro id hwaiting htimer
    left
    refine hresponsive.answered ?_ hwaiting htimer
    cases started <;> simp only [RadioThread.Allows] at hallows <;> simp [hallows]

theorem responsive_step_iff (h : Sane d) (hresponsive : Responsive d) (heffect : StepEffect d a d')
    : Responsive d' ↔ Careful d a := by
  cases heffect with
  | thread a threads acts hruns hstep => exact responsive_thread_iff h hresponsive hruns hstep
  | running | stopped | killed | signal | join | delete | found | failed | check | serverExit | leave
  | get => exact iff_of_true hresponsive trivial
  | getPower hasking =>
    have hselect : d.threads.server = .select := h.select (by simp [hasking])
    exact iff_of_true (responsive_of_select hselect) trivial
  | onStart succeeded hstart =>
    have htimer : d.timerShutdown = false := by
      rw [h.timerShutdown, hstart]
      rfl
    refine iff_of_true (responsive_of_timer ?_) trivial
    cases succeeded <;> exact htimer
  | radioExit started point d' hpoint hexit => exact responsive_radioExit_iff h hresponsive hpoint hexit
  | tick htop =>
    refine iff_of_true (responsive_iff.mpr ?_) trivial
    intro id hwaiting htimer
    left
    exact hresponsive.answered (by simp [htop]) hwaiting htimer

end Step

/--
In a run the server never waits for a request that is left unanswered, if and only if it makes no request
once the timer of the radio interface has been told to stop, and the timer is not told to stop before the
request under way is answered or in its last tick.
-/
theorem responsive_iff_careful {block : List UInt8} {now : Nat}
    {tr : List (Entry CDaemon Input Action)} {d : CDaemon}
    (hrun : machine.Run (launch (new block now)) tr d)
    : (∀ e ∈ tr, Responsive e.post) ↔ ∀ e ∈ tr, Careful e.pre e.input := by
  apply hrun.forall_iff (I := fun d => d.killed = false → Sane d ∧ Responsive d)
  . intro _
    refine ⟨sane_launch block now, ?_⟩
    exact responsive_of_select rfl
  . intro d a d' acts hbefore hstep
    have hstep' := hstep
    simp only [machine, Option.ite_none_left_eq_some, not_or] at hstep'
    obtain ⟨hsane, hresponsive⟩ := hbefore (by simpa using hstep'.1.1)
    have hiff := responsive_step_iff hsane hresponsive (stepEffect hstep'.2)
    exact ⟨hiff, fun hcareful hkilled => ⟨hsane.step hstep hkilled, hiff.mpr hcareful⟩⟩

/--
A pass that has begun before the server is told to end makes a request when the timer has been told to
stop.
-/
theorem responsive_iff_careful_late
    : ∃ tr d, machine.Run (launch (new (List.replicate stageBufSize 0) 1)) tr d
        ∧ inputs tr = [.onStart true, .poll, .getPower, .init, .check, .leave true, .radioExit,
            .radioExit, .thread .lock, .radioExit, .radioExit, .thread (.request getGain)]
        ∧ ¬ ∀ e ∈ tr, Responsive e.post := by
  let as : List Input := [.onStart true, .poll, .getPower, .init, .check, .leave true, .radioExit,
    .radioExit, .thread .lock, .radioExit, .radioExit, .thread (.request getGain)]
  have hexec : (machine.exec (launch (new (List.replicate stageBufSize 0) 1)) as).any
      (fun r => ∃ e ∈ r.1[11]?, e.pre.timerShutdown = true) = true := by
    decide +kernel
  obtain ⟨tr, d, hrun, hin, e, he, htimer⟩ := exists_run hexec
  refine ⟨tr, d, hrun, hin, ?_⟩
  dsimp only at he
  have hinput : e.input = .thread (.request getGain) := by
    have hat : (inputs tr)[11]? = some e.input := by
      rw [inputs, List.getElem?_map, he]
      rfl
    rw [hin] at hat
    exact (Option.some.inj hat).symm
  intro hresponsive
  have hcareful := (responsive_iff_careful hrun).mp hresponsive e (List.mem_of_getElem? he)
  rw [hinput, Careful, htimer] at hcareful
  simp at hcareful

end CDaemon
