import Sircond.Launch.Draining

/-!
This module contains which processes can still come to an orderly end, and which of them can come to
delete the server in the wrong order: under the thread of the radio interface.
-/

open Machine Scp CSirCon

namespace CDaemon

def Doomed (d : CDaemon) : Prop := d.killed = true ∨ StartFails d ∨ ¬ Responsive d

section Step

variable {d d' : CDaemon} {a : Input} {acts : List Action}

/-- The request `id` that the server waits for is not going to be answered. -/
structure Stuck (d : CDaemon) (id : Nat) : Prop where
  waiting : d.threads.server = .waiting id
  timerShutdown : d.timerShutdown = true
  unanswered : id ∉ d.threads.done.map Prod.fst
  unresolved : d.timer = .pass → id ∉ (resolved d.threads.sircon.timerProc.2).map Prod.fst

theorem not_responsive_iff : ¬ Responsive d ↔ ∃ id, Stuck d id := by
  unfold Responsive
  constructor
  . intro h
    split at h
    . next id hwaiting =>
      simp only [Classical.not_imp, not_or, not_and] at h
      exact ⟨id, hwaiting, h.1, h.2.1, h.2.2⟩
    all_goals exact absurd trivial h
  . rintro ⟨id, hwaiting, htimer, hunanswered, hunresolved⟩
    rw [hwaiting]
    simp only [Classical.not_imp, not_or, not_and]
    exact ⟨htimer, hunanswered, hunresolved⟩

theorem Stuck.timerStopped {id : Nat} (hstuck : Stuck d id) (h : Sane d)
    : d.radio.timerStopped = true := by
  rw [← h.timerShutdown]
  exact hstuck.timerShutdown

theorem Stuck.pass {id : Nat} (hstuck : Stuck d id) (h : Sane d) : d.server = .pass := by
  apply h.pass
  simp [hstuck.waiting]

theorem Stuck.thread {id : Nat} (hstuck : Stuck d id) (h : Sane d) {a : Daemon.Input}
    {threads : Daemon} {acts : List Action} (hruns : d.Runs a)
    (hstep : Daemon.machine.step d.threads a = some (threads, acts))
    : Stuck (d.setThreads a threads) id := by
  have hradio : d.radio ≠ .onRun := by
    intro hrun
    have hstopped := hstuck.timerStopped h
    simp [hrun, RadioThread.timerStopped] at hstopped
  cases a with
  | lock | request | unlock => simp [Daemon.machine, hstuck.waiting] at hstep
  | resume =>
    simp only [Daemon.machine, hstuck.waiting, if_neg hstuck.unanswered] at hstep
    simp at hstep
  | receive | notify | acquire | release | finish | keepalive => exact absurd hruns hradio
  | timerProc =>
    obtain ⟨rfl, -⟩ := Prod.mk.inj (Option.some.inj hstep)
    refine ⟨hstuck.waiting, hstuck.timerShutdown, ?_, by simp [setThreads]⟩
    change id ∉ (d.threads.done ++ resolved d.threads.sircon.timerProc.2).map Prod.fst
    rw [List.map_append, List.mem_append]
    intro hmem
    exact hmem.elim hstuck.unanswered (hstuck.unresolved hruns)

theorem Stuck.radioExit {id : Nat} (hstuck : Stuck d id) (h : Sane d) {started : Bool}
    {point : ExitPoint} (hpoint : d.radio = .onExit started point)
    (hexit : d.radioExit started point = some d')
    : Stuck d' id := by
  obtain ⟨hwaiting, htimer, hunanswered, hunresolved⟩ := hstuck
  have hstopped := h.timerShutdown
  rw [htimer, hpoint] at hstopped
  have hallows := h.timer
  rw [hpoint] at hallows
  cases point with
  | notifying | broadcasting | flagging | stopping => simp [RadioThread.timerStopped] at hstopped
  | joining =>
    simp only [CDaemon.radioExit] at hexit
    split at hexit
    . obtain rfl := Option.some.inj hexit
      exact ⟨hwaiting, htimer, hunanswered, hunresolved⟩
    . simp only [Option.ite_none_right_eq_some, Option.some.injEq] at hexit
      obtain ⟨-, rfl⟩ := hexit
      exact ⟨hwaiting, htimer, hunanswered, by simp⟩
  | freeing =>
    obtain rfl := Option.some.inj hexit
    have hpass : d.timer ≠ .pass := by
      cases started <;> simp only [RadioThread.Allows] at hallows <;> simp [hallows]
    exact ⟨hwaiting, htimer, hunanswered, fun hcase => absurd hcase hpass⟩

theorem Stuck.step {id : Nat} (hstuck : Stuck d id) (h : Alive d) (heffect : StepEffect d a d')
    : d'.main.isOver = false ∧ (d'.killed = true ∨ Stuck d' id) := by
  have hpass := hstuck.pass h.toSane
  have hstopped := hstuck.timerStopped h.toSane
  have hkeep : Stuck d id := hstuck
  obtain ⟨hwaiting, htimer, hunanswered, hunresolved⟩ := hkeep
  cases heffect with
  | thread a threads acts hruns hstep =>
    obtain ⟨-, hmain, -⟩ := d.setThreads_eq a threads
    rw [hmain]
    exact ⟨h.isOver, .inr (hstuck.thread h.toSane hruns hstep)⟩
  | running | signal => exact ⟨rfl, .inr ⟨hwaiting, htimer, hunanswered, hunresolved⟩⟩
  | killed | get => exact ⟨h.isOver, .inl rfl⟩
  | stopped _ hserver => simp [hpass, ServerThread.getState] at hserver
  | join _ hserver | found hserver | failed hserver | getPower hserver | check hserver
  | serverExit _ hserver => simp [hpass] at hserver
  | delete hdeleting =>
    have hmain := h.main
    rw [hdeleting, hpass] at hmain
    simp [MainThread.Allows] at hmain
  | onStart _ hradio | leave _ hradio => simp [hradio, RadioThread.timerStopped] at hstopped
  | radioExit started point d' hpoint hexit =>
    rw [(radioExit_eq hexit).1]
    exact ⟨h.isOver, .inr (hstuck.radioExit h.toSane hpoint hexit)⟩
  | tick =>
    refine ⟨h.isOver, .inr ⟨hwaiting, htimer, hunanswered, ?_⟩⟩
    simp [htimer]

theorem StartFails.starting (hfails : StartFails d) : d.server.getState = .starting := by
  rcases hfails with hexit | ⟨hpolling, -⟩
  . rw [hexit]
    rfl
  . rw [hpolling]
    rfl

theorem StartFails.select (hfails : StartFails d) (h : Sane d) : d.threads.server = .select := by
  apply h.select
  rcases hfails with hexit | ⟨hpolling, -⟩
  . simp [hexit]
  . simp [hpolling]

theorem StartFails.congr (hfails : StartFails d) (hserver : d'.server = d.server)
    (hradio : d'.radio = d.radio)
    : StartFails d' := by
  unfold StartFails
  rw [hserver, hradio]
  exact hfails

theorem StartFails.step (hfails : StartFails d) (h : Alive d) (heffect : StepEffect d a d')
    : d'.main.isOver = false ∧ (d'.killed = true ∨ StartFails d') := by
  have hstarting := hfails.starting
  have hlaunching := h.main.launching hstarting
  have hselect := hfails.select h.toSane
  cases heffect with
  | thread a threads acts hruns hstep =>
    obtain ⟨-, hmain, -, hradio, -⟩ := d.setThreads_eq a threads
    rw [hmain]
    refine ⟨h.isOver, .inr (hfails.congr ?_ hradio)⟩
    apply (d.setThreads_server a threads).resolve_right
    rintro ⟨rfl, -⟩
    simp [Daemon.machine, hselect] at hstep
  | running _ hserver | stopped _ hserver => simp [hstarting] at hserver
  | killed => exact ⟨h.isOver, .inl rfl⟩
  | signal hmain | join hmain | delete hmain => simp [hlaunching] at hmain
  | found hpolling hrunning =>
    rcases hfails with hexit | ⟨-, -, hne⟩
    . simp [hexit] at hpolling
    . exact absurd hrunning hne
  | failed => exact ⟨h.isOver, .inr (.inl rfl)⟩
  | getPower hserver | check hserver =>
    rcases hfails with hexit | ⟨hpolling, -⟩
    . simp [hexit] at hserver
    . simp [hpolling] at hserver
  | serverExit => exact ⟨h.isOver, .inl (decide_eq_true hlaunching)⟩
  | onStart succeeded hstart =>
    rcases hfails with hexit | ⟨-, hne, -⟩
    . cases succeeded <;> exact ⟨h.isOver, .inr (.inl hexit)⟩
    . exact absurd hstart hne
  | leave _ hrun =>
    rcases hfails with hexit | ⟨-, -, hne⟩
    . exact ⟨h.isOver, .inr (.inl hexit)⟩
    . simp [hrun, RadioThread.getState] at hne
  | radioExit started point d' hpoint hexit =>
    obtain ⟨hmain, hserver, hradio⟩ := radioExit_eq hexit
    rw [hmain]
    refine ⟨h.isOver, .inr ?_⟩
    rcases hfails with hfailed | ⟨hpolling, -, hne⟩
    . exact .inl (hserver.trans hfailed)
    . refine .inr ⟨hserver.trans hpolling, ?_⟩
      rw [hpoint] at hne
      rcases hradio with hfinished | ⟨point', hpoint'⟩
      . simp [hfinished, RadioThread.getState]
      . rw [hpoint']
        exact ⟨by simp, by cases started <;> exact hne⟩
  | tick => exact ⟨h.isOver, .inr (hfails.congr rfl rfl)⟩
  | get id hwaiting => simp [hselect] at hwaiting

theorem Doomed.step (hdoomed : Doomed d) (h : Alive d) (heffect : StepEffect d a d')
    : d'.main.isOver = false ∧ Doomed d' := by
  rcases hdoomed with hkilled | hfails | hunresponsive
  . simp [h.killed] at hkilled
  . exact (hfails.step h heffect).imp_right fun hcases => hcases.imp_right .inl
  . obtain ⟨id, hstuck⟩ := not_responsive_iff.mp hunresponsive
    apply (hstuck.step h heffect).imp_right
    intro hcases
    apply hcases.imp_right
    intro hstuck'
    exact .inr (not_responsive_iff.mpr ⟨id, hstuck'⟩)

theorem not_over_of_doomed (hdoomed : Doomed d) (h : d.killed = false → Alive d)
    (hmain : d.main.isOver = false) (hreaches : machine.Reaches d d')
    : d'.main.isOver = false := by
  have hkeep : d'.main.isOver = false ∧ Doomed d' ∧ (d'.killed = false → Alive d') := by
    apply hreaches.invariant
      (I := fun d => d.main.isOver = false ∧ Doomed d ∧ (d.killed = false → Alive d))
    . rintro d a d' acts ⟨-, hdoomed, h⟩ hstep
      have hstep' := hstep
      simp only [machine, Option.ite_none_left_eq_some, not_or] at hstep'
      have halive := h (by simpa using hstep'.1.1)
      obtain ⟨hmain', hdoomed'⟩ := hdoomed.step halive (stepEffect hstep'.2)
      exact ⟨hmain', hdoomed', fun hkilled => ⟨halive.toSane.step hstep hkilled, hkilled, hmain'⟩⟩
    . exact ⟨hmain, hdoomed, h⟩
  exact hkeep.1

theorem finished_step (hfinished : d.radio = .finished) (hmain : d.main ≠ .destroying)
    (heffect : StepEffect d a d')
    : d'.radio = .finished ∧ d'.main ≠ .destroying := by
  cases heffect with
  | thread a threads =>
    obtain ⟨-, hmain', -, hradio, -⟩ := d.setThreads_eq a threads
    rw [hradio, hmain']
    exact ⟨hfinished, hmain⟩
  | delete => simp [delete, hfinished]
  | onStart _ hradio | leave _ hradio | radioExit _ _ _ hradio => simp [hfinished] at hradio
  | running | stopped | signal | join => exact ⟨hfinished, by simp⟩
  | killed | found | failed | getPower | check | serverExit | tick | get => exact ⟨hfinished, hmain⟩

end Step

/--
A process whose end has not come can still come to an orderly one, with the server deleted after the
thread of the radio interface has ended, if and only if it is alive, the start of the server does not
fail, and the server does not wait for a request that is left unanswered. As long as that thread runs,
the main thread can begin to delete the server under it as well.
-/
theorem can_end_iff {block : List UInt8} {now : Nat} {tr : List (Entry CDaemon Input Action)}
    {d : CDaemon} (hrun : machine.Run (launch (new block now)) tr d) (hmain : d.main.isOver = false)
    : ((∃ d', machine.Reaches d d' ∧ d'.main = .deleted ∧ d'.radio = .finished) ↔ ¬ Doomed d)
        ∧ ((∃ d', machine.Reaches d d' ∧ d'.main = .destroying)
          ↔ ¬ Doomed d ∧ d.radio ≠ .finished) := by
  have halive : d.killed = false → Alive d := fun hkilled => ⟨.of_run hrun hkilled, hkilled, hmain⟩
  have hquiet : ¬ Doomed d →
      ∃ d', machine.Reaches d d' ∧ Quiet d' ∧ (d'.radio = .finished ↔ d.radio = .finished) := by
    intro hdoomed
    unfold Doomed at hdoomed
    simp only [not_or, Bool.not_eq_true, not_not] at hdoomed
    exact (halive hdoomed.1).quiet hdoomed.2.2 hdoomed.2.1
  have hover : ∀ d', machine.Reaches d d' → d'.main.isOver = true → ¬ Doomed d := by
    intro d' hreaches hover hdoomed
    simp [not_over_of_doomed hdoomed halive hmain hreaches] at hover
  refine ⟨⟨?_, ?_⟩, ⟨?_, ?_⟩⟩
  . rintro ⟨d', hreaches, hdeleted, -⟩
    exact hover d' hreaches (by rw [hdeleted]; rfl)
  . intro hdoomed
    obtain ⟨d₁, hreaches₁, h₁, -⟩ := hquiet hdoomed
    obtain ⟨d₂, hreaches₂, h₂, hfinished⟩ := h₁.radio_finished
    obtain ⟨d₃, hreaches₃, hradio, hdeleted⟩ := h₂.over
    rw [if_pos hfinished] at hdeleted
    exact ⟨d₃, hreaches₁.trans (hreaches₂.trans hreaches₃), hdeleted, hradio.trans hfinished⟩
  . rintro ⟨d', hreaches, hdestroying⟩
    refine ⟨hover d' hreaches (by rw [hdestroying]; rfl), ?_⟩
    intro hfinished
    have hkeep : d'.radio = .finished ∧ d'.main ≠ .destroying := by
      apply hreaches.invariant (I := fun d => d.radio = .finished ∧ d.main ≠ .destroying)
      . rintro d a d' acts ⟨hfinished, hmain⟩ hstep
        simp only [machine, Option.ite_none_left_eq_some] at hstep
        exact finished_step hfinished hmain (stepEffect hstep.2)
      . refine ⟨hfinished, ?_⟩
        intro hcase
        simp [hcase, MainThread.isOver] at hmain
    exact hkeep.2 hdestroying
  . rintro ⟨hdoomed, hunfinished⟩
    obtain ⟨d₁, hreaches₁, h₁, hradio₁⟩ := hquiet hdoomed
    obtain ⟨d₂, hreaches₂, -, hdestroying⟩ := h₁.over
    rw [if_neg (mt hradio₁.mp hunfinished)] at hdestroying
    exact ⟨d₂, hreaches₁.trans hreaches₂, hdestroying⟩

/-- The link fails while the server holds the mutex and waits for the result of a request. -/
theorem can_end_iff_link_failed
    : ∃ tr d, machine.Run (launch (new (List.replicate stageBufSize 0) 1)) tr d
        ∧ inputs tr = [.onStart true, .poll, .getPower, .init, .check, .thread .lock,
            .thread (.request getGain), .leave true]
        ∧ (∃ d', machine.Reaches d d' ∧ d'.main = .deleted ∧ d'.radio = .finished)
        ∧ ∃ d', machine.Reaches d d' ∧ d'.main = .destroying := by
  let as : List Input := [.onStart true, .poll, .getPower, .init, .check, .thread .lock,
    .thread (.request getGain), .leave true]
  have hexec : (machine.exec (launch (new (List.replicate stageBufSize 0) 1)) as).any
      (fun r => r.2.killed = false ∧ r.2.server = .pass ∧ r.2.timerShutdown = false
        ∧ r.2.main = .running ∧ r.2.radio = .onExit true .notifying) = true := by
    decide +kernel
  obtain ⟨tr, d, hrun, hin, hkilled, hserver, htimer, hmain, hradio⟩ := exists_run hexec
  refine ⟨tr, d, hrun, hin, ?_⟩
  dsimp only at hkilled hserver htimer hmain hradio
  have hresponsive : Responsive d := by
    unfold Responsive
    split <;> simp [htimer]
  have hdoomed : ¬ Doomed d := by
    simp [Doomed, StartFails, hkilled, hserver, hresponsive]
  obtain ⟨hend, hdestroy⟩ := can_end_iff hrun (by rw [hmain]; rfl)
  exact ⟨hend.mpr hdoomed, hdestroy.mpr ⟨hdoomed, by simp [hradio]⟩⟩

end CDaemon
