import Sircond.Launch.Step
import Sircond.SirCon.Shutdown

/-!
This module contains what holds in every state of a process that is alive: who holds the mutex, where a
request is that somebody waits for, and how far the threads have come when one of them is at a point.
-/

open Machine Scp CSirCon

def RadioThread.timerStopped : RadioThread → Bool
  | onExit _ .joining | onExit _ .freeing | finished => true
  | onStart | onRun | onExit _ .notifying | onExit _ .broadcasting | onExit _ .flagging
  | onExit _ .stopping => false

/-- The points of the timer thread that go with a point of the radio thread, its owner. -/
def RadioThread.Allows : RadioThread → TimerThread → Prop
  | onStart, timer | onExit false _, timer => timer = .none
  | onRun, timer | onExit true .notifying, timer | onExit true .broadcasting, timer
  | onExit true .flagging, timer | onExit true .stopping, timer => timer = .top ∨ timer = .pass
  | onExit true .joining, timer => timer = .top ∨ timer = .pass ∨ timer = .finished
  | onExit true .freeing, timer => timer = .joined
  | finished, timer => timer = .none ∨ timer = .joined

/-- The points of the server thread that go with a point of the main thread, its owner. -/
def MainThread.Allows : MainThread → ServerThread → Prop
  | launching, server => server ≠ .finished ∧ server ≠ .joined
  | running, server | stopping, server => server.getState ≠ .starting ∧ server ≠ .joined
  | deleting, server | destroying, server | deleted, server => server = .joined

theorem MainThread.Allows.of_running {main : MainThread} {server server' : ServerThread}
    (h : main.Allows server) (hbefore : server.getState = .running)
    (hafter : server'.getState = .running)
    : main.Allows server' := by
  have hne : server' ≠ .finished ∧ server' ≠ .joined := by
    constructor <;> rintro rfl <;> simp [ServerThread.getState] at hafter
  cases main with
  | launching => exact hne
  | running | stopping => exact ⟨by simp [hafter], hne.2⟩
  | deleting | destroying | deleted =>
    rw [show server = .joined from h] at hbefore
    simp [ServerThread.getState] at hbefore

theorem MainThread.Allows.launching {main : MainThread} {server : ServerThread}
    (h : main.Allows server) (hstarting : server.getState = .starting)
    : main = .launching := by
  cases main with
  | launching => rfl
  | running | stopping => exact absurd hstarting h.1
  | deleting | destroying | deleted =>
    rw [show server = .joined from h] at hstarting
    simp [ServerThread.getState] at hstarting

theorem RadioThread.Allows.top {radio : RadioThread} (h : radio.Allows .pass) : radio.Allows .top := by
  unfold RadioThread.Allows at *
  split at h <;> simp_all

namespace CDaemon

def Broadcasting (d : CDaemon) : Prop :=
  (∃ msg events, d.threads.radio = .sending msg events)
    ∨ ∃ started, d.radio = .onExit started .broadcasting

structure Sane (d : CDaemon) : Prop where
  sound : Daemon.Sound d.threads
  distinct : Daemon.Distinct d.threads
  serverMutex : d.threads.mutex = some .server → d.threads.server ≠ .select
  radioMutex : d.threads.mutex = some .radio → Broadcasting d
  waits : ∀ id, d.threads.server = .waiting id →
    (id ∈ d.threads.done.map Prod.fst ∨ id ∈ queued d.threads.sircon) ∨ d.radio = .finished
  pass : d.threads.server ≠ .select → d.server = .pass
  receiving : d.radio ≠ .onRun → d.threads.radio = .receiving
  timerShutdown : d.timerShutdown = d.radio.timerStopped
  timer : d.radio.Allows d.timer
  started : d.server = .asking ∨ d.server.getState = .running → d.radio.getState ≠ .starting
  main : d.main.Allows d.server
  serverShutdown : d.main = .stopping → d.serverShutdown = true

theorem sane_launch (block : List UInt8) (now : Nat) : Sane (launch (new block now)) where
  sound := Daemon.sound_start block now
  distinct := Daemon.distinct_start block now
  serverMutex h := by simp [launch, Daemon.start] at h
  radioMutex h := by simp [launch, Daemon.start] at h
  waits id h := by simp [launch, Daemon.start] at h
  pass h := absurd rfl h
  receiving _ := rfl
  timerShutdown := rfl
  timer := rfl
  started h := by simp [launch, ServerThread.getState] at h
  main := ⟨by simp [launch], by simp [launch]⟩
  serverShutdown h := by simp [launch] at h

section Step

variable {d : CDaemon}

theorem Broadcasting.step {a : Daemon.Input} {threads : Daemon} {acts : List Action}
    (hstep : Daemon.machine.step d.threads a = some (threads, acts))
    (hbroadcasting : Broadcasting d) (hmutex : threads.mutex = some .radio)
    : Broadcasting (d.setThreads a threads) := by
  obtain ⟨hthreads, -, -, hradio, -⟩ := d.setThreads_eq a threads
  unfold Broadcasting
  rw [hthreads, hradio]
  cases hbroadcasting with
  | inl hsending =>
    obtain ⟨msg, events, hsending⟩ := hsending
    cases Daemon.sending_step hsending hstep with
    | inl hsame => exact .inl ⟨msg, events, hsame⟩
    | inr hnone => simp [hnone] at hmutex
  | inr hpoint => exact .inr hpoint

theorem Sane.radioMutex_thread (h : Sane d) {a : Daemon.Input} {threads : Daemon} {acts : List Action}
    (hruns : d.Runs a) (hstep : Daemon.machine.step d.threads a = some (threads, acts))
    (hmutex : threads.mutex = some .radio)
    : Broadcasting (d.setThreads a threads) := by
  have hkeep : threads.mutex = d.threads.mutex → Broadcasting (d.setThreads a threads) := by
    intro hsame
    apply Broadcasting.step hstep (h.radioMutex _) hmutex
    rw [← hsame]
    exact hmutex
  cases Daemon.pointEffect hstep with
  | lock _ _ _ hserver => simp [hserver] at hmutex
  | unlock _ _ _ hnone | release _ _ _ _ _ hnone => simp [hnone] at hmutex
  | request _ _ _ _ _ _ hsame | resume _ _ _ _ hsame | frame _ _ _ _ hsame
  | broadcast _ _ _ _ _ _ hsame | timerProc _ _ hsame => exact hkeep hsame
  | acquire msg events _ _ hradio =>
    left
    exact ⟨msg, events, hradio⟩

theorem Sane.thread (h : Sane d) {a : Daemon.Input} {threads : Daemon} {acts : List Action}
    (hruns : d.Runs a) (hstep : Daemon.machine.step d.threads a = some (threads, acts))
    : Sane (d.setThreads a threads) := by
  obtain ⟨hthreads, hmain, hserverShutdown, hradio, htimerShutdown, -, -⟩ := d.setThreads_eq a threads
  have hpass : a = .unlock → d.server = .pass := by
    rintro rfl
    apply h.pass
    intro hselect
    simp [Daemon.machine, hselect] at hstep
  constructor
  case sound =>
    rw [hthreads]
    apply h.sound.step hstep
  case distinct =>
    rw [hthreads]
    apply h.distinct.step (Daemon.sirConEffect h.sound.data hstep).2
  case serverMutex =>
    rw [hthreads]
    intro hmutex
    cases Daemon.pointEffect hstep with
    | lock _ hserver | request _ _ _ hserver | resume _ _ hserver => simp [hserver]
    | unlock _ _ _ hnone | release _ _ _ _ _ hnone => simp [hnone] at hmutex
    | acquire _ _ _ _ _ hsome => simp [hsome] at hmutex
    | frame _ _ hserver _ hsame | broadcast _ _ _ hserver _ _ hsame | timerProc hserver _ hsame =>
      rw [hserver]
      apply h.serverMutex
      rw [← hsame]
      exact hmutex
  case radioMutex =>
    rw [hthreads]
    apply h.radioMutex_thread hruns hstep
  case waits =>
    rw [hthreads, hradio]
    intro id hwaiting
    cases Daemon.waiting_step hwaiting hstep with
    | inl hbefore =>
      apply (h.waits id hbefore).imp_left
      intro hsomewhere
      apply Daemon.answered_or_queued h.sound hsomewhere hstep
    | inr hqueued => exact .inl (.inr hqueued)
  case pass =>
    rw [hthreads]
    intro hserver
    rcases Daemon.server_step hserver hstep with rfl | ⟨hne, hbefore⟩
    . exact hruns
    . rcases d.setThreads_server a threads with hsame | ⟨hunlock, -⟩
      . rw [hsame]
        apply h.pass hbefore
      . exact absurd hunlock hne
  case receiving =>
    rw [hthreads, hradio]
    intro hne
    rw [← h.receiving hne]
    apply Daemon.radio_step _ hstep
    cases a with
    | lock | request | resume | unlock | timerProc => rfl
    | receive | notify | acquire | release | finish | keepalive => exact absurd hruns hne
  case timerShutdown =>
    rw [htimerShutdown, hradio]
    apply h.timerShutdown
  case timer =>
    rw [hradio]
    rcases d.setThreads_timer a threads with hsame | ⟨rfl, htop⟩
    . rw [hsame]
      apply h.timer
    . rw [htop]
      apply RadioThread.Allows.top
      rw [← show d.timer = .pass from hruns]
      apply h.timer
  case started =>
    rw [hradio]
    intro hserver
    apply h.started
    rcases d.setThreads_server a threads with hsame | ⟨hunlock, -⟩
    . rw [← hsame]
      exact hserver
    . right
      rw [hpass hunlock]
      rfl
  case main =>
    rw [hmain]
    rcases d.setThreads_server a threads with hsame | ⟨hunlock, htop⟩
    . rw [hsame]
      apply h.main
    . rw [htop]
      apply h.main.of_running _ rfl
      rw [hpass hunlock]
      rfl
  case serverShutdown =>
    rw [hmain, hserverShutdown]
    apply h.serverShutdown

theorem Sane.select (h : Sane d) (hpass : d.server ≠ .pass) : d.threads.server = .select := by
  by_contra hserver
  exact hpass (h.pass hserver)

theorem Sane.setServer (h : Sane d) {server : ServerThread} (hselect : d.threads.server = .select)
    (hstarted : server = .asking ∨ server.getState = .running → d.radio.getState ≠ .starting)
    (hmain : d.main.Allows server)
    : Sane { d with server } :=
  { h with
    pass := fun hserver => absurd hselect hserver
    started := hstarted
    main := hmain }

theorem Sane.getPower (h : Sane d) (hasking : d.server = .asking)
    : Sane { d with threads.sircon := (d.threads.sircon.send CSirCon.getPower).1, server := .top } := by
  have hselect : d.threads.server = .select := h.select (by simp [hasking])
  have hlaunching : d.main = .launching := h.main.launching (by rw [hasking]; rfl)
  have heffect : Daemon.SirConEffect d.threads
      { d.threads with sircon := (d.threads.sircon.send CSirCon.getPower).1 } .keepalive :=
    .send CSirCon.getPower rfl rfl rfl
  exact { h with
    sound := ⟨h.sound.data, h.sound.persistent.send CSirCon.getPower⟩
    distinct := h.distinct.step heffect
    waits := by simp [hselect]
    pass := fun hserver => absurd hselect hserver
    started := fun _ => h.started (.inl hasking)
    main := by
      rw [hlaunching]
      exact ⟨by simp, by simp⟩ }

theorem Sane.check (h : Sane d) (htop : d.server = .top)
    : Sane { d with server := if d.serverShutdown then .onExit true else .pass } := by
  have hrunning : d.server.getState = .running := by rw [htop]; rfl
  have hafter : (if d.serverShutdown then ServerThread.onExit true else .pass).getState = .running := by
    split <;> rfl
  apply h.setServer (h.select (by simp [htop]))
  . exact fun _ => h.started (.inr hrunning)
  . apply h.main.of_running hrunning hafter

theorem Sane.serverExit (h : Sane d) {started : Bool} (hexit : d.server = .onExit started)
    (hmain : d.main ≠ .launching)
    : Sane { d with server := .finished, killed := d.main = .launching } := by
  have hselect : d.threads.server = .select := h.select (by simp [hexit])
  have hallows := h.main
  rw [hexit] at hallows
  exact { h with
    pass := fun hne => absurd hselect hne
    started := by simp [ServerThread.getState]
    main := by
      cases hcase : d.main with
      | launching => exact absurd hcase hmain
      | running | stopping => exact ⟨by simp [ServerThread.getState], by simp⟩
      | deleting | destroying | deleted => simp [MainThread.Allows, hcase] at hallows }

theorem Sane.onStart (h : Sane d) (hstart : d.radio = .onStart) (hmutex : d.threads.mutex = none)
    (succeeded : Bool)
    : Sane (d.onStart succeeded) := by
  have hreceiving : d.threads.radio = .receiving := h.receiving (by simp [hstart])
  have hwaits : ∀ id, d.threads.server = .waiting id →
      id ∈ d.threads.done.map Prod.fst ∨ id ∈ queued d.threads.sircon := by
    intro id hwaiting
    apply (h.waits id hwaiting).resolve_right
    simp [hstart]
  have htimer := h.timerShutdown
  have hstarted := h.started
  rw [hstart] at htimer hstarted
  cases succeeded with
  | true =>
    exact { h with
      radioMutex := by simp [CDaemon.onStart, hmutex]
      waits := fun id hwaiting => .inl (hwaits id hwaiting)
      receiving := fun _ => hreceiving
      timerShutdown := htimer
      timer := .inl rfl
      started := by simp [CDaemon.onStart, RadioThread.getState] }
  | false =>
    exact { h with
      radioMutex := by simp [CDaemon.onStart, hmutex]
      waits := fun id hwaiting => .inl (hwaits id hwaiting)
      receiving := fun _ => hreceiving
      timerShutdown := htimer
      timer := by
        have hnone := h.timer
        rw [hstart] at hnone
        exact hnone
      started := fun hserver => absurd rfl (hstarted hserver) }

theorem Sane.leave (h : Sane d) (hrun : d.radio = .onRun) (hreceiving : d.threads.radio = .receiving)
    : Sane { d with radio := .onExit true .notifying } := by
  have htimer := h.timer
  have hshutdown := h.timerShutdown
  rw [hrun] at htimer hshutdown
  exact { h with
    radioMutex := by
      intro hmutex
      rcases h.radioMutex hmutex with ⟨msg, events, hsending⟩ | ⟨started, hpoint⟩
      . simp [hreceiving] at hsending
      . simp [hrun] at hpoint
    waits := by
      intro id hwaiting
      apply (h.waits id hwaiting).imp_right
      simp [hrun]
    receiving := fun _ => hreceiving
    timerShutdown := hshutdown
    timer := htimer
    started := by simp [RadioThread.getState] }

theorem distinct_onExit {threads : Daemon} (h : Daemon.Distinct threads)
    : Daemon.Distinct { threads with sircon := threads.sircon.onExit.1 } := by
  have hempty : queued threads.sircon.onExit.1 = [] := by
    unfold queued
    rw [(onExit_eq threads.sircon).1]
    rfl
  constructor
  . rw [hempty, List.append_nil]
    apply (List.nodup_append.mp h.nodup).1
  . rw [hempty, List.append_nil]
    intro id hid
    apply h.lt id (List.mem_append_left _ hid)

theorem Sane.radioExit (h : Sane d) {d' : CDaemon} {started : Bool} {point : ExitPoint}
    (hpoint : d.radio = .onExit started point) (hexit : d.radioExit started point = some d')
    : Sane d' := by
  have hreceiving : d.threads.radio = .receiving := h.receiving (by simp [hpoint])
  have hwaits : ∀ id, d.threads.server = .waiting id →
      id ∈ d.threads.done.map Prod.fst ∨ id ∈ queued d.threads.sircon := by
    intro id hwaiting
    apply (h.waits id hwaiting).resolve_right
    simp [hpoint]
  have hnotsending : d.threads.mutex = some .radio → point = .broadcasting := by
    intro hmutex
    rcases h.radioMutex hmutex with ⟨msg, events, hsending⟩ | ⟨started', hbroadcasting⟩
    . simp [hreceiving] at hsending
    . rw [hpoint, RadioThread.onExit.injEq] at hbroadcasting
      exact hbroadcasting.2
  have hstarted : ∀ point', d.server = .asking ∨ d.server.getState = .running →
      (RadioThread.onExit started point').getState ≠ .starting := by
    intro point' hserver
    have hstate := h.started hserver
    rw [hpoint] at hstate
    cases started with
    | false => exact hstate
    | true => exact hstate
  have htimer := h.timer
  have hshutdown := h.timerShutdown
  rw [hpoint] at htimer hshutdown
  cases point with
  | notifying =>
    simp only [CDaemon.radioExit, Option.ite_none_right_eq_some, Option.some.injEq] at hexit
    obtain ⟨-, rfl⟩ := hexit
    exact { h with
      sound := ⟨h.sound.data, h.sound.persistent⟩
      distinct := ⟨h.distinct.nodup, h.distinct.lt⟩
      serverMutex := by simp
      radioMutex := fun _ => .inr ⟨started, rfl⟩
      waits := fun id hwaiting => .inl (hwaits id hwaiting)
      receiving := fun _ => hreceiving
      timerShutdown := hshutdown
      timer := by cases started <;> exact htimer
      started := hstarted _ }
  | broadcasting =>
    obtain rfl := Option.some.inj hexit
    exact { h with
      sound := ⟨h.sound.data, h.sound.persistent⟩
      distinct := ⟨h.distinct.nodup, h.distinct.lt⟩
      serverMutex := by simp
      radioMutex := by simp
      waits := fun id hwaiting => .inl (hwaits id hwaiting)
      receiving := fun _ => hreceiving
      timerShutdown := hshutdown
      timer := by cases started <;> exact htimer
      started := hstarted _ }
  | flagging =>
    obtain rfl := Option.some.inj hexit
    exact { h with
      radioMutex := fun hmutex => absurd (hnotsending hmutex) (by simp)
      waits := fun id hwaiting => .inl (hwaits id hwaiting)
      receiving := fun _ => hreceiving
      timerShutdown := hshutdown
      timer := by cases started <;> exact htimer
      started := hstarted _
      serverShutdown := fun _ => rfl }
  | stopping =>
    obtain rfl := Option.some.inj hexit
    exact { h with
      radioMutex := fun hmutex => absurd (hnotsending hmutex) (by simp)
      waits := fun id hwaiting => .inl (hwaits id hwaiting)
      receiving := fun _ => hreceiving
      timerShutdown := rfl
      timer := by
        cases started with
        | false => exact htimer
        | true => exact htimer.imp_right .inl
      started := hstarted _ }
  | joining =>
    have hjoined : d.timer.joinable = false → started = false := by
      intro hjoinable
      cases started with
      | false => rfl
      | true => rcases htimer with h | h | h <;> simp [h, TimerThread.joinable] at hjoinable
    simp only [CDaemon.radioExit] at hexit
    split at hexit
    . next hjoinable =>
      obtain rfl := hjoined hjoinable
      obtain rfl := Option.some.inj hexit
      exact { h with
        radioMutex := fun hmutex => absurd (hnotsending hmutex) (by simp)
        waits := fun id hwaiting => .inl (hwaits id hwaiting)
        receiving := fun _ => hreceiving
        timerShutdown := hshutdown
        timer := htimer
        started := hstarted _ }
    . simp only [Option.ite_none_right_eq_some, Option.some.injEq] at hexit
      obtain ⟨hfinished, rfl⟩ := hexit
      cases started with
      | false => simp [RadioThread.Allows, hfinished] at htimer
      | true =>
        exact { h with
          radioMutex := fun hmutex => absurd (hnotsending hmutex) (by simp)
          waits := fun id hwaiting => .inl (hwaits id hwaiting)
          receiving := fun _ => hreceiving
          timerShutdown := hshutdown
          timer := rfl
          started := hstarted _ }
  | freeing =>
    obtain rfl := Option.some.inj hexit
    exact { h with
      sound := {
        data := h.sound.data
        persistent := by simp [Persistent, (onExit_eq d.threads.sircon).1] }
      distinct := distinct_onExit h.distinct
      radioMutex := fun hmutex => absurd (hnotsending hmutex) (by simp)
      waits := fun _ _ => .inr rfl
      receiving := fun _ => hreceiving
      timerShutdown := hshutdown
      timer := by
        cases started with
        | false => exact .inl htimer
        | true => exact .inr htimer
      started := by simp [RadioThread.getState] }

theorem Sane.tick (h : Sane d) (htop : d.timer = .top)
    : Sane { d with timer := if d.timerShutdown then .finished else .pass } := by
  have htimer := h.timer
  rw [htop] at htimer
  refine { h with timer := ?_ }
  rw [h.timerShutdown]
  generalize d.radio = radio at htimer
  unfold RadioThread.Allows at *
  split at htimer <;> simp_all [RadioThread.timerStopped]

theorem Sane.step (h : Sane d) {d' : CDaemon} {a : Input} {acts : List Action}
    (hstep : machine.step d a = some (d', acts)) (halive : d'.killed = false)
    : Sane d' := by
  simp only [machine, Option.ite_none_left_eq_some] at hstep
  have hmain := h.main
  cases stepEffect hstep.2 with
  | thread a threads acts' hruns hthreads => exact h.thread hruns hthreads
  | running hlaunching hrunning =>
    rw [hlaunching] at hmain
    exact { h with main := ⟨by simp [hrunning], hmain.2⟩, serverShutdown := by simp }
  | stopped hlaunching hstopped =>
    rw [hlaunching] at hmain
    exact { h with main := ⟨by simp [hstopped], hmain.2⟩, serverShutdown := fun _ => rfl }
  | signal hrunning =>
    rw [hrunning] at hmain
    exact { h with main := hmain, serverShutdown := fun _ => rfl }
  | join hstopping hfinished =>
    have hselect : d.threads.server = .select := h.select (by simp [hfinished])
    exact { h with
      pass := fun hne => absurd hselect hne
      started := by simp [ServerThread.getState]
      main := rfl
      serverShutdown := by simp }
  | delete hdeleting =>
    rw [hdeleting] at hmain
    unfold delete
    split
    . exact { h with main := hmain, serverShutdown := by simp }
    . exact { h with main := hmain, serverShutdown := by simp }
  | found hpolling hrunning =>
    apply h.setServer (h.select (by simp [hpolling]))
    . simp [hrunning]
    . rw [hmain.launching (by rw [hpolling]; rfl)]
      exact ⟨by simp, by simp⟩
  | failed hpolling =>
    apply h.setServer (h.select (by simp [hpolling]))
    . simp [ServerThread.getState]
    . rw [hmain.launching (by rw [hpolling]; rfl)]
      exact ⟨by simp, by simp⟩
  | getPower hasking => exact h.getPower hasking
  | check htop => exact h.check htop
  | serverExit started hexit => exact h.serverExit hexit (by simpa using halive)
  | onStart succeeded hstart hmutex => exact h.onStart hstart hmutex succeeded
  | leave failed hrun hreceiving => exact h.leave hrun hreceiving
  | radioExit started point d' hpoint hexit => exact h.radioExit hpoint hexit
  | tick htop => exact h.tick htop
  | killed | get => simp at halive

end Step

theorem Sane.of_run {block : List UInt8} {now : Nat} {tr : List (Entry CDaemon Input Action)}
    {d : CDaemon} (hrun : machine.Run (launch (new block now)) tr d) (halive : d.killed = false)
    : Sane d := by
  apply hrun.invariant (I := fun _ d => d.killed = false → Sane d)
  . exact fun _ => sane_launch block now
  . intro tr d a d' acts ih hstep halive'
    have hbefore : d.killed = false := by
      simp only [machine, Option.ite_none_left_eq_some, not_or] at hstep
      simpa using hstep.1.1
    exact (ih hbefore).step hstep halive'
  . exact halive

end CDaemon
