import Sircond.Launch.Invariant

/-!
This module contains how a process comes to an orderly end, in stages: the server starts, the request it
waits for is answered, the mutex is free, the server ends, and then the thread of the radio interface,
which nobody but the radio interface itself stops.
-/

open Machine Scp CSirCon

theorem Daemon.notify_spec (d : Daemon) (msg : List UInt8) (e : SCEvent) (events : List SCEvent)
    : (d.notify msg e events).server = d.server ∧ (d.notify msg e events).mutex = d.mutex
        ∧ ((d.notify msg e events).radio = .locking msg events
          ∨ (d.notify msg e events).radio = .handling msg events) := by
  unfold notify
  cases e.update with
  | notifyAll => exact ⟨rfl, rfl, .inl rfl⟩
  | notify | setPower | unhandled => exact ⟨rfl, rfl, .inr rfl⟩

/-- How much of a frame is left to do. -/
def RadioPoint.rank : RadioPoint → Nat
  | receiving => 0
  | handling _ events => 3 * events.length + 1
  | sending _ events => 3 * events.length + 2
  | locking _ events => 3 * events.length + 3

def TimerThread.rank : TimerThread → Nat
  | pass => 2
  | top => 1
  | none | finished | joined => 0

namespace CDaemon

/-- How far the thread of the radio interface is from its end. -/
def rank (d : CDaemon) : Nat :=
  match d.radio with
  | .onRun => 9 + d.threads.radio.rank
  | .onStart => 9
  | .onExit _ .notifying => 8
  | .onExit _ .broadcasting => 7
  | .onExit _ .flagging => 6
  | .onExit _ .stopping => 5
  | .onExit _ .joining => 2 + d.timer.rank
  | .onExit _ .freeing => 1
  | .finished => 0

/--
The start of the server is bound to fail, and with it the process: the signal by which the server
announces its end finds the main thread unprepared.
-/
def StartFails (d : CDaemon) : Prop :=
  d.server = .onExit false ∨ d.server = .polling ∧ d.radio ≠ .onStart ∧ d.radio.getState ≠ .running

/--
Once the timer has been told to stop, the request that the server waits for is answered, or the tick
under way gives up on it.
-/
def Responsive (d : CDaemon) : Prop :=
  match d.threads.server with
  | .waiting id => d.timerShutdown = true →
    id ∈ d.threads.done.map Prod.fst
      ∨ d.timer = .pass ∧ id ∈ (resolved d.threads.sircon.timerProc.2).map Prod.fst
  | .select | .processing => True

structure Alive (d : CDaemon) : Prop extends Sane d where
  killed : d.killed = false
  isOver : d.main.isOver = false

/-- The server has ended, so that nobody stands in the way of the thread of the radio interface. -/
structure Quiet (d : CDaemon) : Prop extends Alive d where
  select : d.threads.server = .select
  mutex : d.threads.mutex = none
  ended : d.main = .stopping ∧ d.server = .finished ∨ d.main = .deleting

section Step

variable {d d' : CDaemon} {a : Input} {acts : List Action}

theorem Alive.reaches (h : Alive d) (hstep : d.stepAlive a = some (d', acts))
    (hkilled : d'.killed = false) (hmain : d'.main.isOver = false)
    : machine.Reaches d d' ∧ Alive d' := by
  have hstep' : machine.step d a = some (d', acts) := by
    simp only [machine, h.killed, h.isOver]
    exact hstep
  exact ⟨.of_step hstep', ⟨h.toSane.step hstep' hkilled, hkilled, hmain⟩⟩

theorem Alive.reaches_thread (h : Alive d) {a : Daemon.Input} {threads : Daemon} {acts : List Action}
    (hruns : d.Runs a) (hstep : Daemon.machine.step d.threads a = some (threads, acts))
    : machine.Reaches d (d.setThreads a threads) ∧ Alive (d.setThreads a threads) := by
  obtain ⟨-, hmain, -, -, -, -, hkilled⟩ := d.setThreads_eq a threads
  apply h.reaches (show d.stepAlive (.thread a) = some (d.setThreads a threads, acts) by
    simp [stepAlive, hruns, hstep])
  . rw [hkilled]
    exact h.killed
  . rw [hmain]
    exact h.isOver

theorem Alive.mutex_free (h : Alive d) (hselect : d.threads.server = .select)
    : ∃ d', machine.Reaches d d' ∧ Alive d' ∧ d'.threads.server = .select ∧ d'.threads.mutex = none
        ∧ d'.main = d.main ∧ (d'.radio = .finished ↔ d.radio = .finished) := by
  cases hmutex : d.threads.mutex with
  | none => exact ⟨d, .refl d, h, hselect, hmutex, rfl, Iff.rfl⟩
  | some holder =>
    cases holder with
    | server => exact absurd hselect (h.serverMutex hmutex)
    | radio =>
      rcases h.radioMutex hmutex with ⟨msg, events, hsending⟩ | ⟨started, hpoint⟩
      . have hrun : d.radio = .onRun := by
          by_contra hne
          simp [h.receiving hne] at hsending
        obtain ⟨hreaches, halive⟩ := h.reaches_thread (a := .release) hrun
          (by simp only [Daemon.machine, hsending]; rfl)
        exact ⟨_, hreaches, halive, hselect, rfl, rfl, Iff.rfl⟩
      . have hstep : d.stepAlive .radioExit
            = some ({ d with threads.mutex := none, radio := .onExit started .flagging }, []) := by
          simp [stepAlive, hpoint, radioExit]
        obtain ⟨hreaches, halive⟩ := h.reaches hstep h.killed h.isOver
        refine ⟨_, hreaches, halive, hselect, rfl, rfl, ?_⟩
        simp [hpoint]

theorem answered_of_resolved {threads : Daemon} {id : Nat}
    (h : id ∈ (resolved threads.sircon.timerProc.2).map Prod.fst)
    : id ∈ (threads.done ++ resolved threads.sircon.timerProc.2).map Prod.fst := by
  rw [List.map_append]
  apply List.mem_append_right _ h

theorem Sane.radio_ne_finished (h : Sane d) (htimer : d.timerShutdown = false)
    : d.radio ≠ .finished := by
  intro hfinished
  rw [h.timerShutdown, hfinished] at htimer
  simp [RadioThread.timerStopped] at htimer

theorem Sane.timer_runs (h : Sane d) (hpass : d.server = .pass) (htimer : d.timerShutdown = false)
    : d.timer = .top ∨ d.timer = .pass := by
  have hstarted := h.started (.inr (by rw [hpass]; rfl))
  have hallows := h.timer
  rw [h.timerShutdown] at htimer
  generalize d.radio = radio at *
  unfold RadioThread.Allows at hallows
  split at hallows <;> simp_all [RadioThread.timerStopped, RadioThread.getState]

theorem Alive.tick (h : Alive d) (htop : d.timer = .top) (htimer : d.timerShutdown = false)
    : machine.Reaches d { d with timer := .pass } ∧ Alive { d with timer := .pass } := by
  have hstep : d.stepAlive .tick = some ({ d with timer := .pass }, []) := by
    simp [stepAlive, htop, htimer]
  apply h.reaches hstep h.killed h.isOver

theorem Alive.answered (h : Alive d) {id : Nat} (hwaiting : d.threads.server = .waiting id)
    (htimer : d.timerShutdown = false)
    : ∃ d', machine.Reaches d d' ∧ (Alive d' ∧ d'.threads.server = .waiting id
        ∧ d'.timerShutdown = false ∧ d'.main = d.main ∧ d'.radio = d.radio)
          ∧ id ∈ d'.threads.done.map Prod.fst := by
  apply Reaches.of_progress (fun d => d.threads.sircon.patience id) _ ⟨h, hwaiting, htimer, rfl, rfl⟩
  rintro d₁ ⟨h₁, hwaiting₁, htimer₁, hmain₁, hradio₁⟩ hunanswered
  have hqueued : id ∈ queued d₁.threads.sircon :=
    ((h₁.waits id hwaiting₁).resolve_right (h₁.radio_ne_finished htimer₁)).resolve_left hunanswered
  have hrunning := h₁.timer_runs (h₁.pass (by simp [hwaiting₁])) htimer₁
  have hpass : ∃ d₂, machine.Reaches d₁ d₂ ∧ Alive d₂ ∧ d₂.timer = .pass ∧ d₂.threads = d₁.threads
      ∧ d₂.timerShutdown = false ∧ d₂.main = d₁.main ∧ d₂.radio = d₁.radio := by
    cases hrunning with
    | inl htop =>
      obtain ⟨hreaches, halive⟩ := h₁.tick htop htimer₁
      exact ⟨_, hreaches, halive, rfl, rfl, htimer₁, rfl, rfl⟩
    | inr hpass => exact ⟨d₁, .refl d₁, h₁, hpass, rfl, htimer₁, rfl, rfl⟩
  obtain ⟨d₂, hreaches₂, h₂, hpass₂, hthreads₂, htimer₂, hmain₂, hradio₂⟩ := hpass
  obtain ⟨hreaches₃, h₃⟩ := h₂.reaches_thread (a := .timerProc) hpass₂ rfl
  rw [← hthreads₂] at hqueued hwaiting₁ ⊢
  refine ⟨_, hreaches₂.trans hreaches₃, ⟨h₃, hwaiting₁, htimer₂, hmain₂.trans hmain₁,
    hradio₂.trans hradio₁⟩, ?_⟩
  rcases patience_timerProc h₂.sound.persistent hqueued with hresolved | ⟨-, hle⟩
  . left
    apply answered_of_resolved
    exact List.mem_map_of_mem hresolved
  . right
    exact hle

theorem Alive.select_server (h : Alive d) (hresponsive : Responsive d)
    : ∃ d', machine.Reaches d d' ∧ Alive d' ∧ d'.threads.server = .select ∧ d'.main = d.main
        ∧ d'.radio = d.radio := by
  have hunlock : ∀ d₁, Alive d₁ → d₁.threads.server = .processing →
      ∃ d', machine.Reaches d₁ d' ∧ Alive d' ∧ d'.threads.server = .select ∧ d'.main = d₁.main
        ∧ d'.radio = d₁.radio := by
    intro d₁ h₁ hprocessing
    obtain ⟨hreaches, halive⟩ := h₁.reaches_thread (a := .unlock) trivial
      (by simp only [Daemon.machine, if_pos hprocessing]; rfl)
    exact ⟨_, hreaches, halive, rfl, rfl, rfl⟩
  have hresume : ∀ d₁ id, Alive d₁ → d₁.threads.server = .waiting id →
      id ∈ d₁.threads.done.map Prod.fst →
      ∃ d', machine.Reaches d₁ d' ∧ Alive d' ∧ d'.threads.server = .select ∧ d'.main = d₁.main
        ∧ d'.radio = d₁.radio := by
    intro d₁ id h₁ hwaiting hanswered
    obtain ⟨hreaches, halive⟩ := h₁.reaches_thread (a := .resume) trivial
      (by simp only [Daemon.machine, hwaiting, if_pos hanswered]; rfl)
    obtain ⟨d₂, hreaches₂, h₂⟩ := hunlock _ halive rfl
    exact ⟨d₂, hreaches.trans hreaches₂, h₂⟩
  cases hserver : d.threads.server with
  | select => exact ⟨d, .refl d, h, hserver, rfl, rfl⟩
  | processing => exact hunlock d h hserver
  | waiting id =>
    unfold Responsive at hresponsive
    rw [hserver] at hresponsive
    cases htimer : d.timerShutdown with
    | false =>
      obtain ⟨d₁, hreaches₁, ⟨h₁, hwaiting₁, -, hmain₁, hradio₁⟩, hanswered₁⟩ :=
        h.answered hserver htimer
      obtain ⟨d₂, hreaches₂, h₂, hselect₂, hmain₂, hradio₂⟩ := hresume d₁ id h₁ hwaiting₁ hanswered₁
      exact ⟨d₂, hreaches₁.trans hreaches₂, h₂, hselect₂, hmain₂.trans hmain₁, hradio₂.trans hradio₁⟩
    | true =>
      rcases hresponsive htimer with hanswered | ⟨hpass, hresolved⟩
      . exact hresume d id h hserver hanswered
      . obtain ⟨hreaches₁, h₁⟩ := h.reaches_thread (a := .timerProc) hpass rfl
        obtain ⟨d₂, hreaches₂, h₂⟩ := hresume _ id h₁ hserver (answered_of_resolved hresolved)
        exact ⟨d₂, hreaches₁.trans hreaches₂, h₂⟩

theorem responsive_of_select (hselect : d.threads.server = .select) : Responsive d := by
  unfold Responsive
  rw [hselect]
  trivial

theorem Alive.running (h : Alive d) (hresponsive : Responsive d) (hlaunching : d.main = .launching)
    (hrunning : d.server.getState = .running)
    : ∃ d', machine.Reaches d d' ∧ Alive d' ∧ Responsive d' ∧ d'.main ≠ .launching
        ∧ d'.radio = d.radio := by
  have hstep : d.stepAlive .init = some ({ d with main := .running }, []) := by
    simp [stepAlive, hlaunching, CDaemon.init, hrunning]
  obtain ⟨hreaches, halive⟩ := h.reaches hstep h.killed rfl
  exact ⟨_, hreaches, halive, hresponsive, by simp, rfl⟩

theorem Alive.running_of_asking (h : Alive d) (hasking : d.server = .asking)
    : ∃ d', machine.Reaches d d' ∧ Alive d' ∧ Responsive d' ∧ d'.main ≠ .launching
        ∧ d'.radio = d.radio := by
  have hlaunching : d.main = .launching := h.main.launching (by rw [hasking]; rfl)
  have hselect : d.threads.server = .select := h.select (by simp [hasking])
  have hstep : d.stepAlive .getPower = some ({ d with
      threads.sircon := (d.threads.sircon.send CSirCon.getPower).1, server := .top }, []) := by
    simp [stepAlive, hasking]
  obtain ⟨hreaches, halive⟩ := h.reaches hstep h.killed h.isOver
  obtain ⟨d', hreaches', h'⟩ := halive.running (responsive_of_select hselect) hlaunching rfl
  exact ⟨d', hreaches.trans hreaches', h'⟩

theorem Alive.running_of_polling (h : Alive d) (hpolling : d.server = .polling)
    (hrunning : d.radio.getState = .running)
    : ∃ d', machine.Reaches d d' ∧ Alive d' ∧ Responsive d' ∧ d'.main ≠ .launching
        ∧ d'.radio = d.radio := by
  have hstep : d.stepAlive .poll = some ({ d with server := .asking }, []) := by
    simp [stepAlive, hpolling, CDaemon.poll, hrunning]
  obtain ⟨hreaches, halive⟩ := h.reaches hstep h.killed h.isOver
  obtain ⟨d', hreaches', h'⟩ := halive.running_of_asking rfl
  exact ⟨d', hreaches.trans hreaches', h'⟩

theorem Sane.mutex_onStart (h : Sane d) (hselect : d.threads.server = .select)
    (hstart : d.radio = .onStart)
    : d.threads.mutex = none := by
  cases hmutex : d.threads.mutex with
  | none => rfl
  | some holder =>
    cases holder with
    | server => exact absurd hselect (h.serverMutex hmutex)
    | radio =>
      rcases h.radioMutex hmutex with ⟨msg, events, hsending⟩ | ⟨started, hpoint⟩
      . simp [h.receiving (by simp [hstart])] at hsending
      . simp [hstart] at hpoint

theorem Alive.launched (h : Alive d) (hresponsive : Responsive d) (hstart : ¬ StartFails d)
    : ∃ d', machine.Reaches d d' ∧ Alive d' ∧ Responsive d' ∧ d'.main ≠ .launching
        ∧ (d'.radio = .finished ↔ d.radio = .finished) := by
  have hsame : (∃ d', machine.Reaches d d' ∧ Alive d' ∧ Responsive d' ∧ d'.main ≠ .launching
      ∧ d'.radio = d.radio) → ∃ d', machine.Reaches d d' ∧ Alive d' ∧ Responsive d'
        ∧ d'.main ≠ .launching ∧ (d'.radio = .finished ↔ d.radio = .finished) := by
    rintro ⟨d', hreaches, halive, hresponsive', hmain, hradio⟩
    exact ⟨d', hreaches, halive, hresponsive', hmain, by rw [hradio]⟩
  if hmain : d.main = .launching then
    have hallows := h.main
    rw [hmain] at hallows
    cases hserver : d.server with
    | polling =>
      if hradio : d.radio = .onStart then
        have hmutex := h.mutex_onStart (h.select (by simp [hserver])) hradio
        have hstep : d.stepAlive (.onStart true)
            = some ({ d with radio := .onRun, timer := .top }, []) := by
          simp [stepAlive, hradio, hmutex, CDaemon.onStart]
        obtain ⟨hreaches, halive⟩ := h.reaches hstep h.killed h.isOver
        obtain ⟨d', hreaches', halive', hresponsive', hmain', hradio'⟩ :=
          halive.running_of_polling hserver rfl
        refine ⟨d', hreaches.trans hreaches', halive', hresponsive', hmain', ?_⟩
        simp [hradio, hradio']
      else
        have hrunning : d.radio.getState = .running := by
          by_contra hne
          exact hstart (.inr ⟨hserver, hradio, hne⟩)
        exact hsame (h.running_of_polling hserver hrunning)
    | asking => exact hsame (h.running_of_asking hserver)
    | top | pass => exact hsame (h.running hresponsive hmain (by rw [hserver]; rfl))
    | onExit started =>
      cases started with
      | true => exact hsame (h.running hresponsive hmain (by rw [hserver]; rfl))
      | false => exact absurd (.inl hserver) hstart
    | finished => exact absurd hserver hallows.1
    | joined => exact absurd hserver hallows.2
  else
    exact ⟨d, .refl d, h, hresponsive, hmain, Iff.rfl⟩

theorem Alive.quiet_of_onExit (h : Alive d) (hstopping : d.main = .stopping)
    (hselect : d.threads.server = .select) (hmutex : d.threads.mutex = none)
    (hexit : d.server = .onExit true)
    : ∃ d', machine.Reaches d d' ∧ Quiet d' ∧ d'.radio = d.radio := by
  have hstep : d.stepAlive .serverExit
      = some ({ d with server := .finished, killed := false }, []) := by
    simp [stepAlive, serverExit, hexit, hmutex, hstopping]
  obtain ⟨hreaches, halive⟩ := h.reaches hstep rfl h.isOver
  exact ⟨_, hreaches, ⟨halive, hselect, hmutex, .inl ⟨hstopping, rfl⟩⟩, rfl⟩

theorem Alive.quiet_of_top (h : Alive d) (hstopping : d.main = .stopping)
    (hselect : d.threads.server = .select) (hmutex : d.threads.mutex = none) (htop : d.server = .top)
    : ∃ d', machine.Reaches d d' ∧ Quiet d' ∧ d'.radio = d.radio := by
  have hstep : d.stepAlive .check = some ({ d with server := .onExit true }, []) := by
    simp [stepAlive, htop, h.serverShutdown hstopping]
  obtain ⟨hreaches, halive⟩ := h.reaches hstep h.killed h.isOver
  obtain ⟨d', hreaches', h'⟩ := halive.quiet_of_onExit hstopping hselect hmutex rfl
  exact ⟨d', hreaches.trans hreaches', h'⟩

theorem Alive.quiet_of_stopping (h : Alive d) (hstopping : d.main = .stopping)
    (hselect : d.threads.server = .select) (hmutex : d.threads.mutex = none)
    : ∃ d', machine.Reaches d d' ∧ Quiet d' ∧ d'.radio = d.radio := by
  have hallows := h.main
  rw [hstopping] at hallows
  obtain ⟨hstate, hjoined⟩ := hallows
  cases hserver : d.server with
  | polling | asking =>
    rw [hserver] at hstate
    exact absurd rfl hstate
  | top => exact h.quiet_of_top hstopping hselect hmutex hserver
  | pass =>
    -- The pass under way takes the mutex once more.
    obtain ⟨hreaches₁, h₁⟩ := h.reaches_thread (a := .lock) hserver
      (by simp only [Daemon.machine, if_pos (And.intro hselect hmutex)]; rfl)
    obtain ⟨hreaches₂, h₂⟩ := h₁.reaches_thread (a := .unlock) trivial rfl
    obtain ⟨d', hreaches', h'⟩ := h₂.quiet_of_top hstopping rfl rfl rfl
    exact ⟨d', hreaches₁.trans (hreaches₂.trans hreaches'), h'⟩
  | onExit started =>
    cases started with
    | true => exact h.quiet_of_onExit hstopping hselect hmutex hserver
    | false =>
      rw [hserver] at hstate
      exact absurd rfl hstate
  | finished => exact ⟨d, .refl d, ⟨h, hselect, hmutex, .inl ⟨hstopping, hserver⟩⟩, rfl⟩
  | joined => exact absurd hserver hjoined

theorem Alive.quiet (h : Alive d) (hresponsive : Responsive d) (hstart : ¬ StartFails d)
    : ∃ d', machine.Reaches d d' ∧ Quiet d' ∧ (d'.radio = .finished ↔ d.radio = .finished) := by
  obtain ⟨d₁, hreaches₁, h₁, hresponsive₁, hmain₁, hradio₁⟩ := h.launched hresponsive hstart
  obtain ⟨d₂, hreaches₂, h₂, hselect₂, hmain₂, hradio₂⟩ := h₁.select_server hresponsive₁
  obtain ⟨d₃, hreaches₃, h₃, hselect₃, hmutex₃, hmain₃, hradio₃⟩ := h₂.mutex_free hselect₂
  have hreaches : machine.Reaches d d₃ := hreaches₁.trans (hreaches₂.trans hreaches₃)
  have hradio : d₃.radio = .finished ↔ d.radio = .finished := by
    rw [hradio₃, hradio₂, hradio₁]
  cases hmain : d₃.main with
  | launching =>
    rw [hmain₃, hmain₂] at hmain
    exact absurd hmain hmain₁
  | running =>
    have hstep : d₃.stepAlive .signal
        = some ({ d₃ with main := .stopping, serverShutdown := true }, []) := by
      simp [stepAlive, CDaemon.signal, hmain]
    obtain ⟨hreaches₄, h₄⟩ := h₃.reaches hstep h₃.killed rfl
    obtain ⟨d₅, hreaches₅, h₅, hradio₅⟩ := h₄.quiet_of_stopping rfl hselect₃ hmutex₃
    refine ⟨d₅, hreaches.trans (hreaches₄.trans hreaches₅), h₅, ?_⟩
    rw [hradio₅, ← hradio]
  | stopping =>
    obtain ⟨d₅, hreaches₅, h₅, hradio₅⟩ := h₃.quiet_of_stopping hmain hselect₃ hmutex₃
    refine ⟨d₅, hreaches.trans hreaches₅, h₅, ?_⟩
    rw [hradio₅, hradio]
  | deleting => exact ⟨d₃, hreaches, ⟨h₃, hselect₃, hmutex₃, .inr hmain⟩, hradio⟩
  | destroying | deleted =>
    have hover := h₃.isOver
    simp [hmain, MainThread.isOver] at hover

theorem Quiet.over (h : Quiet d)
    : ∃ d', machine.Reaches d d' ∧ d'.radio = d.radio
        ∧ d'.main = if d.radio = .finished then .deleted else .destroying := by
  have hdelete : ∀ d₁ : CDaemon, Alive d₁ → d₁.main = .deleting → machine.Reaches d₁ d₁.delete := by
    intro d₁ h₁ hdeleting
    have hstep : machine.step d₁ .delete = some (d₁.delete, []) := by
      simp only [machine, h₁.killed, h₁.isOver]
      simp [stepAlive, hdeleting]
    exact .of_step hstep
  rcases h.ended with ⟨hstopping, hfinished⟩ | hdeleting
  . have hstep : d.stepAlive .join = some ({ d with main := .deleting, server := .joined }, []) := by
      simp [stepAlive, hstopping, hfinished]
    obtain ⟨hreaches, halive⟩ := h.reaches hstep h.killed rfl
    exact ⟨_, hreaches.trans (hdelete _ halive rfl), rfl, rfl⟩
  . exact ⟨_, hdelete d h.toAlive hdeleting, rfl, rfl⟩

theorem Quiet.of_thread (h : Quiet d) {a : Daemon.Input} {threads : Daemon} {acts : List Action}
    (hruns : d.Runs a) (hstep : Daemon.machine.step d.threads a = some (threads, acts))
    (hunlock : a ≠ .unlock) (hselect : threads.server = .select) (hmutex : threads.mutex = none)
    : machine.Reaches d (d.setThreads a threads) ∧ Quiet (d.setThreads a threads) := by
  obtain ⟨hreaches, halive⟩ := h.reaches_thread hruns hstep
  obtain ⟨hthreads, hmain, -⟩ := d.setThreads_eq a threads
  refine ⟨hreaches, halive, ?_, ?_, ?_⟩
  . rw [hthreads]
    exact hselect
  . rw [hthreads]
    exact hmutex
  . rw [hmain, (d.setThreads_server a threads).resolve_right fun hcase => hunlock hcase.1]
    exact h.ended

theorem Quiet.progress_onRun (h : Quiet d) (hrun : d.radio = .onRun)
    : ∃ d', machine.Reaches d d' ∧ Quiet d' ∧ rank d' < rank d := by
  have hrank : rank d = 9 + d.threads.radio.rank := by simp [rank, hrun]
  cases hradio : d.threads.radio with
  | receiving =>
    have hstep : d.stepAlive (.leave true)
        = some ({ d with radio := .onExit true .notifying }, []) := by
      simp [stepAlive, hrun, hradio]
    obtain ⟨hreaches, halive⟩ := h.reaches hstep h.killed h.isOver
    refine ⟨_, hreaches, ⟨halive, h.select, h.mutex, h.ended⟩, ?_⟩
    rw [hrank]
    simp only [rank]
    omega
  | handling msg events =>
    cases events with
    | nil =>
      have hstep : Daemon.machine.step d.threads .finish = some ({ d.threads with
          sircon := (d.threads.sircon.onFrame msg).1, radio := .receiving }, []) := by
        simp [Daemon.machine, hradio]
      obtain ⟨hreaches, hquiet⟩ := h.of_thread (a := .finish) hrun hstep (by simp) h.select
        h.mutex
      refine ⟨_, hreaches, hquiet, ?_⟩
      rw [hrank, hradio]
      simp [rank, setThreads, hrun, RadioPoint.rank]
    | cons e events =>
      obtain ⟨hserver, hmutex, hradio'⟩ := d.threads.notify_spec msg e events
      obtain ⟨hreaches, hquiet⟩ := h.of_thread (a := .notify) hrun
        (by simp only [Daemon.machine, hradio]; rfl) (by simp) (hserver.trans h.select)
        (hmutex.trans h.mutex)
      refine ⟨_, hreaches, hquiet, ?_⟩
      rw [hrank, hradio]
      cases hradio' with
      | inl hlocking | inr hlocking =>
        simp only [rank, setThreads, hrun, hlocking, RadioPoint.rank, List.length_cons]
        omega
  | locking msg events =>
    obtain ⟨hreaches₁, h₁⟩ := h.reaches_thread (a := .acquire) hrun
      (by simp only [Daemon.machine, hradio, if_pos h.mutex]; rfl)
    obtain ⟨hreaches₂, h₂⟩ := h₁.reaches_thread (a := .release) hrun rfl
    refine ⟨_, hreaches₁.trans hreaches₂, ⟨h₂, h.select, rfl, h.ended⟩, ?_⟩
    rw [hrank, hradio]
    simp [rank, setThreads, hrun, RadioPoint.rank]
  | sending msg events =>
    have hstep : Daemon.machine.step d.threads .release
        = some ({ d.threads with radio := .handling msg events, mutex := none }, []) := by
      simp [Daemon.machine, hradio]
    obtain ⟨hreaches, hquiet⟩ := h.of_thread (a := .release) hrun hstep (by simp) h.select rfl
    refine ⟨_, hreaches, hquiet, ?_⟩
    rw [hrank, hradio]
    simp [rank, setThreads, hrun, RadioPoint.rank]

theorem Quiet.progress_onExit (h : Quiet d) {started : Bool} {point : ExitPoint}
    (hpoint : d.radio = .onExit started point)
    : ∃ d', machine.Reaches d d' ∧ Quiet d' ∧ rank d' < rank d := by
  have hstep : ∀ d₁, d.radioExit started point = some d₁ → d.stepAlive .radioExit = some (d₁, []) := by
    intro d₁ hexit
    simp [stepAlive, hpoint, hexit]
  cases point with
  | notifying =>
    obtain ⟨hreaches₁, h₁⟩ := h.reaches (hstep _ (if_pos h.mutex)) h.killed h.isOver
    obtain ⟨hreaches₂, h₂⟩ := h₁.reaches (a := .radioExit) rfl h.killed h.isOver
    refine ⟨_, hreaches₁.trans hreaches₂, ⟨h₂, h.select, rfl, h.ended⟩, ?_⟩
    simp [rank, hpoint]
  | broadcasting =>
    obtain ⟨hreaches, halive⟩ := h.reaches (hstep _ rfl) h.killed h.isOver
    refine ⟨_, hreaches, ⟨halive, h.select, rfl, h.ended⟩, ?_⟩
    simp [rank, hpoint]
  | flagging | stopping =>
    obtain ⟨hreaches, halive⟩ := h.reaches (hstep _ rfl) h.killed h.isOver
    refine ⟨_, hreaches, ⟨halive, h.select, h.mutex, h.ended⟩, ?_⟩
    simp [rank, hpoint] <;> cases d.timer <;> simp [TimerThread.rank]
  | joining =>
    have hrank : rank d = 2 + d.timer.rank := by simp [rank, hpoint]
    have hshutdown : d.timerShutdown = true := by rw [h.timerShutdown, hpoint]; rfl
    cases htimer : d.timer with
    | none | joined =>
      have hexit : d.radioExit started .joining
          = some { d with radio := .onExit started .freeing } := by
        simp [radioExit, htimer, TimerThread.joinable]
      obtain ⟨hreaches, halive⟩ := h.reaches (hstep _ hexit) h.killed h.isOver
      refine ⟨_, hreaches, ⟨halive, h.select, h.mutex, h.ended⟩, ?_⟩
      rw [hrank, htimer]
      simp [rank, TimerThread.rank]
    | finished =>
      have hexit : d.radioExit started .joining
          = some { d with timer := .joined, radio := .onExit started .freeing } := by
        simp [radioExit, htimer, TimerThread.joinable]
      obtain ⟨hreaches, halive⟩ := h.reaches (hstep _ hexit) h.killed h.isOver
      refine ⟨_, hreaches, ⟨halive, h.select, h.mutex, h.ended⟩, ?_⟩
      rw [hrank, htimer]
      simp [rank, TimerThread.rank]
    | top =>
      have htick : d.stepAlive .tick = some ({ d with timer := .finished }, []) := by
        simp [stepAlive, htimer, hshutdown]
      obtain ⟨hreaches, halive⟩ := h.reaches htick h.killed h.isOver
      refine ⟨_, hreaches, ⟨halive, h.select, h.mutex, h.ended⟩, ?_⟩
      rw [hrank, htimer]
      simp [rank, hpoint, TimerThread.rank]
    | pass =>
      obtain ⟨hreaches, hquiet⟩ := h.of_thread (a := .timerProc) htimer rfl (by simp) h.select h.mutex
      refine ⟨_, hreaches, hquiet, ?_⟩
      rw [hrank, htimer]
      simp [rank, setThreads, hpoint, TimerThread.rank]
  | freeing =>
    obtain ⟨hreaches, halive⟩ := h.reaches (hstep _ rfl) h.killed h.isOver
    refine ⟨_, hreaches, ⟨halive, h.select, h.mutex, h.ended⟩, ?_⟩
    simp [rank, hpoint]

theorem Quiet.radio_finished (h : Quiet d)
    : ∃ d', machine.Reaches d d' ∧ Quiet d' ∧ d'.radio = .finished := by
  apply Reaches.of_progress rank _ h
  intro d₁ h₁ hunfinished
  suffices hprogress : ∃ d', machine.Reaches d₁ d' ∧ Quiet d' ∧ rank d' < rank d₁ by
    obtain ⟨d', hreaches, hquiet, hlt⟩ := hprogress
    exact ⟨d', hreaches, hquiet, .inr hlt⟩
  cases hradio : d₁.radio with
  | onStart =>
    have hstep : d₁.stepAlive (.onStart false)
        = some ({ d₁ with radio := .onExit false .notifying }, []) := by
      simp [stepAlive, hradio, h₁.mutex, CDaemon.onStart]
    obtain ⟨hreaches, halive⟩ := h₁.reaches hstep h₁.killed h₁.isOver
    refine ⟨_, hreaches, ⟨halive, h₁.select, h₁.mutex, h₁.ended⟩, ?_⟩
    simp [rank, hradio]
  | onRun => exact h₁.progress_onRun hradio
  | onExit started point => exact h₁.progress_onExit hradio
  | finished => exact absurd hradio hunfinished

end Step

end CDaemon
