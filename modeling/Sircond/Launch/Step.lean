import Sircond.Daemon.Response
import Sircond.Launch.Impl

/-!
This module contains what a step of the process can do, first of the threads of `Daemon` as far as the
rest of the process depends on it, then of all of them.
-/

open Machine Scp CSirCon

namespace Daemon

def Input.isRadio : Input → Bool
  | .receive _ _ | .notify | .acquire | .release | .finish | .keepalive => true
  | .lock | .request _ | .resume | .unlock | .timerProc => false

def Input.isServer : Input → Bool
  | .lock | .request _ | .resume | .unlock => true
  | .receive _ _ | .notify | .acquire | .release | .finish | .keepalive | .timerProc => false

section Step

variable {d d' : Daemon} {a : Input} {acts : List Action}

theorem radio_step (hradio : a.isRadio = false) (hstep : machine.step d a = some (d', acts))
    : d'.radio = d.radio := by
  cases a with
  | lock | request | unlock =>
    simp only [machine, Option.ite_none_right_eq_some, Option.some.injEq, Prod.mk.injEq] at hstep
    rw [← hstep.2.1]
  | resume =>
    simp only [machine] at hstep
    split at hstep
    . simp only [Option.ite_none_right_eq_some, Option.some.injEq, Prod.mk.injEq] at hstep
      rw [← hstep.2.1]
    . simp at hstep
    . simp at hstep
  | timerProc =>
    obtain ⟨rfl, -⟩ := Prod.mk.inj (Option.some.inj hstep)
    rfl
  | receive | notify | acquire | release | finish | keepalive => simp [Input.isRadio] at hradio

theorem PointEffect.server_eq (h : PointEffect d d' a) (hserver : a.isServer = false)
    : d'.server = d.server := by
  cases h with
  | lock | request | resume | unlock => simp [Input.isServer] at hserver
  | frame _ _ hsame | broadcast _ _ _ hsame | acquire _ _ _ hsame | release _ _ _ hsame
  | timerProc hsame => exact hsame

theorem sending_step {msg : List UInt8} {events : List SCEvent}
    (hsending : d.radio = .sending msg events) (hstep : machine.step d a = some (d', acts))
    : d'.radio = .sending msg events ∨ d'.mutex = none := by
  cases hisRadio : a.isRadio with
  | false =>
    left
    rw [radio_step hisRadio hstep]
    exact hsending
  | true =>
    cases a with
    | release =>
      simp only [machine, hsending, Option.some.injEq, Prod.mk.injEq] at hstep
      right
      rw [← hstep.1]
    | receive | notify | acquire | finish | keepalive => simp [machine, hsending] at hstep
    | lock | request | resume | unlock | timerProc => simp [Input.isRadio] at hisRadio

theorem server_step (hserver : d'.server ≠ .select) (hstep : machine.step d a = some (d', acts))
    : a = .lock ∨ a ≠ .unlock ∧ d.server ≠ .select := by
  cases a with
  | lock => exact .inl rfl
  | unlock =>
    simp only [machine, Option.ite_none_right_eq_some, Option.some.injEq, Prod.mk.injEq] at hstep
    rw [← hstep.2.1] at hserver
    exact absurd rfl hserver
  | request data =>
    simp only [machine, Option.ite_none_right_eq_some] at hstep
    right
    simp [hstep.1]
  | resume =>
    right
    refine ⟨by simp, ?_⟩
    intro hselect
    simp [machine, hselect] at hstep
  | receive | notify | acquire | release | finish | keepalive | timerProc =>
    right
    rw [(pointEffect hstep).server_eq rfl] at hserver
    exact ⟨by simp, hserver⟩

theorem waiting_step {id : Nat} (hwaiting : d'.server = .waiting id)
    (hstep : machine.step d a = some (d', acts))
    : d.server = .waiting id ∨ id ∈ queued d'.sircon := by
  cases pointEffect hstep with
  | lock _ hserver | resume _ _ hserver | unlock _ hserver => simp [hserver] at hwaiting
  | request data id' _ hserver hqueued =>
    rw [hserver, ServerPoint.waiting.injEq] at hwaiting
    rw [← hwaiting]
    exact .inr hqueued
  | frame _ _ hserver | broadcast _ _ _ hserver | acquire _ _ _ hserver | release _ _ _ hserver
  | timerProc hserver =>
    rw [← hserver]
    exact .inl hwaiting

theorem answered_or_queued (hsound : Sound d) {id : Nat}
    (h : id ∈ d.done.map Prod.fst ∨ id ∈ queued d.sircon) (hstep : machine.step d a = some (d', acts))
    : id ∈ d'.done.map Prod.fst ∨ id ∈ queued d'.sircon := by
  have hiff : ∀ d : Daemon, id ∈ d.done.map Prod.fst ↔ Answered id d := by
    intro d
    simp [Answered]
  rw [hiff] at h ⊢
  have heffect := (sirConEffect hsound.data hstep).2
  cases h with
  | inl hanswered => exact .inl (heffect.answered hanswered)
  | inr hqueued => exact (heffect.patience hsound.persistent hqueued).imp_right And.left

end Step

end Daemon

namespace CDaemon

theorem setThreads_eq (d : CDaemon) (a : Daemon.Input) (threads : Daemon)
    : (d.setThreads a threads).threads = threads ∧ (d.setThreads a threads).main = d.main
        ∧ (d.setThreads a threads).serverShutdown = d.serverShutdown
        ∧ (d.setThreads a threads).radio = d.radio
        ∧ (d.setThreads a threads).timerShutdown = d.timerShutdown
        ∧ (d.setThreads a threads).broken = d.broken
        ∧ (d.setThreads a threads).killed = d.killed := by
  cases a <;> exact ⟨rfl, rfl, rfl, rfl, rfl, rfl, rfl⟩

theorem setThreads_server (d : CDaemon) (a : Daemon.Input) (threads : Daemon)
    : (d.setThreads a threads).server = d.server
        ∨ a = .unlock ∧ (d.setThreads a threads).server = .top := by
  cases a with
  | unlock => exact .inr ⟨rfl, rfl⟩
  | lock | request | resume | receive | notify | acquire | release | finish | keepalive | timerProc =>
    exact .inl rfl

theorem setThreads_timer (d : CDaemon) (a : Daemon.Input) (threads : Daemon)
    : (d.setThreads a threads).timer = d.timer
        ∨ a = .timerProc ∧ (d.setThreads a threads).timer = .top := by
  cases a with
  | timerProc => exact .inr ⟨rfl, rfl⟩
  | lock | request | resume | unlock | receive | notify | acquire | release | finish | keepalive =>
    exact .inl rfl

theorem radioExit_eq {d d' : CDaemon} {started : Bool} {point : ExitPoint}
    (hexit : d.radioExit started point = some d')
    : d'.main = d.main ∧ d'.server = d.server
        ∧ (d'.radio = .finished ∨ ∃ point', d'.radio = .onExit started point') := by
  cases point with
  | notifying =>
    simp only [CDaemon.radioExit, Option.ite_none_right_eq_some, Option.some.injEq] at hexit
    obtain ⟨-, rfl⟩ := hexit
    exact ⟨rfl, rfl, .inr ⟨_, rfl⟩⟩
  | broadcasting | flagging | stopping =>
    obtain rfl := Option.some.inj hexit
    exact ⟨rfl, rfl, .inr ⟨_, rfl⟩⟩
  | joining =>
    simp only [CDaemon.radioExit] at hexit
    split at hexit
    . obtain rfl := Option.some.inj hexit
      exact ⟨rfl, rfl, .inr ⟨_, rfl⟩⟩
    . simp only [Option.ite_none_right_eq_some, Option.some.injEq] at hexit
      obtain ⟨-, rfl⟩ := hexit
      exact ⟨rfl, rfl, .inr ⟨_, rfl⟩⟩
  | freeing =>
    obtain rfl := Option.some.inj hexit
    exact ⟨rfl, rfl, .inl rfl⟩

/--
What a step can do. `init`, `signal` and `poll` are split by what the thread finds.
-/
inductive StepEffect (d : CDaemon) : Input → CDaemon → Prop
  | thread (a : Daemon.Input) (threads : Daemon) (acts : List Action) (hruns : d.Runs a)
      (hstep : Daemon.machine.step d.threads a = some (threads, acts))
    : StepEffect d (.thread a) (d.setThreads a threads)
  | running (hlaunching : d.main = .launching) (hrunning : d.server.getState = .running)
    : StepEffect d .init { d with main := .running }
  | stopped (hlaunching : d.main = .launching) (hstopped : d.server.getState = .stopped)
    : StepEffect d .init { d with main := .stopping, serverShutdown := true }
  | killed (hlaunching : d.main = .launching) : StepEffect d .signal { d with killed := true }
  | signal (hrunning : d.main = .running)
    : StepEffect d .signal { d with main := .stopping, serverShutdown := true }
  | join (hstopping : d.main = .stopping) (hfinished : d.server = .finished)
    : StepEffect d .join { d with main := .deleting, server := .joined }
  | delete (hdeleting : d.main = .deleting) : StepEffect d .delete d.delete
  | found (hpolling : d.server = .polling) (hrunning : d.radio.getState = .running)
    : StepEffect d .poll { d with server := .asking }
  | failed (hpolling : d.server = .polling) (hstopped : d.radio.getState = .stopped)
    : StepEffect d .poll { d with server := .onExit false }
  | getPower (hasking : d.server = .asking)
    : StepEffect d .getPower
        { d with threads.sircon := (d.threads.sircon.send CSirCon.getPower).1, server := .top }
  | check (htop : d.server = .top)
    : StepEffect d .check { d with server := if d.serverShutdown then .onExit true else .pass }
  | serverExit (started : Bool) (hexit : d.server = .onExit started)
    : StepEffect d .serverExit { d with server := .finished, killed := d.main = .launching }
  | onStart (succeeded : Bool) (hstart : d.radio = .onStart) (hmutex : d.threads.mutex = none)
    : StepEffect d (.onStart succeeded) (d.onStart succeeded)
  | leave (failed : Bool) (hrun : d.radio = .onRun) (hreceiving : d.threads.radio = .receiving)
    : StepEffect d (.leave failed) { d with radio := .onExit true .notifying }
  | radioExit (started : Bool) (point : ExitPoint) (d' : CDaemon)
      (hpoint : d.radio = .onExit started point) (hexit : d.radioExit started point = some d')
    : StepEffect d .radioExit d'
  | tick (htop : d.timer = .top)
    : StepEffect d .tick { d with timer := if d.timerShutdown then .finished else .pass }
  | get (id : Nat) (hwaiting : d.threads.server = .waiting id) (hbroken : id ∈ d.broken)
    : StepEffect d .get { d with killed := true }

theorem stepEffect {d d' : CDaemon} {a : Input} {acts : List Action}
    (hstep : d.stepAlive a = some (d', acts))
    : StepEffect d a d' := by
  cases a with
  | thread a =>
    simp only [stepAlive, Option.ite_none_right_eq_some, Option.map_eq_some_iff, Prod.mk.injEq] at hstep
    obtain ⟨hruns, ⟨threads, acts'⟩, hstep, rfl, -⟩ := hstep
    exact .thread a threads acts' hruns hstep
  | init =>
    simp only [stepAlive, CDaemon.init, Option.ite_none_right_eq_some, Option.map_eq_some_iff,
      Prod.mk.injEq] at hstep
    obtain ⟨hlaunching, d', hinit, rfl, -⟩ := hstep
    split at hinit
    . simp at hinit
    . next hrunning =>
      obtain rfl := Option.some.inj hinit
      exact .running hlaunching hrunning
    . next hstopped =>
      obtain rfl := Option.some.inj hinit
      exact .stopped hlaunching hstopped
  | signal =>
    simp only [stepAlive, CDaemon.signal, Option.map_eq_some_iff, Prod.mk.injEq] at hstep
    obtain ⟨d', hsignal, rfl, -⟩ := hstep
    split at hsignal
    . next hlaunching =>
      obtain rfl := Option.some.inj hsignal
      exact .killed hlaunching
    . next hrunning =>
      obtain rfl := Option.some.inj hsignal
      exact .signal hrunning
    all_goals simp at hsignal
  | join =>
    simp only [stepAlive, Option.ite_none_right_eq_some, Option.some.injEq, Prod.mk.injEq] at hstep
    obtain ⟨⟨hstopping, hfinished⟩, rfl, -⟩ := hstep
    exact .join hstopping hfinished
  | delete =>
    simp only [stepAlive, Option.ite_none_right_eq_some, Option.some.injEq, Prod.mk.injEq] at hstep
    obtain ⟨hdeleting, rfl, -⟩ := hstep
    exact .delete hdeleting
  | poll =>
    simp only [stepAlive, CDaemon.poll, Option.ite_none_right_eq_some, Option.map_eq_some_iff,
      Prod.mk.injEq] at hstep
    obtain ⟨hpolling, d', hpoll, rfl, -⟩ := hstep
    split at hpoll
    . simp at hpoll
    . next hrunning =>
      obtain rfl := Option.some.inj hpoll
      exact .found hpolling hrunning
    . next hstopped =>
      obtain rfl := Option.some.inj hpoll
      exact .failed hpolling hstopped
  | getPower =>
    simp only [stepAlive, Option.ite_none_right_eq_some, Option.some.injEq, Prod.mk.injEq] at hstep
    obtain ⟨hasking, rfl, -⟩ := hstep
    exact .getPower hasking
  | check =>
    simp only [stepAlive, Option.ite_none_right_eq_some, Option.some.injEq, Prod.mk.injEq] at hstep
    obtain ⟨htop, rfl, -⟩ := hstep
    exact .check htop
  | serverExit =>
    simp only [stepAlive, Option.map_eq_some_iff, Prod.mk.injEq] at hstep
    obtain ⟨d', hexit, rfl, -⟩ := hstep
    generalize hserver : d.server = server at hexit
    cases server with
    | onExit started =>
      simp only [CDaemon.serverExit, Option.ite_none_right_eq_some, Option.some.injEq] at hexit
      obtain ⟨-, rfl⟩ := hexit
      exact .serverExit started hserver
    | polling | asking | top | pass | finished | joined => simp [CDaemon.serverExit] at hexit
  | onStart succeeded =>
    simp only [stepAlive, Option.ite_none_right_eq_some, Option.some.injEq, Prod.mk.injEq] at hstep
    obtain ⟨⟨hstart, hmutex⟩, rfl, -⟩ := hstep
    exact .onStart succeeded hstart hmutex
  | leave failed =>
    simp only [stepAlive, Option.ite_none_right_eq_some, Option.some.injEq, Prod.mk.injEq] at hstep
    obtain ⟨⟨hrun, hreceiving, -⟩, rfl, -⟩ := hstep
    exact .leave failed hrun hreceiving
  | radioExit =>
    simp only [stepAlive] at hstep
    split at hstep
    . next started point hpoint =>
      simp only [Option.map_eq_some_iff, Prod.mk.injEq] at hstep
      obtain ⟨d', hexit, rfl, -⟩ := hstep
      exact .radioExit started point d' hpoint hexit
    all_goals simp at hstep
  | tick =>
    simp only [stepAlive, Option.ite_none_right_eq_some, Option.some.injEq, Prod.mk.injEq] at hstep
    obtain ⟨htop, rfl, -⟩ := hstep
    exact .tick htop
  | get =>
    simp only [stepAlive, CDaemon.get, Option.map_eq_some_iff, Prod.mk.injEq] at hstep
    obtain ⟨d', hget, rfl, -⟩ := hstep
    split at hget
    . next id hwaiting =>
      simp only [Option.ite_none_right_eq_some, Option.some.injEq] at hget
      obtain ⟨hbroken, rfl⟩ := hget
      exact .get id hwaiting hbroken
    all_goals simp at hget

end CDaemon
