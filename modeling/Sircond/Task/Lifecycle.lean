import Sircond.Task.Impl

/-!
This module contains what the owner of a task may rely on between its calls, and in which histories of
calls the task keeps to it. `Start` gives up with the state it has already set, and nothing clears the
flag that `Stop` sets.
-/

open Machine

namespace CTask

abbrev TaskEntry := Entry CTask Input Output

def hasThread (t : CTask) : Bool := t.joinable && t.thread ≠ .finished

structure Consistent (e : TaskEntry) : Prop where
  stopped : e.post.hasThread = false → e.post.state = .stopped
  unchanged : .started false ∈ e.out → e.post = e.pre

/--
The run phase of a task that was stopped and started again begins without a request to shut down, so
that the loop is entered.
-/
def RunsAgain (tr : List TaskEntry) : Prop :=
  ∀ stop start run, [stop, start, run].Sublist tr →
    .stopped true ∈ stop.out → .started true ∈ start.out → run.input = .onStart true →
      run.post.isShutdown = false ∧ (machine.step run.post .body).isSome

structure Lifecycle (tr : List TaskEntry) : Prop where
  consistent : ∀ e ∈ tr, Consistent e
  runsAgain : RunsAgain tr

inductive TaskEffect (t : CTask) : Input → List Output → CTask → Prop
  | launched
    : TaskEffect t (.start true) [.started true] { t with state := .starting, thread := .onStart }
  | failed (hnone : t.joinable = false) (hstopped : t.state = .stopped)
    : TaskEffect t (.start false) [.started false] { t with state := .starting }
  | stop : TaskEffect t (.stop true) [] { t with shutdown := true, stopping := true }
  | refused : TaskEffect t (.stop false) [.stopped false] t
  | join (hstopping : t.stopping = true) (hended : t.hasThread = false)
    : TaskEffect t .join [.stopped true] { t with thread := .none, stopping := false }
  | shutdown : TaskEffect t .shutdown [] { t with shutdown := true }
  | run : TaskEffect t (.onStart true) [] { t with state := .running, thread := .onRun }
  | skip : TaskEffect t (.onStart false) [] { t with thread := .onExit }
  | body : TaskEffect t .body [] t
  | leave : TaskEffect t .onRun [] { t with thread := .onExit }
  | exit : TaskEffect t .onExit [] { t with state := .stopped, thread := .finished }

section Step

variable {t t' : CTask} {a : Input} {out : List Output}

theorem taskEffect (hstep : machine.step t a = some (t', out)) : TaskEffect t a out t' := by
  simp only [machine] at hstep
  cases a with
  | start created =>
    simp only [Option.ite_none_right_eq_some, Option.some.injEq, Prod.mk.injEq] at hstep
    rcases hstep with ⟨⟨-, hnone, hstopped⟩, rfl, rfl⟩
    cases created with
    | true => apply TaskEffect.launched
    | false => apply TaskEffect.failed hnone hstopped
  | stop onStop =>
    simp only [Option.ite_none_right_eq_some, Option.some.injEq] at hstep
    cases onStop with
    | true =>
      rcases Prod.mk.inj hstep.2 with ⟨rfl, rfl⟩
      apply TaskEffect.stop
    | false =>
      rcases Prod.mk.inj hstep.2 with ⟨rfl, rfl⟩
      apply TaskEffect.refused
  | join =>
    simp only [Option.ite_none_right_eq_some, Option.some.injEq] at hstep
    rcases hstep with ⟨⟨hstopping, hended⟩, hjoin⟩
    rcases Prod.mk.inj hjoin with ⟨rfl, rfl⟩
    apply TaskEffect.join hstopping
    unfold hasThread
    cases hjoinable : t.joinable with
    | false => rfl
    | true => simp [hended hjoinable]
  | shutdown =>
    rcases Prod.mk.inj (Option.some.inj hstep) with ⟨rfl, rfl⟩
    apply TaskEffect.shutdown
  | onStart succeeded =>
    simp only [Option.ite_none_right_eq_some, Option.some.injEq, Prod.mk.injEq] at hstep
    rcases hstep with ⟨-, rfl, rfl⟩
    cases succeeded with
    | true => apply TaskEffect.run
    | false => apply TaskEffect.skip
  | body =>
    simp only [Option.ite_none_right_eq_some, Option.some.injEq, Prod.mk.injEq] at hstep
    rcases hstep with ⟨-, rfl, rfl⟩
    apply TaskEffect.body
  | onRun =>
    simp only [Option.ite_none_right_eq_some, Option.some.injEq, Prod.mk.injEq] at hstep
    rcases hstep with ⟨-, rfl, rfl⟩
    apply TaskEffect.leave
  | onExit =>
    simp only [Option.ite_none_right_eq_some, Option.some.injEq, Prod.mk.injEq] at hstep
    rcases hstep with ⟨-, rfl, rfl⟩
    apply TaskEffect.exit

theorem TaskEffect.stopped_iff (h : TaskEffect t a out t') : .stopped true ∈ out ↔ a = .join := by
  cases h <;> simp

theorem TaskEffect.started_iff (h : TaskEffect t a out t') (launched : Bool)
    : .started launched ∈ out ↔ a = .start launched := by
  cases h <;> simp

theorem TaskEffect.shutdown_of (h : TaskEffect t a out t') (hshutdown : t.shutdown = true)
    : t'.shutdown = true := by
  cases h with
  | stop | shutdown => rfl
  | launched | failed | refused | join | run | skip | body | leave | exit => exact hshutdown

theorem TaskEffect.stopping (h : TaskEffect t a out t')
    (hinv : t.stopping = true → t.shutdown = true)
    : t'.stopping = true → t'.shutdown = true := by
  cases h with
  | stop | shutdown => exact fun _ => rfl
  | join => simp
  | launched | failed | refused | run | skip | body | leave | exit => exact hinv

/--
A step leaves the task consistent unless it is a `Start` that fails, and then further steps do.
-/
theorem TaskEffect.consistent_iff (h : TaskEffect t a out t')
    (hinv : t.hasThread = false → t.state = .stopped)
    : (Consistent ⟨t, a, out, t'⟩ ↔ a ≠ .start false)
        ∧ (a ≠ .start false → t'.hasThread = false → t'.state = .stopped) := by
  have hstopped : a ≠ .start false → t'.hasThread = false → t'.state = .stopped := by
    intro hne
    cases h with
    | failed => exact absurd rfl hne
    | launched | run | skip | leave => simp [hasThread, joinable]
    | exit => exact fun _ => rfl
    | join hstopping hended => exact fun _ => hinv hended
    | stop | refused | shutdown | body => exact hinv
  refine ⟨⟨?_, ?_⟩, hstopped⟩
  . rintro hcons rfl
    cases h with
    | failed hnone =>
      have hended : t.hasThread = false := by
        unfold hasThread
        rw [hnone]
        rfl
      have hstarting := hcons.stopped hended
      simp at hstarting
  . intro hne
    refine ⟨hstopped hne, ?_⟩
    intro hfailed
    exact absurd ((h.started_iff false).mp hfailed) hne

end Step

section Run

variable {tr : List TaskEntry} {t : CTask}

theorem taskEffect_of_mem (hrun : machine.Run new tr t) {e : TaskEntry} (he : e ∈ tr)
    : TaskEffect e.pre e.input e.out e.post := by
  rcases hrun.of_mem he with ⟨-, -, hstep⟩
  apply taskEffect hstep

theorem shutdown_of_stopping (hrun : machine.Run new tr t)
    : t.stopping = true → t.shutdown = true := by
  apply hrun.invariant (I := fun _ t => t.stopping = true → t.shutdown = true)
  . intro h
    simp [new] at h
  . intro tr s a s' out hinv hstep
    apply (taskEffect hstep).stopping hinv

theorem shutdown_of_join (hrun : machine.Run new tr t) {e : TaskEntry} (he : e ∈ tr)
    (hjoin : e.input = .join)
    : e.post.shutdown = true := by
  rcases hrun.of_mem he with ⟨tr₁, hrun₁, hstep⟩
  have heffect := taskEffect hstep
  rw [hjoin] at heffect
  generalize e.post = s', e.out = out at heffect
  cases heffect with
  | join hstopping _ => apply shutdown_of_stopping hrun₁ hstopping

theorem runsAgain_iff (hrun : machine.Run new tr t)
    : RunsAgain tr ↔ ¬ [.join, .start true, .onStart true].Sublist (inputs tr) := by
  constructor
  . intro hagain hsub
    rcases List.sublist_map_iff.mp hsub with ⟨es, hes, hinputs⟩
    rcases es with _ | ⟨stop, _ | ⟨start, _ | ⟨run, _ | ⟨e, es⟩⟩⟩⟩
    any_goals simp at hinputs
    have hstop : stop ∈ tr := hes.subset (by simp)
    have hstart : start ∈ tr := hes.subset (by simp)
    have hpairs := (hrun.pairwise (P := fun t => t.shutdown = true)
      fun _ _ _ _ hstep => (taskEffect hstep).shutdown_of).sublist hes
    simp only [List.pairwise_cons] at hpairs
    have hshutdown := hpairs.1 run (by simp) (shutdown_of_join hrun hstop hinputs.1.symm)
    have hfalse := (hagain stop start run hes
      ((taskEffect_of_mem hrun hstop).stopped_iff.mpr hinputs.1.symm)
      (((taskEffect_of_mem hrun hstart).started_iff true).mpr hinputs.2.1.symm) hinputs.2.2.symm).1
    unfold isShutdown at hfalse
    rw [hshutdown] at hfalse
    simp at hfalse
  . intro hnot stop start run hsub hstopped hstarted hruns
    have hstop := taskEffect_of_mem hrun (hsub.subset (show stop ∈ [stop, start, run] by simp))
    have hstart := taskEffect_of_mem hrun (hsub.subset (show start ∈ [stop, start, run] by simp))
    have hinputs := hsub.map Entry.input
    rw [List.map_cons, List.map_cons, List.map_singleton, hstop.stopped_iff.mp hstopped,
      (hstart.started_iff true).mp hstarted, hruns] at hinputs
    exact absurd hinputs hnot

end Run

/--
A task keeps to its life cycle if and only if no `Start` fails and no `Start` after a `Stop` leads to a
run phase.
-/
theorem lifecycle_iff {tr : List TaskEntry} {t : CTask} (hrun : machine.Run new tr t)
    : Lifecycle tr
        ↔
      .start false ∉ inputs tr ∧ ¬ [.join, .start true, .onStart true].Sublist (inputs tr) := by
  have hconsistent : (∀ e ∈ tr, Consistent e) ↔ ∀ e ∈ tr, e.input ≠ .start false := by
    apply hrun.forall_iff (I := fun t => t.hasThread = false → t.state = .stopped)
    . exact fun _ => rfl
    . intro s a s' out hinv hstep
      apply (taskEffect hstep).consistent_iff hinv
  have hnotMem : .start false ∉ inputs tr ↔ ∀ e ∈ tr, e.input ≠ .start false := by
    simp [inputs]
  rw [hnotMem, ← hconsistent, ← runsAgain_iff hrun]
  constructor
  . intro h
    exact ⟨h.consistent, h.runsAgain⟩
  . intro h
    exact ⟨h.1, h.2⟩

theorem lifecycle_iff_stopped
    : ∃ tr t,
        machine.Run new tr t
          ∧ inputs tr = [.start true, .onStart true, .body, .stop true, .onRun, .onExit, .join,
              .start true, .onStart false, .onExit, .stop true, .join]
          ∧ t.state = .stopped ∧ Lifecycle tr := by
  rcases exists_run (show (machine.exec new [.start true, .onStart true, .body, .stop true, .onRun,
    .onExit, .join, .start true, .onStart false, .onExit, .stop true, .join]).any
    (fun r => r.2.state = .stopped) = true by decide) with ⟨tr, t, hrun, hin, hstopped⟩
  refine ⟨tr, t, hrun, hin, hstopped, (lifecycle_iff hrun).mpr ?_⟩
  rw [hin]
  decide

theorem failed_start_and_restart
    : (∃ tr t,
        machine.Run new tr t ∧ inputs tr = [.start false] ∧ outputs tr = [.started false]
          ∧ t.hasThread = false ∧ t.state = .starting ∧ ¬ Lifecycle tr)
        ∧
      ∃ tr t,
        machine.Run new tr t
          ∧ inputs tr = [.start true, .onStart true, .body, .stop true, .onRun, .onExit, .join,
              .start true, .onStart true]
          ∧ t.isShutdown = true ∧ machine.step t .body = none ∧ ¬ Lifecycle tr := by
  constructor
  . rcases exists_run (show (machine.exec new [.start false]).any
      (fun r => outputs r.1 = [.started false] ∧ r.2.hasThread = false ∧ r.2.state = .starting
        ∧ ∃ e ∈ r.1, e.post.hasThread = false ∧ e.post.state = .starting) = true by decide) with
      ⟨tr, t, hrun, hin, hcheck⟩
    rcases hcheck with ⟨hout, hended, hstarting, e, he, hended', hstarting'⟩
    refine ⟨tr, t, hrun, hin, hout, hended, hstarting, ?_⟩
    intro h
    have hstopped := (h.consistent e he).stopped hended'
    rw [hstarting'] at hstopped
    simp at hstopped
  . rcases exists_run (show (machine.exec new [.start true, .onStart true, .body, .stop true, .onRun,
      .onExit, .join, .start true, .onStart true]).any
      (fun r => r.2.isShutdown = true ∧ machine.step r.2 .body = none) = true by decide) with
      ⟨tr, t, hrun, hin, hcheck⟩
    refine ⟨tr, t, hrun, hin, hcheck.1, hcheck.2, ?_⟩
    intro h
    apply (runsAgain_iff hrun).mp h.runsAgain
    rw [hin]
    decide

end CTask
