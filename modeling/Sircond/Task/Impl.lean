import Sircond.Lib.Machine

/-!
This module contains a task: the calls of its owner, and what its thread does from its start to its
end.

The owner makes one call after the other. `Stop` waits for the end of the thread, so that it takes two
steps, `stop` and `join`, and the thread takes steps of its own between them. A call of `Start` outside
of its assertions is no step.
-/

open Machine

namespace CTask

inductive State where
  | starting
  | running
  | stopped
  deriving DecidableEq, Repr

/--
How far the thread is. A thread that has finished is still there to be joined.
-/
inductive Thread where
  | none
  | onStart
  | onRun
  | onExit
  | finished
  deriving DecidableEq, Repr

end CTask

structure CTask where
  state : CTask.State
  shutdown : Bool
  thread : CTask.Thread
  stopping : Bool
  deriving DecidableEq, Repr

namespace CTask

def new : CTask where
  state := .stopped
  shutdown := false
  thread := .none
  stopping := false

def isShutdown (t : CTask) : Bool := t.shutdown

def joinable (t : CTask) : Bool := t.thread ≠ .none

def doShutdown (t : CTask) : CTask := { t with shutdown := true }

def start (t : CTask) (created : Bool) : CTask × Bool :=
  let t := { t with state := .starting }
  if created then
    ({ t with thread := .onStart }, true)
  else
    (t, false)

inductive Output where
  | started (launched : Bool)
  | stopped (terminated : Bool)
  deriving DecidableEq, Repr

def stop (t : CTask) (onStop : Bool) : CTask × List Output :=
  if onStop then
    ({ t.doShutdown with stopping := true }, [])
  else
    (t, [.stopped false])

def join (t : CTask) : CTask × List Output :=
  ({ t with thread := .none, stopping := false }, [.stopped true])

def run (t : CTask) (onStart : Bool) : CTask :=
  if onStart then
    { t with state := .running, thread := .onRun }
  else
    -- If the signals cannot be blocked, `OnStart` is not called, and `Run` goes on as if it had failed.
    { t with thread := .onExit }

inductive Input where
  | start (created : Bool)
  | stop (onStop : Bool)
  | join
  | shutdown
  | onStart (succeeded : Bool)
  | body
  | onRun
  | onExit
  deriving DecidableEq, Repr

def machine : Machine CTask Input Output where
  step t
    | .start created =>
      if t.stopping = false ∧ t.joinable = false ∧ t.state = .stopped then
        let (t, launched) := t.start created
        some (t, [.started launched])
      else
        none
    | .stop onStop => if t.stopping = false then some (t.stop onStop) else none
    | .join =>
      if t.stopping = true ∧ (t.joinable = true → t.thread = .finished) then
        some t.join
      else
        none
    | .shutdown => some (t.doShutdown, [])
    | .onStart succeeded => if t.thread = .onStart then some (t.run succeeded, []) else none
    -- One pass of the loop in `OnRun`, which every task leaves as soon as `IsShutdown` says so.
    | .body => if t.thread = .onRun ∧ t.isShutdown = false then some (t, []) else none
    | .onRun => if t.thread = .onRun then some ({ t with thread := .onExit }, []) else none
    | .onExit =>
      if t.thread = .onExit then
        some ({ t with state := .stopped, thread := .finished }, [])
      else
        none

end CTask
