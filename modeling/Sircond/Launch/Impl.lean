import Sircond.Daemon.Impl
import Sircond.Task.Impl

/-!
This module contains the life of the process: the main thread, which launches the server and deletes
it when a signal has come, and around what the threads of `Daemon` do, how they start and how they end.

The process is taken up where `CSirServer::OnStart` has just started the thread of the radio interface
and begins to poll its state. A signal ends the process at once as long as the main thread has not
blocked it. The exception that `get` throws for a broken promise is caught nowhere, so that it ends the
process as well. When the server is deleted, the port of the radio interface and its members go first,
and only then does `~CTask` join the thread that works on them. What a thread does that is still running
then, and what happens after the server has been deleted, is not part of the model.
-/

open Machine Scp CSirCon

/--
The main thread is `deleting` when the server is about to be deleted, and `destroying` when it has begun
with that under the thread of the radio interface.
-/
inductive MainThread where
  | launching
  | running
  | stopping
  | deleting
  | destroying
  | deleted
  deriving DecidableEq, Repr

/--
Where the thread of the server is. In `OnStart` it polls the radio interface, which it has found running
when it is `asking` for the power; in `OnRun` it is at the condition of the loop or in a pass of it.
-/
inductive ServerThread where
  | polling
  | asking
  | top
  | pass
  | onExit (started : Bool)
  | finished
  | joined
  deriving DecidableEq, Repr

inductive ExitPoint where
  | notifying
  | broadcasting
  | flagging
  | stopping
  | joining
  | freeing
  deriving DecidableEq, Repr

inductive RadioThread where
  | onStart
  | onRun
  | onExit (started : Bool) (point : ExitPoint)
  | finished
  deriving DecidableEq, Repr

inductive TimerThread where
  | none
  | top
  | pass
  | finished
  | joined
  deriving DecidableEq, Repr

namespace MainThread

def isOver : MainThread → Bool
  | destroying | deleted => true
  | launching | running | stopping | deleting => false

end MainThread

namespace ServerThread

def getState : ServerThread → CTask.State
  | polling | asking | onExit false => .starting
  | top | pass | onExit true => .running
  | finished | joined => .stopped

end ServerThread

namespace RadioThread

def getState : RadioThread → CTask.State
  | onStart | onExit false _ => .starting
  | onRun | onExit true _ => .running
  | finished => .stopped

end RadioThread

namespace TimerThread

def joinable : TimerThread → Bool
  | none | joined => false
  | top | pass | finished => true

end TimerThread

/-- `broken` are the promises that have been deleted without a value. -/
structure CDaemon where
  threads : Daemon
  main : MainThread
  server : ServerThread
  serverShutdown : Bool
  radio : RadioThread
  timer : TimerThread
  timerShutdown : Bool
  broken : List Nat
  killed : Bool
  deriving DecidableEq

namespace CDaemon

def launch (sircon : CSirCon) : CDaemon where
  threads := .start sircon
  main := .launching
  server := .polling
  serverShutdown := false
  radio := .onStart
  timer := .none
  timerShutdown := false
  broken := []
  killed := false

inductive Input where
  | thread (a : Daemon.Input)
  | init
  | signal
  | join
  | delete
  | poll
  | getPower
  | check
  | serverExit
  | onStart (succeeded : Bool)
  | leave (failed : Bool)
  | radioExit
  | tick
  | get

/-- Which thread takes a step, and whether it is where it takes steps of this kind. -/
def Runs (d : CDaemon) : Daemon.Input → Prop
  | .lock => d.server = .pass
  | .request _ | .resume | .unlock => True
  | .receive _ _ | .notify | .acquire | .release | .finish | .keepalive => d.radio = .onRun
  | .timerProc => d.timer = .pass

instance (d : CDaemon) : (a : Daemon.Input) → Decidable (d.Runs a)
  | .lock => inferInstanceAs (Decidable (d.server = .pass))
  | .request _ | .resume | .unlock => .isTrue trivial
  | .receive _ _ | .notify | .acquire | .release | .finish | .keepalive =>
    inferInstanceAs (Decidable (d.radio = .onRun))
  | .timerProc => inferInstanceAs (Decidable (d.timer = .pass))

def setThreads (d : CDaemon) (a : Daemon.Input) (threads : Daemon) : CDaemon :=
  match a with
  | .unlock => { d with threads, server := .top }
  | .timerProc => { d with threads, timer := .top }
  | .lock | .request _ | .resume | .receive _ _ | .notify | .acquire | .release | .finish
  | .keepalive => { d with threads }

/-- `Init`, which polls the state of the server and returns whether it is running. -/
def init (d : CDaemon) : Option CDaemon :=
  match d.server.getState with
  | .starting => none
  | .running => some { d with main := .running }
  | .stopped => some { d with main := .stopping, serverShutdown := true }

def signal (d : CDaemon) : Option CDaemon :=
  match d.main with
  | .launching => some { d with killed := true }
  | .running => some { d with main := .stopping, serverShutdown := true }
  | .stopping | .deleting | .destroying | .deleted => none

def poll (d : CDaemon) : Option CDaemon :=
  match d.radio.getState with
  | .starting => none
  | .running => some { d with server := .asking }
  | .stopped => some { d with server := .onExit false }

def serverExit (d : CDaemon) : ServerThread → Option CDaemon
  | .onExit _ =>
    if d.threads.mutex = none then
      -- The server sends a signal to its own process.
      some { d with server := .finished, killed := d.main = .launching }
    else
      none
  | .polling | .asking | .top | .pass | .finished | .joined => none

def onStart (d : CDaemon) (succeeded : Bool) : CDaemon :=
  if succeeded then
    { d with radio := .onRun, timer := .top }
  else
    { d with radio := .onExit false .notifying }

def radioExit (d : CDaemon) (started : Bool) : ExitPoint → Option CDaemon
  | .notifying =>
    if d.threads.mutex = none then
      some { d with threads.mutex := some .radio, radio := .onExit started .broadcasting }
    else
      none
  | .broadcasting => some { d with threads.mutex := none, radio := .onExit started .flagging }
  | .flagging => some { d with serverShutdown := true, radio := .onExit started .stopping }
  | .stopping => some { d with timerShutdown := true, radio := .onExit started .joining }
  | .joining =>
    if d.timer.joinable = false then
      some { d with radio := .onExit started .freeing }
    else if d.timer = .finished then
      some { d with timer := .joined, radio := .onExit started .freeing }
    else
      none
  | .freeing =>
    some {
      d with
      threads.sircon := d.threads.sircon.onExit.1
      broken := d.broken ++ queued d.threads.sircon
      radio := .finished
    }

def delete (d : CDaemon) : CDaemon :=
  -- A thread that has ended is joined at once, and has joined that of the timer itself.
  { d with main := if d.radio = .finished then .deleted else .destroying }

def get (d : CDaemon) : ServerPoint → Option CDaemon
  | .waiting id => if id ∈ d.broken then some { d with killed := true } else none
  | .select | .processing => none

def stepAlive (d : CDaemon) : Input → Option (CDaemon × List Action)
  | .thread a =>
    if d.Runs a then
      (Daemon.machine.step d.threads a).map fun (threads, acts) => (d.setThreads a threads, acts)
    else
      none
  | .init => if d.main = .launching then d.init.map (·, []) else none
  | .signal => d.signal.map (·, [])
  | .join =>
    if d.main = .stopping ∧ d.server = .finished then
      some ({ d with main := .deleting, server := .joined }, [])
    else
      none
  | .delete => if d.main = .deleting then some (d.delete, []) else none
  | .poll => if d.server = .polling then d.poll.map (·, []) else none
  | .getPower =>
    if d.server = .asking then
      let sircon := (d.threads.sircon.send CSirCon.getPower).1
      some ({ d with threads.sircon := sircon, server := .top }, [])
    else
      none
  | .check =>
    if d.server = .top then
      some ({ d with server := if d.serverShutdown then .onExit true else .pass }, [])
    else
      none
  | .serverExit => (d.serverExit d.server).map (·, [])
  | .onStart succeeded =>
    if d.radio = .onStart ∧ d.threads.mutex = none then some (d.onStart succeeded, []) else none
  | .leave failed =>
    if d.radio = .onRun ∧ d.threads.radio = .receiving ∧ (failed ∨ d.threads.sircon.shutdown) then
      some ({ d with radio := .onExit true .notifying }, [])
    else
      none
  | .radioExit =>
    match d.radio with
    | .onExit started point => (d.radioExit started point).map (·, [])
    | .onStart | .onRun | .finished => none
  | .tick =>
    if d.timer = .top then
      some ({ d with timer := if d.timerShutdown then .finished else .pass }, [])
    else
      none
  | .get => (d.get d.threads.server).map (·, [])

def machine : Machine CDaemon Input Action where
  step d a := if d.killed = true ∨ d.main.isOver = true then none else d.stepAlive a

end CDaemon
