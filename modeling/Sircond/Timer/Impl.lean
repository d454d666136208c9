import Sircond.Lib.Machine

/-!
This module contains the timer manager: its list of timers, the operations on it, and one pass of its
loop over the list. The instance data and the callback of a timer are addresses.

Each operation takes the lock for as long as it works on the list, so it is one step.
-/

open Machine

abbrev HTimer := UInt32

def minSleepTime : UInt32 := 100

structure TimerRec where
  handle : HTimer
  count : UInt32
  interval : UInt32
  inst : Nat
  callback : Nat
  deriving DecidableEq, Repr

structure CTimer where
  timers : List TimerRec
  sleepTime : UInt32
  sequence : UInt32
  deriving DecidableEq, Repr

namespace CTimer

def new : CTimer where
  timers := []
  sleepTime := minSleepTime
  sequence := 0

/--
What can be seen of the timer manager: the handle it returns, and the calls it makes.
-/
inductive Output where
  | created (handle : HTimer)
  | call (callback inst : Nat)
  deriving DecidableEq, Repr

def create (t : CTimer) (interval : UInt32) (inst callback : Nat) : CTimer × HTimer :=
  let r : TimerRec := {
    handle := t.sequence
    interval
    inst
    callback
    count := interval / t.sleepTime
  }
  ({ t with timers := t.timers ++ [r], sequence := t.sequence + 1 }, r.handle)

def destroy.go (h : HTimer) : List TimerRec → List TimerRec
  | [] => []
  | r :: rs => if h = r.handle then rs else r :: go h rs

def destroy (t : CTimer) (h : HTimer) : CTimer := { t with timers := destroy.go h t.timers }

def restart.go (sleepTime : UInt32) (h : HTimer) : List TimerRec → List TimerRec
  | [] => []
  | r :: rs =>
    if h = r.handle then
      { r with count := r.interval / sleepTime } :: rs
    else
      r :: go sleepTime h rs

def restart (t : CTimer) (h : HTimer) : CTimer :=
  { t with timers := restart.go t.sleepTime h t.timers }

def onRun.go (sleepTime : UInt32) : List TimerRec → List TimerRec × List Output
  | [] => ([], [])
  | r :: rs =>
    let (rs, calls) := go sleepTime rs
    let r := { r with count := r.count - 1 }
    if r.count = 0 then
      ({ r with count := r.interval / sleepTime } :: rs, .call r.callback r.inst :: calls)
    else
      (r :: rs, calls)

def onRun (t : CTimer) : CTimer × List Output :=
  let (timers, calls) := onRun.go t.sleepTime t.timers
  ({ t with timers }, calls)

inductive Input where
  | create (interval : UInt32) (inst callback : Nat)
  | restart (h : HTimer)
  | destroy (h : HTimer)
  | pass
  deriving DecidableEq, Repr

def machine : Machine CTimer Input Output where
  step t
    | .create interval inst callback =>
      let (t, h) := t.create interval inst callback
      some (t, [.created h])
    | .restart h => some (t.restart h, [])
    | .destroy h => some (t.destroy h, [])
    | .pass => some t.onRun

end CTimer
