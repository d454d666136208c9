import Sircond.SirCon.Machine
import Sircond.SirCon.Impl.Request
import Sircond.SirCon.Lemmas.Decoder

/-!
This module contains the three threads of the daemon and what they wait for: the server thread, which
holds the mutex of the server while it processes what clients have sent, the radio thread, which
handles one frame at a time, and the timer thread.

A step is a piece of a thread between two points at which it may have to wait: the mutex of the server
and the future of a request. The lock of the send queue is never held across such a point, so that
what is done under it is part of one step. A data frame has its sequence number noted when all of its
events have been handled. `done` are the promises that have been set.
-/

open Scp CSirCon

inductive Handling where
  | notifyAll
  | notify
  | setPower
  | unhandled
  deriving DecidableEq, Repr

/-- What `CSirServer::Update` does with an event: two kinds of event have no handler. -/
def SCEvent.update : SCEvent → Handling
  | .reset => .setPower
  | .getResult _ | .setResult _ => .notify
  | .songID _ | .antenna _ => .unhandled
  | .siriusID _ | .gain _ | .mute _ | .songInfo _ | .channel _ | .channelInfo _ | .channelMap _
  | .status _ | .rssi _ | .signal _ | .power _ | .timeZoneInfo _ | .time _ => .notifyAll

inductive Thread where
  | server
  | radio
  deriving DecidableEq, Repr

inductive ServerPoint where
  | select
  | processing
  | waiting (id : Nat)
  deriving DecidableEq, Repr

inductive RadioPoint where
  | receiving
  | handling (msg : List UInt8) (events : List SCEvent)
  | locking (msg : List UInt8) (events : List SCEvent)
  | sending (msg : List UInt8) (events : List SCEvent)
  deriving DecidableEq

structure Daemon where
  sircon : CSirCon
  cache : Cache
  mutex : Option Thread
  server : ServerPoint
  radio : RadioPoint
  done : List (Nat × SCResult)
  deriving DecidableEq

namespace Daemon

def start (sircon : CSirCon) : Daemon where
  sircon := sircon
  cache := .new
  mutex := none
  server := .select
  radio := .receiving
  done := []

inductive Input where
  | lock
  | request (data : Payload)
  | resume
  | unlock
  | receive (msg : List UInt8) (after : Memory)
  | notify
  | acquire
  | release
  | finish
  | keepalive
  | timerProc

def dispatch (cache : Cache) (acts : List Action) (after : Memory) : Cache × List SCEvent :=
  match dispatched acts with
  | payload :: _ => (cache.dispatch 0 payload.length).value (memory payload after)
  | [] => (cache, [])

def receive (d : Daemon) (msg : List UInt8) (after : Memory) : Daemon × List Action :=
  let (sircon, acts) := d.sircon.onFrame msg
  if (SHdr.ofBytes msg).flags &&& sfAck ≠ 0 then
    ({ d with sircon, done := d.done ++ resolved acts }, acts)
  else
    let (cache, events) := dispatch d.cache acts after
    ({ d with cache, radio := .handling msg events }, acts)

def notify (d : Daemon) (msg : List UInt8) (e : SCEvent) (events : List SCEvent) : Daemon :=
  match e.update with
  | .notifyAll => { d with radio := .locking msg events }
  | .setPower =>
    { d with sircon := (d.sircon.send (setPower 0x03)).1, radio := .handling msg events }
  | .notify | .unhandled => { d with radio := .handling msg events }

def machine : Machine Daemon Input Action where
  step d
    | .lock =>
      if d.server = .select ∧ d.mutex = none then
        some ({ d with server := .processing, mutex := some .server }, [])
      else
        none
    | .request data =>
      if d.server = .processing then
        let (sircon, id) := d.sircon.send data
        some ({ d with sircon, server := .waiting id }, [])
      else
        none
    | .resume =>
      match d.server with
      | .waiting id =>
        if id ∈ d.done.map Prod.fst then some ({ d with server := .processing }, []) else none
      | .select | .processing => none
    | .unlock =>
      if d.server = .processing then
        some ({ d with server := .select, mutex := none }, [])
      else
        none
    | .receive msg after =>
      if d.radio = .receiving ∧ ValidFrame msg then some (d.receive msg after) else none
    | .notify =>
      match d.radio with
      | .handling msg (e :: events) => some (d.notify msg e events, [])
      | .handling _ [] | .receiving | .locking _ _ | .sending _ _ => none
    | .acquire =>
      match d.radio with
      | .locking msg events =>
        if d.mutex = none then
          some ({ d with radio := .sending msg events, mutex := some .radio }, [])
        else
          none
      | .handling _ _ | .receiving | .sending _ _ => none
    | .release =>
      match d.radio with
      | .sending msg events => some ({ d with radio := .handling msg events, mutex := none }, [])
      | .handling _ _ | .receiving | .locking _ _ => none
    | .finish =>
      match d.radio with
      | .handling msg [] =>
        some ({ d with sircon := (d.sircon.onFrame msg).1, radio := .receiving }, [])
      | .handling _ (_ :: _) | .receiving | .locking _ _ | .sending _ _ => none
    | .keepalive =>
      if d.radio = .receiving then
        some ({ d with sircon := (d.sircon.send getRSSI).1 }, [])
      else
        none
    | .timerProc =>
      let (sircon, acts) := d.sircon.timerProc
      some ({ d with sircon, done := d.done ++ resolved acts }, acts)

end Daemon
