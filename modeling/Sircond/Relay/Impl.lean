import Sircond.SirCon.Caching
import Sircond.SirServer.Gateway

/-!
This module contains the way of the events from the frames of the radio to the clients. The radio
thread takes a frame, decodes its payload and passes the events to `Notify` one after the other, and
takes the next frame when the server has been updated with all of them. In between the timer and the
server thread do what they do, and requests are queued.

`handling` are the notices that the radio thread has still to pass on. It notifies the end of the radio
interface in the same way, and frees the send queue afterwards. As for the observer alone, the runs are
those in which no result of a GET or SET request is passed on while the server thread works on its
clients: only these results go to a client without the lock of the server.
-/

open Scp Machine CSirCon

structure Relay where
  sircon : CSirCon
  cache : Cache
  handling : List Notice
  exited : Bool
  observer : Observer
  deriving DecidableEq

namespace Relay

def start (block : List UInt8) (now : Nat) (sock : Int) : Relay where
  sircon := .new block now
  cache := .new
  handling := []
  exited := false
  observer := .new sock

inductive Input where
  | send (data : Payload)
  | timerProc
  | receive (msg : List UInt8) (after : Memory)
  | notify
  | onExit
  | free
  | server (a : CSirServer.Input)

def receive (s : Relay) (msg : List UInt8) (after : Memory) : Relay :=
  let (sircon, acts) := s.sircon.onFrame msg
  let (cache, ds) := s.cache.dispatchAll after (dispatched acts)
  { s with sircon, cache, handling := (ds.flatMap Dispatched.events).map .event }

def idle (s : Relay) : Bool := s.handling = [] && !s.exited

def machine : Machine Relay Input Effect where
  step s
    | .send data => some ({ s with sircon := (s.sircon.send data).1 }, [])
    | .timerProc => some ({ s with sircon := s.sircon.timerProc.1 }, [])
    | .receive msg after => if ValidFrame msg ∧ s.idle then some (s.receive msg after, []) else none
    | .notify =>
      match s.handling with
      | [] => none
      | n :: handling =>
        let (observer, effects) := s.observer.update n
        some ({ s with handling, observer }, effects)
    | .onExit => if s.idle then some ({ s with handling := [.shutdown], exited := true }, []) else none
    | .free =>
      if s.handling = [] ∧ s.exited then some ({ s with sircon := s.sircon.onExit.1 }, []) else none
    | .server a =>
      (Observer.machine.step s.observer (.server a)).map fun (observer, effects) =>
        ({ s with observer }, effects)

end Relay
