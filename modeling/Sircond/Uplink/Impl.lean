import Sircond.SirCon.StopAndWait.Net
import Sircond.SirServer.Access
import Sircond.SirServer.Impl.OnRun

/-!
This module contains the way of a command from a client to the radio and of the answer back: the server
thread, which processes one command after the other, and the radio interface with its peer at the other
end of the two links.

The peer stands for the radio, whose own program is not at hand: it runs the same receiver as the radio
interface, sends no frames but acknowledgements, and is never busy.

A command that makes a request is processed in two steps: it queues the frame and waits for its future,
and is resumed when the promise has been set. The server thread does nothing else in between. What the
timer, the radio thread and the links do is a step of the network; a request that the radio thread
makes on its own is one, too.
-/

open Scp Machine CSirCon

/-- The request that a command makes of the radio, before it has a result. -/
def CSirServer.asks (s : CSirServer) (client : ClientPtr) (cmd : List UInt8) (currChannel : UInt8)
    : Option Payload :=
  (sent (s.processCommand ⟨currChannel, .success⟩ client cmd).2).head?

structure Waiting where
  client : ClientPtr
  id : Nat
  deriving DecidableEq, Repr

structure Uplink where
  net : Net
  server : CSirServer
  waiting : Option Waiting
  done : List (Nat × SCResult)
  deriving DecidableEq

namespace Uplink

def start (a b : CSirCon) (sock : Int) : Uplink where
  net := .start a b
  server := .new sock
  waiting := none
  done := []

inductive Input where
  | net (a : Net.Input)
  | connect (sock : Int)
  | command (client : ClientPtr) (cmd : List UInt8) (currChannel : UInt8)
  | resume

inductive Event where
  | net (e : Net.Event)
  | effect (e : Effect)
  deriving DecidableEq

def results (events : List Net.Event) : List (Nat × SCResult) :=
  events.filterMap fun
    | .resolve id rc => some (id, rc)
    | .dispatch _ _ => none

def machine : Machine Uplink Input Event where
  step s
    | .net a =>
      (Net.machine.step s.net a).map fun (net, events) =>
        ({ s with net, done := s.done ++ results events }, events.map .net)
    | .connect sock =>
      if s.waiting = none ∧ sock ≠ -1 then
        some ({ s with server := s.server.onConnect sock }, [])
      else
        none
    | .command client cmd currChannel =>
      if s.waiting = none ∧ client < s.server.heap.length then
        match s.server.asks client cmd currChannel with
        | some data =>
          let (a, id) := s.net.a.send data
          some ({ s with net := { s.net with a }, waiting := some ⟨client, id⟩ }, [])
        | none =>
          let (server, effects) := s.server.processCommand ⟨currChannel, .success⟩ client cmd
          some ({ s with server }, effects.map .effect)
      else
        none
    | .resume =>
      match s.waiting with
      | some w =>
        match s.done.lookup w.id with
        | some rc =>
          let (server, effects) := s.server.notifyResult w.client rc
          some ({ s with server, waiting := none }, effects.map .effect)
        | none => none
      | none => none

end Uplink
