import Sircond.SirServer.Impl.Client
import Sircond.Scp.Basic
import Sircond.Util.Basic

/-!
This module contains the state of the server and the arbitration of control among its clients: who
may change settings of the radio, and who waits for it.

The effects of the server are the messages passed to `Notify` and the requests sent to the radio. A
client is a pointer to its record, the index of the record in `heap`. A record is never freed
while the server runs, so the pointer of a dropped client stays valid.
-/

open Scp

abbrev ClientPtr := Nat

inductive Effect where
  | notify (client : ClientPtr) (msg : List UInt8)
  | send (data : Payload)
  deriving DecidableEq

structure CSirServer where
  sock : Int
  fds : List Int
  highsock : Int
  bufsize : Nat
  heap : List Client
  clients : List ClientPtr
  controller : Option ClientPtr
  controlQueue : List ClientPtr
  deriving DecidableEq

namespace CSirServer

def sircondBufsize : Nat := 512

def new (sock : Int) : CSirServer where
  sock := sock
  fds := [sock]
  highsock := sock
  bufsize := sircondBufsize
  heap := []
  clients := []
  controller := none
  controlQueue := []

def isDead (s : CSirServer) (client : ClientPtr) : Bool := s.heap[client]?.all Client.isDead

def getSock (s : CSirServer) (client : ClientPtr) : Int := (s.heap[client]?.map Client.sock).getD (-1)

def notify (s : CSirServer) (client : Option ClientPtr) (msg : List UInt8)
    : CSirServer × List Effect :=
  match client with
  | none => (s, [])
  | some client =>
    -- The length is passed on in 32 bits.
    let buf := msg.take (msg.length % UInt32.size)
    ({ s with heap := s.heap.modify client fun c => (c.send buf).1 }, [.notify client msg])

def isWaitingForControl (s : CSirServer) (client : ClientPtr) : Bool := client ∈ s.controlQueue

def hasControl (s : CSirServer) (client : ClientPtr) : Bool := some client = s.controller

def acquireControl (s : CSirServer) (client : ClientPtr) : CSirServer × Bool :=
  -- If nobody currently has the conn, take it now.
  if s.controller = none && s.controlQueue.isEmpty then
    ({ s with controller := some client }, true)
  else if s.hasControl client then
    (s, true)
  else if !s.isWaitingForControl client then
    ({ s with controlQueue := s.controlQueue ++ [client] }, false)
  else
    (s, false)

def releaseControl (s : CSirServer) (client : ClientPtr) : CSirServer × List Effect :=
  if s.hasControl client then
    match s.controlQueue with
    | [] => ({ s with controller := none }, [])
    | front :: rest =>
      { s with controller := some front, controlQueue := rest }.notify (some front)
        (ascii "CONTROL,ACQUIRED\n")
  else
    ({ s with controlQueue := s.controlQueue.filter fun c => c ≠ client }, [])

/--
The descriptor of a dead client is -1, which is in no set: it is left out here, where `FD_CLR` is out of
bounds.
-/
def fdClr (s : CSirServer) (sock : Int) : CSirServer := { s with fds := s.fds.filter fun fd => fd ≠ sock }

def onDrop (s : CSirServer) (client : ClientPtr) : CSirServer × List Effect :=
  let (s, effects) := s.releaseControl client
  (s.fdClr (s.getSock client), effects)

def drop (s : CSirServer) (client : ClientPtr) : CSirServer × List Effect :=
  let (s, effects) := s.onDrop client
  ({ s with heap := s.heap.modify client Client.drop }, effects)

section Notify

variable (s : CSirServer) (client : Option ClientPtr) (msg : List UInt8)

@[simp]
theorem controller_notify : (s.notify client msg).1.controller = s.controller := by
  cases client <;> rfl

@[simp]
theorem controlQueue_notify : (s.notify client msg).1.controlQueue = s.controlQueue := by
  cases client <;> rfl

end Notify

end CSirServer
