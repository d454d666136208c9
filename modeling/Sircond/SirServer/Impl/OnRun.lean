import Sircond.SirServer.Impl.Command
import Sircond.SirServer.Impl.Receive
import Sircond.Lib.Machine

/-!
This module contains the main loop of the server as a machine: its steps are a new connection, one
call of `ReceiveData` or `TransmitData` for a client, the drop of a client after an error, and a
message broadcast on behalf of the radio thread.

`radio k` is the radio as the k-th command of a received buffer finds it. A call of `ReceiveData`
that does not return within the fuel given is no step. The results of GET and SET requests that the
radio thread sends to the controller are not steps of this machine. The descriptors of the sockets are
taken to be below `FD_SETSIZE`: the loop relies on `select` and on a number of clients that is not too
large for it.
-/

open Machine

namespace CSirServer

def fdSet (s : CSirServer) (sock : Int) : CSirServer :=
  { s with fds := if sock ∈ s.fds then s.fds else s.fds ++ [sock] }

def onNewClient (s : CSirServer) (client : ClientPtr) : CSirServer :=
  let s := s.fdSet (s.getSock client)
  if s.getSock client > s.highsock then { s with highsock := s.getSock client } else s

def onConnect (s : CSirServer) (sock : Int) : CSirServer :=
  let c := Client.new sock (List.replicate s.bufsize 0) (List.replicate s.bufsize 0)
  let s := { s with heap := s.heap ++ [c], clients := s.clients ++ [s.heap.length] }
  s.onNewClient (s.heap.length - 1)

def broadcast (s : CSirServer) (buf : List UInt8) : CSirServer :=
  -- The length is passed on in 8 bits.
  let buf := buf.take (buf.length % 256)
  s.clients.foldl
    (fun s client => { s with heap := s.heap.modify client fun c => (c.send buf).1 }) s

def exec (radio : Nat → Radio) (client : ClientPtr)
    : CSirServer × Nat × List Effect → List UInt8 → CSirServer × Nat × List Effect
  | (s, k, effects), line =>
    let (s, effects') := s.processCommand (radio k) client line
    (s, k + 1, effects ++ effects')

def receiveData (fuel : Nat) (radio : Nat → Radio) (s : CSirServer) (client : ClientPtr)
    (result : Client.RecvResult)
    : Option (CSirServer × List Effect × Bool) := do
  let c ← s.heap[client]?
  let ((s, _, effects), rxbuf, _, result) ←
    Client.receiveData (exec radio client) fuel (s, 0, []) c.rxbuf result
  return ({ s with heap := s.heap.modify client fun c => { c with rxbuf } }, effects, result)

def transmitData (s : CSirServer) (client : ClientPtr) (sent : Option Nat)
    : Option (CSirServer × Bool) := do
  let c ← s.heap[client]?
  let (c, result) ← c.transmitData sent
  return ({ s with heap := s.heap.modify client fun _ => c }, result)

inductive Input where
  | connect (sock : Int)
  | receive (fuel : Nat) (radio : Nat → Radio) (client : ClientPtr) (result : Client.RecvResult)
  | transmit (client : ClientPtr) (sent : Option Nat)
  | drop (client : ClientPtr)
  | broadcast (msg : List UInt8)

def serverMachine : Machine CSirServer Input Effect where
  step s
    | .connect sock => if sock = -1 then none else some (s.onConnect sock, [])
    | .receive fuel radio client result =>
      if client ∈ s.clients && !s.isDead client then do
        let (s, effects, _) ← s.receiveData fuel radio client result
        return (s, effects)
      else
        none
    | .transmit client sent =>
      if client ∈ s.clients && !s.isDead client then do
        let (s, _) ← s.transmitData client sent
        return (s, [])
      else
        none
    | .drop client =>
      -- With an error pending, the client may have died of its own command in the same turn.
      if client ∈ s.clients then
        let (s, effects) := s.drop client
        some ({ s with clients := s.clients.erase client }, effects)
      else
        none
    | .broadcast msg => some (s.broadcast msg, [])

end CSirServer
