import Sircond.SirServer.Impl.OnRun

/-!
This module contains the main loop of the server turn by turn: a new connection, then one turn of each
client in the table, and at the end of the server the drop of whoever is left. `Ready` is what
`select` and the socket calls say about a client in a turn: whether its exception flag is set, what
`recv` returns if the socket is readable, and what `send` returns. The descriptors of the sockets are
taken to be below `FD_SETSIZE` here as well.

The outputs are the calls of `OnDrop`, each with the answer `IsDead` gives when it is made. The mutex
keeps broadcasts out of a turn. No client is added while the loop runs over the table, and only the
one at hand is erased from it, so that the loop may run over the table as it is at the start.
-/

open Machine

namespace CSirServer

structure DropCall where
  client : ClientPtr
  dead : Bool
  deriving DecidableEq, Repr

structure Ready where
  except : Bool
  recv : Option Client.RecvResult
  sent : Option Nat
  radio : Nat → Radio
  fuel : Nat

def quitCalls (radio : Nat → Radio) (client : ClientPtr) (s : CSirServer) (k : Nat)
    : List (List UInt8) → List DropCall
  | [] => []
  | line :: lines =>
    -- `ProcessQuit` is the handler of the lines with the one token QUIT.
    let calls := if strTokenize line 0x20 true = [ascii "QUIT"] then [⟨client, s.isDead client⟩] else []
    calls ++ quitCalls radio client (s.processCommand (radio k) client line).1 (k + 1) lines

def receiveTurn (s : CSirServer) (client : ClientPtr) (ready : Ready)
    : Option (CSirServer × List DropCall × Bool) :=
  match ready.recv with
  | some result =>
    if !s.isDead client then do
      let c ← s.heap[client]?
      let (_, _, lines, _) ←
        Client.receiveData (exec ready.radio client) ready.fuel (s, 0, []) c.rxbuf result
      let (s', _, more) ← s.receiveData ready.fuel ready.radio client result
      return (s', quitCalls ready.radio client s 0 lines, !more)
    else
      some (s, [], false)
  | none => some (s, [], false)

def transmitTurn (s : CSirServer) (client : ClientPtr) (ready : Ready) (drop : Bool)
    : Option (CSirServer × Bool) :=
  if !drop && !s.isDead client && s.heap[client]?.any Client.txPending then do
    let (s, result) ← s.transmitData client ready.sent
    return (s, !result)
  else
    some (s, drop)

def clientTurn (s : CSirServer) (client : ClientPtr) (ready : Ready)
    : Option (CSirServer × List DropCall) := do
  let except := !s.isDead client && ready.except
  let (s, calls, failed) ← s.receiveTurn client ready
  let (s, drop) ← s.transmitTurn client ready (except || failed)
  if drop then
    return ({ (s.drop client).1 with clients := s.clients.erase client },
      calls ++ [⟨client, s.isDead client⟩])
  else
    return (s, calls)

def turn (ready : ClientPtr → Ready) (s : CSirServer)
    : List ClientPtr → Option (CSirServer × List DropCall)
  | [] => some (s, [])
  | client :: clients => do
    let (s, calls₁) ← s.clientTurn client (ready client)
    let (s, calls₂) ← turn ready s clients
    return (s, calls₁ ++ calls₂)

def onExit.dropAll (s : CSirServer) : List ClientPtr → CSirServer × List DropCall
  | [] => (s, [])
  | client :: clients =>
    let call := ⟨client, s.isDead client⟩
    let (s, calls) := dropAll { (s.drop client).1 with clients } clients
    (s, call :: calls)

def onExit (s : CSirServer) : CSirServer × List DropCall :=
  onExit.dropAll { s with sock := -1 } s.clients

def opened (s : CSirServer) : List Int :=
  s.sock :: ((s.heap.filter fun c => !c.isDead).map Client.sock)

structure Loop where
  server : CSirServer
  running : Bool

def Loop.start (sock : Int) : Loop where
  server := new sock
  running := true

inductive LoopInput where
  | turn (connect : Option Int) (ready : ClientPtr → Ready)
  | broadcast (msg : List UInt8)
  | exit

def accept (s : CSirServer) : Option Int → Option CSirServer
  | some sock =>
    -- The system returns a descriptor that is not in use.
    if sock ≠ -1 ∧ sock ∉ s.opened then some (s.onConnect sock) else none
  | none => some s

def loopMachine : Machine Loop LoopInput DropCall where
  step l a :=
    if l.running then
      match a with
      | .turn connect ready => do
        let s ← l.server.accept connect
        let (s, calls) ← turn ready s s.clients
        return (⟨s, true⟩, calls)
      | .broadcast msg => some (⟨l.server.broadcast msg, true⟩, [])
      | .exit =>
        let (s, calls) := l.server.onExit
        some (⟨s, false⟩, calls)
    else
      none

end CSirServer
